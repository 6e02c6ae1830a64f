import Mathlib.Data.List.Infix
import Schemata.Notation.Draft
import Schemata.Proofs.Computation
import Schemata.Proofs.Text.Lines

/-!
# Texts put together from blocks

The first pass leaves no block open, so behind a text that it accepts it goes on as at the beginning,
but for the numbers of the lines. `Item.unnumbered` leaves these out: what a text is read as is, up to
them, what the texts that it is put together from are read as one after the other (`items_join`).
-/

namespace Schemata.Notation

open Text

/-! ## Drafts without line numbers -/

def FieldDraft.unnumbered (f : FieldDraft) : FieldDraft := { f with line := 0 }

def IndexDraft.unnumbered (i : IndexDraft) : IndexDraft := { i with line := 0 }

def TableDraft.unnumbered (t : TableDraft) : TableDraft :=
  { t with
    line := 0
    fields := t.fields.map FieldDraft.unnumbered
    indexes := t.indexes.map IndexDraft.unnumbered }

def ReferenceDraft.unnumbered (r : ReferenceDraft) : ReferenceDraft := { r with line := 0 }

def Item.unnumbered : Item → Item
  | dialect d => dialect d
  | table t => table t.unnumbered
  | enum e => enum e
  | reference r => reference r.unnumbered

def Block.unnumbered : Block → Block
  | top => top
  | project _ => project 0
  | projectNote _ => projectNote 0
  | table t => table t.unnumbered
  | indexes _ t => indexes 0 t.unnumbered
  | tableNote _ t notes => tableNote 0 t.unnumbered notes
  | enum _ e => enum 0 e
  | references _ name => references 0 name
  | skipped _ word => skipped 0 word

def Progress.unnumbered (p : Progress) : Progress := (p.1.unnumbered, p.2.map Item.unnumbered)

/-! ## Lines without numbers -/

section Steps

variable (line : Nat) (s : List Char)

theorem TableDraft.set_unnumbered (t : TableDraft) :
    t.unnumbered.set s = (t.set s).unnumbered := by
  unfold set
  dsimp only
  split <;> rfl

theorem TableDraft.foldl_set_unnumbered (settings : List (List Char)) (t : TableDraft) :
    settings.foldl set t.unnumbered = (settings.foldl set t).unnumbered := by
  induction settings generalizing t with
  | nil => rfl
  | cons s settings ih => rw [List.foldl_cons, List.foldl_cons, set_unnumbered, ih]

theorem referenceLine_unnumbered (name : Option String) : (referenceLine 0 name s).toOption =
    (referenceLine line name s).toOption.map ReferenceDraft.unnumbered := by
  unfold referenceLine
  cases ReferenceBody.ofText? s <;> rfl

theorem topLine_unnumbered :
    (topLine 0 s).toOption = (topLine line s).toOption.map Progress.unnumbered := by
  unfold topLine
  cases Header.ofLine? s with
  | none => rfl
  | some h =>
    cases h with
    | table name shortName settings =>
      have hset := TableDraft.foldl_set_unnumbered (splitSettings settings)
        { name := str name, line, shortName := shortName.map str }
      exact congrArg (fun t => some (Block.table t, [])) hset
    | reference name body =>
      dsimp only
      unfold referenceLine
      cases ReferenceBody.ofText? body <;> rfl
    | _ => rfl

theorem projectLine_unnumbered (opened : Nat) :
    (projectLine 0 s).value = Progress.unnumbered (projectLine opened s).value := by
  unfold projectLine
  dsimp only
  split
  · split <;> rfl
  · split <;> rfl

theorem FieldDraft.set_unnumbered (table : String) (f : FieldDraft) :
    (f.unnumbered.set table 0 s).value? = (f.set table line s).value?.map unnumbered := by
  unfold set
  dsimp only
  split <;> try rfl
  split <;> rfl

theorem FieldDraft.foldlM_set_unnumbered (table : String) (settings : List (List Char))
    (f : FieldDraft) : (settings.foldlM (set table 0) f.unnumbered).value? =
      (settings.foldlM (set table line) f).value?.map unnumbered := by
  induction settings generalizing f with
  | nil => rfl
  | cons s settings ih =>
    rw [List.foldlM_cons, List.foldlM_cons, Advised.value?_bind, Advised.value?_bind,
      set_unnumbered line]
    cases (f.set table line s).value? with
    | none => rfl
    | some g => exact ih g

theorem tableLine_unnumbered (t : TableDraft) : (tableLine 0 t.unnumbered s).value? =
    (tableLine line t s).value?.map Progress.unnumbered := by
  unfold tableLine
  split
  · rfl
  split
  · rfl
  split
  · rfl
  split
  · rfl
  · next l _ =>
    have hset := FieldDraft.foldlM_set_unnumbered line t.name (splitSettings l.settings)
      { name := str l.name, rawType := str l.type, line }
    rw [Advised.value?_bind, Advised.value?_bind]
    refine (congrArg (Option.bind · _) hset).trans ?_
    cases ((splitSettings l.settings).foldlM (FieldDraft.set t.name line)
      { name := str l.name, rawType := str l.type, line }).value? with
    | none => rfl
    | some f =>
      refine congrArg (fun fields => some (Block.table { t.unnumbered with fields }, [])) ?_
      rw [List.map_append]
      rfl

theorem IndexDraft.set_unnumbered (i : IndexDraft) : i.unnumbered.set s = (i.set s).unnumbered := by
  unfold set
  dsimp only
  split <;> rfl

theorem IndexDraft.foldl_set_unnumbered (settings : List (List Char)) (i : IndexDraft) :
    settings.foldl set i.unnumbered = (settings.foldl set i).unnumbered := by
  induction settings generalizing i with
  | nil => rfl
  | cons s settings ih => rw [List.foldl_cons, List.foldl_cons, set_unnumbered, ih]

theorem indexLine_unnumbered (t : TableDraft) : (indexLine 0 t.unnumbered s).value? =
    (indexLine line t s).value?.map TableDraft.unnumbered := by
  unfold indexLine
  split
  · rfl
  · rfl
  · next names settings _ =>
    split
    · rfl
    · have hset := IndexDraft.foldl_set_unnumbered (splitSettings settings)
        { fields := names.map str, line }
      refine congrArg (fun indexes => some { t.unnumbered with indexes }) ?_
      rw [List.map_append]
      exact congrArg (fun i => _ ++ [i]) hset

theorem contentLine_unnumbered (b : Block) : (contentLine 0 s b.unnumbered).value? =
    (contentLine line s b).value?.map Progress.unnumbered := by
  cases b with
  | top => exact topLine_unnumbered line s
  | project opened => exact congrArg some (projectLine_unnumbered s opened)
  | table t => exact tableLine_unnumbered line s t
  | indexes opened t =>
    show ((indexLine 0 t.unnumbered s) >>= _).value? = ((indexLine line t s) >>= _).value?.map _
    rw [Advised.value?_bind, Advised.value?_bind, indexLine_unnumbered line]
    cases (indexLine line t s).value? <;> rfl
  | references opened name =>
    show (Advised.ofExcept (referenceLine 0 name s) >>= _).value? =
      (Advised.ofExcept (referenceLine line name s) >>= _).value?.map _
    rw [Advised.value?_bind, Advised.value?_bind, Advised.value?_ofExcept, Advised.value?_ofExcept,
      referenceLine_unnumbered line]
    cases (referenceLine line name s).toOption <;> rfl
  | _ => rfl

theorem closingLine_unnumbered (b : Block) : (closingLine 0 b.unnumbered).toOption =
    (closingLine line b).toOption.map Progress.unnumbered := by
  cases b <;> rfl

/-- A line does the same whatever its number is, but for the numbers that it notes down. -/
theorem step_unnumbered (b : Block) :
    (step 0 s b.unnumbered).value? = (step line s b).value?.map Progress.unnumbered := by
  unfold step
  dsimp only
  split
  · rfl
  split
  · exact closingLine_unnumbered line b
  · exact contentLine_unnumbered line (strip s) b

end Steps

/-! ## Texts one behind the other -/

/-- The block that lines lead to without their numbers, and the items they finish. -/
def run (b : Block) : List (List Char) → Option Progress
  | [] => some (b, [])
  | s :: rest => (step 0 s b).value?.bind fun p => (run p.1 rest).map fun q => (q.1, p.2 ++ q.2)

theorem run_append (b : Block) (ls ms : List (List Char)) :
    run b (ls ++ ms) = (run b ls).bind fun p => (run p.1 ms).map fun q => (q.1, p.2 ++ q.2) := by
  induction ls generalizing b with
  | nil =>
    rw [List.nil_append, run, Option.bind_some]
    cases run b ms <;> rfl
  | cons s ls ih =>
    rw [List.cons_append, run, run]
    cases (step 0 s b).value? with
    | none => rfl
    | some p =>
      rw [Option.bind_some, Option.bind_some, ih]
      cases run p.1 ls with
      | none => rfl
      | some q =>
        rw [Option.bind_some, Option.map_some, Option.bind_some]
        cases run q.1 ms with
        | none => rfl
        | some r => simp

theorem run_blank (b : Block) (ls : List (List Char)) : run b ([] :: ls) = run b ls := by
  show (run b ls).map (fun q => (q.1, [] ++ q.2)) = run b ls
  exact Option.map_id'

theorem finish_eq_ok {b : Block} {items : List Item} :
    finish b = .ok items ↔ b.unnumbered = .top ∧ items = [] := by
  cases b <;> simp [finish, Block.header?, Block.unnumbered, eq_comm]

/-- The first pass comes to items exactly when the lines lead back to where no block is open. -/
theorem run_of_itemsFrom {line : Nat} {b : Block} {ls : List (List Char)} {items : List Item}
    (h : (itemsFrom line b ls).outcome = .ok items) :
    run b.unnumbered ls = some (.top, items.map Item.unnumbered) := by
  induction ls generalizing line b items with
  | nil =>
    obtain ⟨htop, rfl⟩ := finish_eq_ok.1 h
    rw [run, htop]
    rfl
  | cons s ls ih =>
    rw [itemsFrom] at h
    obtain ⟨⟨b', finished⟩, hstep, h⟩ := Advised.outcome_bind_eq_ok.1 h
    obtain ⟨later, hlater, h⟩ := Advised.outcome_bind_eq_ok.1 h
    cases h
    rw [run, step_unnumbered line, Advised.value?_eq_some.2 hstep, Option.map_some,
      Option.bind_some]
    show (run b'.unnumbered ls).map _ = _
    rw [ih hlater, List.map_append]
    rfl

theorem exists_itemsFrom {line : Nat} {b : Block} {ls : List (List Char)} {items : List Item}
    (h : run b.unnumbered ls = some (.top, items)) : ∃ items',
      (itemsFrom line b ls).outcome = .ok items' ∧ items'.map Item.unnumbered = items := by
  induction ls generalizing line b items with
  | nil =>
    rw [run, Option.some.injEq, Prod.mk.injEq] at h
    obtain ⟨htop, rfl⟩ := h
    exact ⟨[], finish_eq_ok.2 ⟨htop, rfl⟩, rfl⟩
  | cons s ls ih =>
    rw [run, step_unnumbered line, Option.bind_eq_some_iff] at h
    obtain ⟨_, hread, h⟩ := h
    obtain ⟨⟨b', finished⟩, hstep, rfl⟩ := Option.map_eq_some_iff.1 hread
    obtain ⟨⟨_, later⟩, hrun, h⟩ := Option.map_eq_some_iff.1 h
    cases h
    obtain ⟨later', hlater, rfl⟩ := ih hrun
    refine ⟨finished ++ later', ?_, List.map_append ..⟩
    rw [itemsFrom]
    refine Advised.outcome_bind_eq_ok.2 ⟨_, Advised.value?_eq_some.1 hstep, ?_⟩
    exact Advised.outcome_bind_eq_ok.2 ⟨_, hlater, rfl⟩


/-! ## Comments -/

/-- A text without marks of comments stays as it is. -/
theorem blankFrom_eq_self {region : Region} (hline : region ≠ .lineComment)
    (hblock : region ≠ .blockComment) {s : List Char} (h : ¬['/', '/'] <:+: s)
    (h' : ¬['/', '*'] <:+: s) : blankFrom region s = s := by
  have htail : ∀ {mark : List Char} {c : Char} {r : List Char}, ¬mark <:+: c :: r → ¬mark <:+: r :=
    fun h hr => h (hr.trans (List.suffix_cons _ _).isInfix)
  fun_induction blankFrom region s with
  | case1 => rfl
  | case2 r => exact absurd (List.prefix_append ['/', '/'] r).isInfix h
  | case3 r => exact absurd (List.prefix_append ['/', '*'] r).isInfix h'
  | case4 c r _ _ ih =>
    rw [ih (by split <;> simp) (by split <;> simp) (htail h) (htail h')]
  | case5 q c r ih => rw [ih (by simp) (by simp) (htail (htail h)) (htail (htail h'))]
  | case6 q c r _ ih => rw [ih (by split <;> simp) (by split <;> simp) (htail h) (htail h')]
  | case7 => exact absurd rfl hline
  | case8 => exact absurd rfl hline
  | case9 => exact absurd rfl hblock
  | case10 => exact absurd rfl hblock
  | case11 => exact absurd rfl hblock

theorem blankComments_eq_self {s : List Char} (h : ¬['/', '/'] <:+: s) (h' : ¬['/', '*'] <:+: s) :
    blankComments s = s := by
  unfold blankComments
  exact blankFrom_eq_self (by decide) (by decide) h h'

/-- Two characters that stand side by side in a text stand so in one of its parts, unless the first of
them ends the one part and the second begins the other. -/
theorem infix_append {a b : Char} {s r : List Char} (h : [a, b] <:+: s ++ r) :
    [a, b] <:+: s ∨ [a, b] <:+: r ∨ (s.getLast? = some a ∧ r.head? = some b) := by
  obtain ⟨before, after, h⟩ := h
  rw [List.append_assoc, List.append_eq_append_iff] at h
  obtain ⟨c, rfl, h⟩ | ⟨c, rfl, h⟩ := h
  · match c, h with
    | [], h => exact .inr (.inl ⟨[], after, h⟩)
    | [_], h =>
      cases h
      exact .inr (.inr ⟨by simp, rfl⟩)
    | _ :: _ :: c, h =>
      cases h
      exact .inl ⟨before, c, by simp⟩
  · exact .inr (.inl ⟨c, after, by rw [List.append_assoc, ← h]⟩)

/-! ## Complete texts -/

/-- Whole lines that the first pass accepts by themselves, without marks of comments. -/
structure IsComplete (text : String) : Prop where
  ends : ∀ c ∈ text.toList.getLast?, isLineBreak c = true
  no_lineComment : ¬['/', '/'] <:+: text.toList
  no_blockComment : ¬['/', '*'] <:+: text.toList
  accepted : ∃ items, (itemsOf text.toList).outcome = .ok items

/-- What the first pass accepts is complete with a line feed behind it. -/
theorem isComplete_newline {text : String} (hline : ¬['/', '/'] <:+: text.toList)
    (hblock : ¬['/', '*'] <:+: text.toList)
    (haccepted : ∃ items, (itemsOf text.toList).outcome = .ok items) : IsComplete (text ++ "\n") := by
  have htoList : (text ++ "\n").toList = text.toList ++ ['\n'] := String.toList_append
  have hinfix : ∀ b, b ≠ '\n' → ¬['/', b] <:+: text.toList →
      ¬['/', b] <:+: text.toList ++ ['\n'] := by
    intro b hb hnot hinfix
    rcases infix_append hinfix with hinfix | hinfix | ⟨-, hhead⟩
    · exact hnot hinfix
    · exact absurd hinfix.length_le (by simp)
    · exact hb (Option.some.inj hhead).symm
  have hline' := hinfix '/' (by decide) hline
  have hblock' := hinfix '*' (by decide) hblock
  refine ⟨?_, htoList ▸ hline', htoList ▸ hblock', ?_⟩
  · rw [htoList, List.getLast?_concat]
    simp [isLineBreak]
  · obtain ⟨items, hitems⟩ := haccepted
    rw [itemsOf, blankComments_eq_self hline hblock] at hitems
    have hrun := run_of_itemsFrom hitems
    have hrun' : run .top (lines (text.toList ++ ['\n'])) =
        some (.top, items.map Item.unnumbered) := by
      rcases lines_append_newline_end text.toList with hlines | hlines
      · rw [hlines]
        exact hrun
      · rw [hlines, run_append]
        refine (congrArg (Option.bind · _) hrun).trans ?_
        rw [Option.bind_some, run_blank]
        simp [run]
    obtain ⟨items', hitems', -⟩ := exists_itemsFrom (b := .top) hrun'
    rw [htoList, itemsOf, blankComments_eq_self hline' hblock']
    exact ⟨items', hitems'⟩

/-- The items of a text by itself. -/
def itemsAlone (text : String) : List Item := (itemsOf text.toList).value?.getD []

theorem IsComplete.run_append {text : String} (h : IsComplete text) (r : List Char) :
    run .top (lines (text.toList ++ r)) =
      (run .top (lines r)).map fun q =>
        (q.1, (itemsAlone text).map Item.unnumbered ++ q.2) := by
  obtain ⟨items, hitems⟩ := h.accepted
  have halone : itemsAlone text = items := by
    rw [itemsAlone, Advised.value?_eq_some.2 hitems]
    rfl
  have hrun : run .top (lines text.toList) = some (.top, items.map Item.unnumbered) := by
    rw [itemsOf, blankComments_eq_self h.no_lineComment h.no_blockComment] at hitems
    exact run_of_itemsFrom hitems
  rw [halone]
  -- a boundary of two characters between the texts only costs an empty line
  rcases lines_append_of_complete h.ends r with hlines | ⟨r', rfl, hlines⟩
  · rw [hlines, Notation.run_append, hrun]
    rfl
  · rw [hlines, Notation.run_append, hrun, lines_newline, run_blank]
    rfl

theorem run_join {texts : List String} (h : ∀ t ∈ texts, IsComplete t) :
    run .top (lines (String.join texts).toList) =
      some (.top, (texts.flatMap itemsAlone).map Item.unnumbered) := by
  rw [String.toList_join]
  induction texts with
  | nil => rfl
  | cons t texts ih =>
    obtain ⟨ht, h⟩ := List.forall_mem_cons.1 h
    rw [List.flatMap_cons, ht.run_append, ih h, List.flatMap_cons, List.map_append]
    rfl

theorem infix_join {b : Char} {texts : List String} (h : ∀ t ∈ texts, IsComplete t)
    (hb : ∀ t ∈ texts, ¬['/', b] <:+: t.toList) : ¬['/', b] <:+: (String.join texts).toList := by
  rw [String.toList_join]
  induction texts with
  | nil => simp
  | cons t texts ih =>
    obtain ⟨ht, h⟩ := List.forall_mem_cons.1 h
    obtain ⟨hb, hbs⟩ := List.forall_mem_cons.1 hb
    intro hinfix
    rcases infix_append hinfix with hinfix | hinfix | ⟨hlast, -⟩
    · exact hb hinfix
    · exact ih h hbs hinfix
    · exact absurd (ht.ends '/' hlast) (by decide)

/-- Complete texts are read one behind the other as what each of them is read as. -/
theorem items_join {texts : List String} (h : ∀ t ∈ texts, IsComplete t) :
    ∃ items, (itemsOf (String.join texts).toList).outcome = .ok items ∧
      items.map Item.unnumbered = (texts.flatMap itemsAlone).map Item.unnumbered := by
  rw [itemsOf, blankComments_eq_self (infix_join h fun t ht => (h t ht).no_lineComment)
    (infix_join h fun t ht => (h t ht).no_blockComment)]
  exact exists_itemsFrom (b := .top) (run_join h)

end Schemata.Notation
