import Schemata.Proofs.Computation
import Schemata.Proofs.Notation.Comments
import Schemata.Proofs.Notation.Text

/-!
# Where a text is at fault

A line is refused with a fault at that line (`step_failsAt`), and a fault ends the reading; one sort of
fault, a heading in which no name is found, does not say at which line it is. So whatever the first pass
refuses, other than a block that is still open at the end, it refuses at one of the lines, and the lines
behind that one have no part in it (`exists_line_of_error`). Comments are blanked
before the lines are read, and one that is open at a line goes on behind it. But what is written over a
line depends on the line and on the region it starts in, and this on the lines in front of it: the first
lines of a text settle the first lines without comments (`take_lines_blankFrom`). Together, a fault is
settled by the lines up to the one it is at (`itemsOf_fault_local`).
-/

namespace Schemata

/-- A fault that is due to a line: it names the line, or it names none. -/
def Fault.IsAt (line : Nat) (e : Fault) : Prop :=
  (∃ cause, e = .atLine line cause) ∨ e = .unnamedHeading

/-! ## Computations that fail at a line -/

namespace Advised

variable {α β : Type} {line : Nat}

/-- A computation whose faults are all at one line. -/
def FailsAt (line : Nat) (x : Advised α) : Prop := ∀ e, x.outcome = .error e → e.IsAt line

theorem failsAt_of_ok {x : Advised α} {a : α} (h : x.outcome = .ok a) : x.FailsAt line :=
  fun e he => by rw [h] at he; cases he

theorem failsAt_pure (a : α) : (pure a : Advised α).FailsAt line := failsAt_of_ok rfl

theorem failsAt_fail (cause : Fault) : (fail (.atLine line cause) : Advised α).FailsAt line :=
  fun _ he => .inl ⟨cause, (Except.error.inj he).symm⟩

theorem FailsAt.bind {x : Advised α} {f : α → Advised β} (hx : x.FailsAt line)
    (hf : ∀ a, (f a).FailsAt line) : (x >>= f).FailsAt line := by
  intro e he
  obtain hfirst | ⟨a, -, hnext⟩ := outcome_bind_eq_error.1 he
  · exact hx e hfirst
  · exact hf a e hnext

theorem failsAt_foldlM {f : β → α → Advised β} (hf : ∀ b a, (f b a).FailsAt line) (l : List α)
    (b : β) : (l.foldlM f b).FailsAt line := by
  induction l generalizing b with
  | nil => exact failsAt_pure b
  | cons a l ih =>
    rw [List.foldlM_cons]
    exact (hf b a).bind ih

end Advised

namespace Notation

open Advised Text

/-! ## Lines that are refused -/

section Lines

variable (line : Nat) (s : List Char)

theorem referenceLine_failsAt (name : Option String) :
    (ofExcept (referenceLine line name s)).FailsAt line := by
  fun_cases referenceLine line name s
  · exact failsAt_fail _
  · exact failsAt_of_ok rfl

theorem topLine_failsAt : (ofExcept (topLine line s)).FailsAt line := by
  fun_cases topLine line s
  case case1 => exact failsAt_fail _
  case case6 name body _ =>
    have href := referenceLine_failsAt line body (name.map str)
    intro e he
    cases hbody : referenceLine line (name.map str) body with
    | error e' =>
      rw [hbody] at href he
      obtain rfl : e' = e := Except.error.inj he
      exact href e' rfl
    | ok r =>
      rw [hbody] at he
      cases he
  case case9 => exact fun e he => .inr (Except.error.inj he).symm
  all_goals exact failsAt_of_ok rfl

theorem FieldDraft.set_failsAt (table : String) (f : FieldDraft) :
    (f.set table line s).FailsAt line := by
  fun_cases FieldDraft.set table line f s
  case case10 => exact failsAt_fail _
  all_goals exact failsAt_of_ok rfl

theorem tableLine_failsAt (t : TableDraft) : (tableLine line t s).FailsAt line := by
  fun_cases tableLine line t s
  case case4 => exact failsAt_fail _
  case case5 =>
    exact (failsAt_foldlM (fun f setting => FieldDraft.set_failsAt line setting t.name f) _ _).bind
      fun _ => failsAt_pure _
  all_goals exact failsAt_pure _

theorem indexLine_failsAt (t : TableDraft) : (indexLine line t s).FailsAt line := by
  fun_cases indexLine line t s
  case case2 => exact failsAt_of_ok rfl
  case case4 => exact failsAt_pure _
  all_goals exact failsAt_fail _

theorem contentLine_failsAt (b : Block) : (contentLine line s b).FailsAt line := by
  cases b with
  | top => exact topLine_failsAt line s
  | project => exact failsAt_of_ok rfl
  | table t => exact tableLine_failsAt line s t
  | indexes _ t => exact (indexLine_failsAt line s t).bind fun _ => failsAt_pure _
  | references _ name => exact (referenceLine_failsAt line s name).bind fun _ => failsAt_pure _
  | projectNote | tableNote | enum | skipped => exact failsAt_pure _

theorem closingLine_failsAt (b : Block) : (ofExcept (closingLine line b)).FailsAt line := by
  cases b with
  | top => exact failsAt_fail _
  | project | projectNote | table | indexes | tableNote | enum | references | skipped =>
    exact failsAt_of_ok rfl

/-- Whatever block a line stands in, its faults are at the line. -/
theorem step_failsAt (b : Block) : (step line s b).FailsAt line := by
  fun_cases step line s b
  · exact failsAt_pure _
  · exact closingLine_failsAt line b
  · exact contentLine_failsAt line _ b

end Lines

/-- A block that is open at the end of the text. -/
def IsUnclosed (e : Fault) : Prop := ∃ opened header, e = .atLine opened (.unclosedBlock header)

/-- Lines that are refused, other than for a block they leave open, are refused at one of them, and so
are all lines that start alike up to that one. -/
theorem exists_line_of_error {line : Nat} {b : Block} {ls : List (List Char)} {e : Fault}
    (h : (itemsFrom line b ls).outcome = .error e) (hclosed : ¬IsUnclosed e) :
    ∃ k < ls.length, e.IsAt (line + k) ∧
      ∀ ms : List (List Char), ms.take (k + 1) = ls.take (k + 1) →
        itemsFrom line b ms = itemsFrom line b ls := by
  induction ls generalizing line b with
  | nil =>
    refine absurd ?_ hclosed
    replace h : finish b = .error e := h
    unfold finish at h
    split at h
    · cases h
    · next header opened _ => exact ⟨opened, header, (Except.error.inj h).symm⟩
  | cons s ls ih =>
    have hcons : ∀ {k : Nat} {ms : List (List Char)}, ms.take (k + 1) = (s :: ls).take (k + 1) →
        ∃ ms', ms = s :: ms' ∧ ms'.take k = ls.take k := by
      intro k ms hms
      cases ms with
      | nil => cases hms
      | cons m ms => exact ⟨ms, congrArg (· :: ms) (List.cons.inj hms).1, (List.cons.inj hms).2⟩
    rw [itemsFrom] at h
    obtain hstep | ⟨⟨b', finished⟩, hstep, hrest⟩ := outcome_bind_eq_error.1 h
    · refine ⟨0, Nat.zero_lt_succ _, step_failsAt line s b e hstep, fun ms hms => ?_⟩
      obtain ⟨ms', rfl, -⟩ := hcons hms
      rw [itemsFrom, itemsFrom, bind_of_error hstep, bind_of_error hstep]
    · obtain hrest | ⟨_, -, hnone⟩ := outcome_bind_eq_error.1 hrest
      · obtain ⟨k, hk, hat, hsame⟩ := ih hrest
        refine ⟨k + 1, Nat.succ_lt_succ hk, by rwa [Nat.add_right_comm] at hat, fun ms hms => ?_⟩
        obtain ⟨ms', rfl, hms'⟩ := hcons hms
        rw [itemsFrom, itemsFrom, bind_of_ok hstep, bind_of_ok hstep]
        simp only [hsame ms' hms']
      · cases hnone

/-! ## Lines without their comments -/

/-- Reading goes on behind a line feed in a region that only what stands in front of it settles. -/
theorem blankFrom_append_feed (region : Region) (s : List Char) : ∃ region', ∀ r,
    blankFrom region (s ++ '\n' :: r) = blankFrom region s ++ '\n' :: blankFrom region' r := by
  fun_induction blankFrom region s with
  | case1 region =>
    cases region with
    | code => exact ⟨.code, fun r => blankFrom_feed r⟩
    | quoted q =>
      refine ⟨if '\n' = q then .code else .quoted q, fun r => ?_⟩
      rw [List.nil_append, blankFrom]
      · rfl
      · exact fun _ _ h => absurd h (by decide)
    | lineComment => exact ⟨.code, fun r => by simp [blankFrom]⟩
    | blockComment => exact ⟨.blockComment, fun r => by simp [blankFrom]⟩
  | case2 s ih | case3 s ih | case5 q c s ih | case7 s ih | case9 s ih | case10 s ih =>
    obtain ⟨region', h⟩ := ih
    exact ⟨region', fun r => by simp [blankFrom, h]⟩
  | case4 c s hline hblock ih =>
    obtain ⟨region', h⟩ := ih
    have hopen : ∀ a r, a ≠ '\n' → (∀ u, c = '/' → s = a :: u → False) →
        ¬['/', a] <+: c :: (s ++ '\n' :: r) := by
      intro a r ha hnot hstart
      obtain ⟨rfl, hnext⟩ := List.cons_prefix_cons.1 hstart
      cases s with
      | nil => exact ha (List.cons_prefix_cons.1 hnext).1
      | cons d s => exact hnot s rfl (congrArg (· :: s) (List.cons_prefix_cons.1 hnext).1.symm)
    refine ⟨region', fun r => ?_⟩
    rw [List.cons_append, blankFrom_code_cons (hopen _ r (by decide) hline)
      (hopen _ r (by decide) hblock), h, List.cons_append]
  | case6 q c s hescape ih =>
    by_cases hlone : c = '\\' ∧ s = []
    · -- the backslash takes the line feed along
      obtain ⟨rfl, rfl⟩ := hlone
      refine ⟨.quoted q, fun r => ?_⟩
      simp [blankFrom]
    · obtain ⟨region', h⟩ := ih
      refine ⟨region', fun r => ?_⟩
      rw [List.cons_append, blankFrom, h, List.cons_append]
      rintro d u rfl hu
      cases s with
      | nil => exact hlone ⟨rfl, rfl⟩
      | cons x s => exact hescape x s rfl rfl
  | case8 c s hc ih =>
    obtain ⟨region', h⟩ := ih
    refine ⟨region', fun r => ?_⟩
    rw [List.cons_append, blankFrom, h, List.cons_append]
    exact hc
  | case11 c s hclose hc ih =>
    obtain ⟨region', h⟩ := ih
    refine ⟨region', fun r => ?_⟩
    rw [List.cons_append, blankFrom, h, List.cons_append]
    · intro u hc hu
      cases s with
      | nil => cases hu
      | cons d s => exact hclose s hc (congrArg (· :: s) (List.cons.inj hu).1)
    · exact hc

theorem no_break_of_blanked {l m : List Char} (h : List.Forall₂ Blanked l m)
    (hl : ∀ c ∈ l, isLineBreak c = false) : ∀ c ∈ m, isLineBreak c = false := by
  induction h with
  | nil => exact hl
  | cons hcd _ ih =>
    obtain ⟨hc, hl⟩ := List.forall_mem_cons.1 hl
    refine List.forall_mem_cons.2 ⟨?_, ih hl⟩
    obtain rfl | ⟨-, rfl⟩ := hcd
    · exact hc
    · decide

/-- A line without its comments is one line, and the text behind its line feed is read on from a region
that only the line settles. -/
theorem exists_lines_blankFrom (region : Region) {l : List Char}
    (hl : ∀ c ∈ l, isLineBreak c = false) :
    lines (blankFrom region l ++ ['\n']) = [blankFrom region l] ∧ ∃ region', ∀ r,
      lines (blankFrom region (l ++ '\n' :: r) ++ ['\n']) =
        blankFrom region l :: lines (blankFrom region' r ++ ['\n']) := by
  have hblank := no_break_of_blanked (forall₂_blankFrom region l) hl
  obtain ⟨region', h⟩ := blankFrom_append_feed region l
  refine ⟨lines_append_newline hblank [], region', fun r => ?_⟩
  rw [h, List.append_assoc, List.cons_append, lines_append_newline hblank]

/-- Texts that have their first lines in common, as line feeds separate them. -/
def SameLines (n : Nat) (s t : List Char) : Prop :=
  (s.splitOn '\n').take n = (t.splitOn '\n').take n

instance (n : Nat) (s t : List Char) : Decidable (SameLines n s t) :=
  inferInstanceAs (Decidable (_ = _))

/-- A text is a line, or a line and the text behind its line feed. -/
theorem exists_splitOn (s : List Char) : ∃ l, '\n' ∉ l ∧ (s = l ∧ s.splitOn '\n' = [l] ∨
    ∃ r, s = l ++ '\n' :: r ∧ s.splitOn '\n' = l :: r.splitOn '\n') := by
  by_cases hfeed : '\n' ∈ s
  · obtain ⟨l, r, rfl, hl⟩ := List.eq_append_cons_of_mem hfeed
    refine ⟨l, hl, .inr ⟨r, rfl, List.splitOnP_append_cons_of_forall_mem (fun c hc => ?_) '\n' rfl r⟩⟩
    rw [beq_eq_false_iff_ne]
    rintro rfl
    exact hl hc
  · exact ⟨s, hfeed, .inl ⟨rfl, List.splitOn_eq_singleton hfeed⟩⟩

/-- The first lines of a text settle the first lines without comments. By induction on their number: the
lines behind the first are read on from a region that the first settles. -/
theorem take_lines_blankFrom {n : Nat} {region : Region} {s t : List Char}
    (hs : ∀ c ∈ s, isLineBreak c = true → c = '\n') (h : SameLines n s t) :
    (lines (blankFrom region s ++ ['\n'])).take n = (lines (blankFrom region t ++ ['\n'])).take n := by
  induction n generalizing region s t with
  | zero => rfl
  | succ n ih =>
    obtain ⟨l, hfeed, hsplit⟩ := exists_splitOn s
    obtain ⟨m, -, hsplit'⟩ := exists_splitOn t
    have hl : ∀ c ∈ l, isLineBreak c = false := by
      intro c hc
      have hmem : c ∈ s := by
        obtain ⟨rfl, -⟩ | ⟨r, rfl, -⟩ := hsplit
        · exact hc
        · exact List.mem_append_left _ hc
      rw [Bool.eq_false_iff]
      intro hbreak
      obtain rfl := hs c hmem hbreak
      exact hfeed hc
    obtain ⟨hlast, region', hnext⟩ := exists_lines_blankFrom region hl
    have hcons : ∀ {ls ls' : List (List Char)}, s.splitOn '\n' = l :: ls → t.splitOn '\n' = m :: ls' →
        l = m ∧ ls.take n = ls'.take n := fun hs ht => by
      rw [SameLines, hs, ht] at h
      exact List.cons.inj h
    -- if only one of the texts goes on behind its first line, no further lines are compared
    have hshort : ∀ r : List Char, (r.splitOn '\n').take n = [] → n = 0 := fun r hr =>
      (List.take_eq_nil_iff.1 hr).resolve_right (List.splitOn_ne_nil '\n' r)
    obtain ⟨rfl, hsplit⟩ | ⟨r, rfl, hsplit⟩ := hsplit <;>
      obtain ⟨rfl, hsplit'⟩ | ⟨r', rfl, hsplit'⟩ := hsplit'
    · obtain ⟨rfl, -⟩ := hcons hsplit hsplit'
      rfl
    · obtain ⟨rfl, hrest⟩ := hcons hsplit hsplit'
      rw [List.take_nil] at hrest
      rw [hlast, hnext, hshort r' hrest.symm]
      rfl
    · obtain ⟨rfl, hrest⟩ := hcons hsplit hsplit'
      rw [List.take_nil] at hrest
      rw [hlast, hnext, hshort r hrest]
      rfl
    · obtain ⟨rfl, hrest⟩ := hcons hsplit hsplit'
      rw [hnext, hnext, List.take_succ_cons, List.take_succ_cons,
        ih (fun c hc => hs c (by simp [hc])) hrest]

/-! ## Locality -/

/-- A line feed at the end of a text changes nothing. -/
theorem itemsOf_append_feed (s : List Char) :
    itemsOf s = itemsFrom 1 .top (lines (blankComments s ++ ['\n'])) := by
  obtain h | h := lines_append_newline_end (blankComments s)
  · rw [h, itemsOf]
  · rw [h, itemsFrom_append_blank, itemsOf]

/-- Whatever the first pass refuses, other than a block that is open at the end, it refuses at one of the
lines of the text, and it refuses every text alike that agrees with this one up to that line. If the
fault names a line, it is this one. -/
theorem itemsOf_fault_local {t : String} (ht : FeedsOnly t) {e : Fault}
    (he : (itemsOf t.toList).outcome = .error e) (hclosed : ¬IsUnclosed e) :
    ∃ n, e.IsAt n ∧ 1 ≤ n ∧ n ≤ (lines t.toList).length ∧
      ∀ u : String, SameLines n t.toList u.toList →
        itemsOf u.toList = itemsOf t.toList ∧ (parse u).outcome = .error e := by
  have hbounded : FeedBounded t.toList := fun i hi hbreak => .inl (ht _ (List.getElem_mem hi) hbreak)
  have hlength := (forall₂_lines hbounded (forall₂_blankFrom .code t.toList)).length_eq
  obtain ⟨k, hk, hat, hsame⟩ := exists_line_of_error (by rwa [itemsOf] at he) hclosed
  -- a line feed behind the text adds at most a line at its end, which is not among the first ones
  have htake : (lines (blankComments t.toList ++ ['\n'])).take (k + 1) =
      (lines (blankComments t.toList)).take (k + 1) := by
    obtain h | h := lines_append_newline_end (blankComments t.toList)
    · rw [h]
    · rw [h, List.take_append_of_le_length hk]
  refine ⟨1 + k, hat, Nat.le_add_right 1 k, ?_, fun u hu => ?_⟩
  · rw [hlength]
    exact Nat.one_add k ▸ hk
  · have hitems : itemsOf u.toList = itemsOf t.toList := by
      rw [itemsOf_append_feed, itemsOf]
      refine hsame _ ?_
      rw [Nat.add_comm] at hu
      exact (take_lines_blankFrom ht hu).symm.trans htake
    refine ⟨hitems, ?_⟩
    rw [parse, hitems, bind_of_error he]

/-- A field without a type on the third line, behind a comment over two lines, and a text that goes on
behind it with quotes, a comment and a block that are not closed. -/
theorem itemsOf_fault_local_field :
    FeedsOnly "Table a \x7b /* one\n two */ id int\n  ??? // key\n\x7d\n" ∧
      (itemsOf "Table a \x7b /* one\n two */ id int\n  ??? // key\n\x7d\n".toList).outcome =
        .error (.atLine 3 (.malformedField "???")) ∧
      (parse "Table a \x7b /* one\n two */ id int\n  ??? // key\nnote: ' /* \"\r").outcome =
        .error (.atLine 3 (.malformedField "???")) := by
  have hfeeds : FeedsOnly "Table a \x7b /* one\n two */ id int\n  ??? // key\n\x7d\n" := by
    unfold FeedsOnly
    decide
  have he : (itemsOf "Table a \x7b /* one\n two */ id int\n  ??? // key\n\x7d\n".toList).outcome =
      .error (.atLine 3 (.malformedField "???")) := by decide +kernel
  refine ⟨hfeeds, he, ?_⟩
  obtain ⟨n, ⟨cause, hcause⟩ | hcause, -, -, h⟩ :=
    itemsOf_fault_local hfeeds he (by rintro ⟨_, _, h⟩; cases h)
  · obtain ⟨rfl, -⟩ := Fault.atLine.inj hcause
    exact (h _ (by decide)).2
  · cases hcause

end Notation

end Schemata
