import Mathlib.Tactic.Common

/-!
# Texts with literals in them

`Spells write P s vs` says that `s` is laid out as characters of code with the literals of `vs`
between them, in this order, each before a rest of the text of which `P` holds. That no quote stands
behind a literal, where it would lengthen it, is all that code has to see to (`Spelled`). So spelled
texts are put together as texts are: one behind the other, in a row with something between them, or
each with something before or behind it.
-/

namespace Schemata.Text

/-- A text is code with literals between, each of them before a rest that it goes with. -/
inductive Spells (write : String → String) (P : String → List Char → Prop) :
    List Char → List String → Prop
  | nil : Spells write P [] []
  | code (c : Char) {s : List Char} {vs : List String} (h : Spells write P s vs) :
    Spells write P (c :: s) vs
  | literal (v : String) {s : List Char} {vs : List String} (hv : P v s) (h : Spells write P s vs) :
    Spells write P ((write v).toList ++ s) (v :: vs)

theorem Spells.mono {write : String → String} {P Q : String → List Char → Prop} {s : List Char}
    {vs : List String} (hPQ : ∀ v r, P v r → Q v r) (h : Spells write P s vs) :
    Spells write Q s vs := by
  induction h with
  | nil => exact .nil
  | code c _ ih => exact .code c ih
  | literal v hv _ ih => exact .literal v (hPQ v _ hv) ih

/-- A text that does not begin with a quote. -/
def Unquoted (s : List Char) : Prop := s.head? ≠ some '\''

instance (s : List Char) : Decidable (Unquoted s) := inferInstanceAs (Decidable (_ ≠ _))

/-- A text in which no quote stands behind a literal. -/
def Spelled (write : String → String) (s : String) (vs : List String) : Prop :=
  Spells write (fun _ r => Unquoted r) s.toList vs

/-! ## Single texts -/

section Single

variable {write : String → String} {vs ws : List String}

theorem unquoted_append {s : List Char} (hne : s ≠ []) (hs : Unquoted s) (t : List Char) :
    Unquoted (s ++ t) := by
  cases s with
  | nil => exact absurd rfl hne
  | cons c s => exact hs

namespace Spells

variable {P : String → List Char → Prop} {s t : List Char}

theorem code_append (a : List Char) (h : Spells write P s vs) : Spells write P (a ++ s) vs := by
  induction a with
  | nil => exact h
  | cons c _ ih => exact .code c ih

theorem append (hs : Spells write (fun _ r => Unquoted r) s vs)
    (ht : Spells write (fun _ r => Unquoted r) t ws) (hhead : Unquoted t) :
    Spells write (fun _ r => Unquoted r) (s ++ t) (vs ++ ws) := by
  induction hs with
  | nil => exact ht
  | code c _ ih => exact .code c ih
  | @literal v s vs hv _ ih =>
    rw [List.append_assoc]
    refine .literal v ?_ ih
    cases s with
    | nil => exact hhead
    | cons c s => exact hv

end Spells

namespace Spelled

variable {s t : String}

theorem of_code (s : String) : Spelled write s [] := by
  have h : Spells write (fun _ r => Unquoted r) (s.toList ++ []) [] := .code_append s.toList .nil
  rwa [List.append_nil] at h

theorem of_literal (v : String) : Spelled write (write v) [v] := by
  have h : Spells write (fun _ r => Unquoted r) ((write v).toList ++ []) [v] :=
    .literal v (by decide) .nil
  rwa [List.append_nil] at h

theorem code_append (a : String) (h : Spelled write s vs) : Spelled write (a ++ s) vs := by
  unfold Spelled
  rw [String.toList_append]
  exact Spells.code_append a.toList h

theorem append (hs : Spelled write s vs) (ht : Spelled write t ws) (hhead : Unquoted t.toList) :
    Spelled write (s ++ t) (vs ++ ws) := by
  unfold Spelled
  rw [String.toList_append]
  exact Spells.append hs ht hhead

theorem append_code (hs : Spelled write s vs) (hhead : Unquoted t.toList) :
    Spelled write (s ++ t) vs := by
  simpa using hs.append (.of_code t) hhead

end Spelled

end Single

/-! ## Lists of texts -/

/-- Some texts, each of them spelled, with the literals of all. -/
inductive AllSpelled (write : String → String) : List String → List String → Prop
  | nil : AllSpelled write [] []
  | cons {s : String} {l vs ws : List String} (hs : Spelled write s vs)
    (hl : AllSpelled write l ws) : AllSpelled write (s :: l) (vs ++ ws)

namespace AllSpelled

variable {write : String → String} {l m vs ws : List String}

theorem of_code (l : List String) : AllSpelled write l [] := by
  induction l with
  | nil => exact .nil
  | cons s _ ih => exact .cons (.of_code s) ih

theorem singleton {s : String} (h : Spelled write s vs) : AllSpelled write [s] vs := by
  simpa using AllSpelled.cons h .nil

theorem append (hl : AllSpelled write l vs) (hm : AllSpelled write m ws) :
    AllSpelled write (l ++ m) (vs ++ ws) := by
  induction hl with
  | nil => exact hm
  | cons hs _ ih =>
    rw [List.append_assoc]
    exact .cons hs ih

theorem append_code (h : AllSpelled write l vs) (m : List String) :
    AllSpelled write (l ++ m) vs := by
  simpa using h.append (.of_code m)

theorem code_append (m : List String) (h : AllSpelled write l vs) : AllSpelled write (m ++ l) vs :=
  append (of_code m) h

theorem map {α : Type} {text : α → String} {values : α → List String} {xs : List α}
    (h : ∀ x ∈ xs, Spelled write (text x) (values x)) :
    AllSpelled write (xs.map text) (xs.flatMap values) := by
  induction xs with
  | nil => exact .nil
  | cons x xs ih =>
    obtain ⟨hx, hxs⟩ := List.forall_mem_cons.1 h
    exact .cons hx (ih hxs)

theorem map_code_append (a : String) (h : AllSpelled write l vs) :
    AllSpelled write (l.map (a ++ ·)) vs := by
  induction h with
  | nil => exact .nil
  | cons hs _ ih => exact .cons (hs.code_append a) ih

section Between

variable (sep : String) (hne : sep.toList ≠ []) (hsep : Unquoted sep.toList)

include hne hsep

/-- Texts in a row, with something between them. -/
theorem intercalate (h : AllSpelled write l vs) : Spelled write (sep.intercalate l) vs := by
  induction h with
  | nil => exact .nil
  | @cons s l vs ws hs hl ih =>
    cases hl with
    | nil => simpa using hs
    | @cons t l _ _ ht hl =>
      have hrow : sep.intercalate (s :: t :: l) = s ++ (sep ++ sep.intercalate (t :: l)) := by
        rw [String.intercalate_cons_cons, String.append_assoc]
      rw [hrow]
      exact hs.append (ih.code_append sep) (String.toList_append ▸ unquoted_append hne hsep _)

/-- Texts one behind the other, each with something behind it. -/
theorem join_ending (h : AllSpelled write l vs) :
    Spelled write (String.join (l.map (· ++ sep))) vs := by
  induction h with
  | nil => exact .nil
  | @cons s l vs ws hs _ ih =>
    rw [List.map_cons, String.join_cons, String.append_assoc]
    exact hs.append (ih.code_append sep) (String.toList_append ▸ unquoted_append hne hsep _)

/-- Texts one behind the other, each with something before it. -/
theorem join_opening (h : AllSpelled write l vs) :
    Spelled write (String.join (l.map (sep ++ ·))) vs := by
  induction h with
  | nil => exact .nil
  | @cons s l vs ws hs hl ih =>
    rw [List.map_cons, String.join_cons]
    refine (hs.code_append sep).append ih ?_
    cases l with
    | nil => exact nofun
    | cons t l =>
      rw [List.map_cons, String.join_cons, String.append_assoc, String.toList_append]
      exact unquoted_append hne hsep _

end Between

end AllSpelled

end Schemata.Text
