import Mathlib.Tactic.Common
import Schemata.Code.Sql.Statement
import Schemata.Proofs.Text.Literal
import Schemata.Proofs.Text.Spelled

/-!
# Identifiers as tokens

A quoted identifier is read from its opening mark: a doubled closing mark stands for one of it, and a
single one ends the token. What is read as a name, with some text behind it, is the name in its quotes
before that text, and nothing else is (`readIdentifier?_eq_some_iff`), so different names have different
tokens. In SQL Server a statement asks for the id of an object by a literal with a quoted identifier in
it: undoing first the literal and then the identifier gives the name of the object.
-/

namespace Schemata

open Text

/-! ## Reading up to a mark -/

namespace Text

/-- Reads from behind an opening mark: what stands before the closing mark `q`, and what stands behind
it. A doubled mark stands for one, and a single one closes. -/
def readDoubled? (q : Char) : List Char → Option (List Char × List Char)
  | [] => none
  | [c] => if c = q then some ([], []) else none
  | c :: d :: r =>
    if c = q then
      if d = q then (readDoubled? q r).map fun x => (q :: x.1, x.2) else some ([], d :: r)
    else (readDoubled? q (d :: r)).map fun x => (c :: x.1, x.2)

/-- Reads what is enclosed in two marks, and what stands behind it. -/
def readEnclosed? (opening closing : Char) : List Char → Option (List Char × List Char)
  | [] => none
  | c :: r => if c = opening then readDoubled? closing r else none

variable {q c : Char} {s t r : List Char}

theorem readDoubled?_mark (q : Char) (r : List Char) :
    readDoubled? q (q :: q :: r) = (readDoubled? q r).map fun x => (q :: x.1, x.2) := by
  rw [readDoubled?, if_pos rfl, if_pos rfl]

theorem readDoubled?_close (hr : r.head? ≠ some q) : readDoubled? q (q :: r) = some ([], r) := by
  cases r with
  | nil => rw [readDoubled?, if_pos rfl]
  | cons d r =>
    have hd : d ≠ q := fun h => hr (congrArg some h)
    rw [readDoubled?, if_pos rfl, if_neg hd]

theorem readDoubled?_cons (hc : c ≠ q) (r : List Char) :
    readDoubled? q (c :: r) = (readDoubled? q r).map fun x => (c :: x.1, x.2) := by
  cases r with
  | nil => rw [readDoubled?, readDoubled?, if_neg hc]; rfl
  | cons d r => rw [readDoubled?, if_neg hc]

/-- A text is read as `s` and the rest `r` exactly if it is `s` with its marks doubled, the mark that
closes it, and `r`, which does not begin with another mark. -/
theorem readDoubled?_eq_some_iff :
    readDoubled? q t = some (s, r) ↔ t = double q s ++ q :: r ∧ r.head? ≠ some q := by
  constructor
  · intro h
    induction t using readDoubled?.induct q generalizing s with
    | case1 => cases h
    | case2 =>
      rw [readDoubled?, if_pos rfl] at h
      cases h
      exact ⟨rfl, nofun⟩
    | case3 c hc =>
      rw [readDoubled?, if_neg hc] at h
      cases h
    | case4 t ih =>
      rw [readDoubled?_mark, Option.map_eq_some_iff] at h
      obtain ⟨⟨s', r'⟩, h, heq⟩ := h
      cases heq
      obtain ⟨rfl, hr⟩ := ih h
      exact ⟨by rw [double_cons_self]; rfl, hr⟩
    | case5 d t hd =>
      have hclose : (d :: t).head? ≠ some q := fun h => hd (Option.some.inj h)
      rw [readDoubled?_close hclose] at h
      cases h
      exact ⟨rfl, hclose⟩
    | case6 c d t hc ih =>
      rw [readDoubled?_cons hc, Option.map_eq_some_iff] at h
      obtain ⟨⟨s', r'⟩, h, heq⟩ := h
      cases heq
      obtain ⟨heq, hr⟩ := ih h
      exact ⟨by rw [heq, double_cons_of_ne hc]; rfl, hr⟩
  · rintro ⟨rfl, hr⟩
    induction s with
    | nil => exact readDoubled?_close hr
    | cons c s ih =>
      by_cases hc : c = q
      · rw [hc, double_cons_self, List.cons_append, List.cons_append, readDoubled?_mark, ih]
        rfl
      · rw [double_cons_of_ne hc, List.cons_append, readDoubled?_cons hc, ih]
        rfl

theorem readEnclosed?_eq_some_iff {opening : Char} : readEnclosed? opening q t = some (s, r) ↔
    t = enclose opening q (double q s) ++ r ∧ r.head? ≠ some q := by
  have henclose : enclose opening q (double q s) ++ r = opening :: (double q s ++ q :: r) := by
    simp [enclose]
  rw [henclose]
  cases t with
  | nil => simp [readEnclosed?]
  | cons c t =>
    rw [readEnclosed?, List.cons.injEq]
    split_ifs with hc
    · rw [readDoubled?_eq_some_iff, and_assoc, and_iff_right hc]
    · simp [hc]

end Text

/-! ## Identifiers -/

namespace Naming

/-- Reads the name in a quoted identifier of the dialect with some name, and what stands behind it. -/
def readIdentifier? (dialect : String) : List Char → Option (List Char × List Char) :=
  readEnclosed? (marks dialect).1 (marks dialect).2

variable {dialect name : String} {t r : List Char}

theorem toList_quoteFor : (quoteFor dialect name).toList =
    enclose (marks dialect).1 (marks dialect).2 (double (marks dialect).2 name.toList) :=
  String.toList_ofList

theorem readIdentifier?_eq_some_iff : readIdentifier? dialect t = some (name.toList, r) ↔
    t = (quoteFor dialect name).toList ++ r ∧ r.head? ≠ some (marks dialect).2 := by
  rw [toList_quoteFor]
  exact readEnclosed?_eq_some_iff

theorem readIdentifier?_quoteFor (hr : r.head? ≠ some (marks dialect).2) :
    readIdentifier? dialect ((quoteFor dialect name).toList ++ r) = some (name.toList, r) :=
  readIdentifier?_eq_some_iff.2 ⟨rfl, hr⟩

theorem quoteFor_injective (dialect : String) : Function.Injective (quoteFor dialect) := by
  intro a b h
  have ha : readIdentifier? dialect ((quoteFor dialect a).toList ++ []) = some (a.toList, []) :=
    readIdentifier?_quoteFor nofun
  have hb : readIdentifier? dialect ((quoteFor dialect b).toList ++ []) = some (b.toList, []) :=
    readIdentifier?_quoteFor nofun
  rw [h, hb] at ha
  exact String.toList_inj.1 (congrArg Prod.fst (Option.some.inj ha)).symm

end Naming

/-! ## Objects that statements look for -/

namespace Code.Sql

open Naming

/-- Reads the name of an object: a literal, and in it a quoted identifier up to its end. -/
def readObject? : List Char → Option (List Char × List Char)
  | 'N' :: t => do
    let (inside, r) ← readLiteral? doubledPair? t
    let (name, []) ← readIdentifier? Dialect.mssql.name inside | none
    return (name, r)
  | _ => none

theorem readObject?_objectLiteral (name : String) {r : List Char} (hr : Unquoted r) :
    readObject? ((objectLiteral .mssql name).toList ++ r) = some (name.toList, r) := by
  have hliteral : readLiteral? doubledPair? ((literal (quoted .mssql name)).toList ++ r) =
      some ((quoted .mssql name).toList, r) := by
    rw [literal, String.toList_ofList]
    exact readLiteral?_quoteDoubled _ hr
  have htoken : readIdentifier? Dialect.mssql.name (quoted .mssql name).toList =
      some (name.toList, []) :=
    readIdentifier?_eq_some_iff.2 ⟨(List.append_nil _).symm, nofun⟩
  rw [objectLiteral, String.toList_append]
  show (readLiteral? doubledPair? ((literal (quoted .mssql name)).toList ++ r) >>= _) = _
  rw [hliteral]
  show (readIdentifier? Dialect.mssql.name (quoted .mssql name).toList >>= _) = _
  rw [htoken]
  rfl

/-- What a guarded statement for SQL Server begins with, up to the object whose id it asks for, and
the name of that object. -/
def Statement.guard? : Statement → Option (String × String)
  | createTable _ name _ _ => some ("IF OBJECT_ID(", name)
  | createIndex _ name table _ => some
    ("IF NOT EXISTS (SELECT 1 FROM sys.indexes WHERE name = N" ++ literal name ++
      " AND object_id = OBJECT_ID(", table)
  | addForeignKey _ key => some ("IF OBJECT_ID(", key.name)
  | dropForeignKey _ name => some ("IF OBJECT_ID(", name)
  | dropTable true name => some ("IF OBJECT_ID(", name)
  | _ => none

/-- A text that begins with a guard begins with the function and the name of the object. -/
theorem exists_of_eq_objectGuard {text name type s : String} {isThere : Bool}
    (h : text = Statement.objectGuard name type isThere ++ s) :
    ∃ r : String, Unquoted r.toList ∧
      text = "IF OBJECT_ID(" ++ objectLiteral .mssql name ++ r := by
  subst h
  refine ⟨", N'" ++ (type ++ ("') IS " ++ ((if isThere then "NOT NULL" else "NULL") ++ ("\n" ++ s)))),
    ?_, ?_⟩
  · rw [String.toList_append]
    exact unquoted_append (by decide) (by decide) _
  · unfold Statement.objectGuard
    simp only [String.append_assoc]

theorem exists_createTableText (guarded : Bool) (name : String) (clauses : List Clause)
    (storage : Option Storage) : ∃ s, Statement.createTableText .mssql guarded name clauses storage =
      Statement.objectGuard name "U" false ++ s := by
  unfold Statement.createTableText
  simp only [String.append_assoc]
  exact ⟨_, rfl⟩

theorem exists_addForeignKeyText (table : String) (key : KeyDef) :
    ∃ s, Statement.addForeignKeyText .mssql table key =
      Statement.objectGuard key.name "F" false ++ s := by
  unfold Statement.addForeignKeyText
  simp only [String.append_assoc]
  exact ⟨_, rfl⟩

theorem exists_dropForeignKeyText (table name : String) :
    ∃ s, Statement.dropForeignKeyText .mssql table name =
      Statement.objectGuard name "F" true ++ s := by
  unfold Statement.dropForeignKeyText
  simp only [String.append_assoc]
  exact ⟨_, rfl⟩

theorem exists_dropTableText (name : String) :
    ∃ s, Statement.dropTableText .mssql true name =
      Statement.objectGuard name "U" true ++ s := by
  unfold Statement.dropTableText
  simp only [if_true, String.append_assoc]
  exact ⟨_, rfl⟩

theorem exists_createIndexText (unique : Bool) (name table : String) (columns : List String) :
    ∃ r : String, Unquoted r.toList ∧ Statement.createIndexText .mssql unique name table columns =
      "IF NOT EXISTS (SELECT 1 FROM sys.indexes WHERE name = N" ++ literal name ++
        " AND object_id = OBJECT_ID(" ++ objectLiteral .mssql table ++ r := by
  refine ⟨"))\n    " ++ ((if unique then "CREATE UNIQUE INDEX " else "CREATE INDEX ") ++
    (quoted .mssql name ++ (" ON " ++ quoted .mssql table ++ " (" ++ quotedNames .mssql columns ++
      ");"))), ?_, ?_⟩
  · rw [String.toList_append]
    exact unquoted_append (by decide) (by decide) _
  · unfold Statement.createIndexText
    simp only [String.append_assoc]

/-- A statement with a guard names the object right behind the function that looks for it. -/
theorem exists_text_of_guard {st : Statement} {before name : String}
    (h : st.guard? = some (before, name)) :
    ∃ r : String, Unquoted r.toList ∧
      st.text .mssql = before ++ objectLiteral .mssql name ++ r := by
  cases st with
  | createTable guarded name' clauses storage =>
    obtain ⟨rfl, rfl⟩ := Prod.mk.inj (Option.some.inj h)
    obtain ⟨s, hs⟩ := exists_createTableText guarded name' clauses storage
    exact exists_of_eq_objectGuard hs
  | createIndex unique name' table columns =>
    obtain ⟨rfl, rfl⟩ := Prod.mk.inj (Option.some.inj h)
    exact exists_createIndexText unique name' table columns
  | addForeignKey table key =>
    obtain ⟨rfl, rfl⟩ := Prod.mk.inj (Option.some.inj h)
    obtain ⟨s, hs⟩ := exists_addForeignKeyText table key
    exact exists_of_eq_objectGuard hs
  | dropForeignKey table name' =>
    obtain ⟨rfl, rfl⟩ := Prod.mk.inj (Option.some.inj h)
    obtain ⟨s, hs⟩ := exists_dropForeignKeyText table name'
    exact exists_of_eq_objectGuard hs
  | dropTable guarded name' =>
    cases guarded with
    | false => cases h
    | true =>
      obtain ⟨rfl, rfl⟩ := Prod.mk.inj (Option.some.inj h)
      obtain ⟨s, hs⟩ := exists_dropTableText name'
      exact exists_of_eq_objectGuard hs
  | remark | describeTable | describeColumn | renameTable | copyRows | checkKeys | begin | commit =>
    cases h

/-- The guard of a statement asks for the id of an object, and what it asks with ends there. -/
theorem objectId_suffix_of_guard {st : Statement} {before name : String}
    (h : st.guard? = some (before, name)) : "OBJECT_ID(".toList <:+ before.toList := by
  cases st with
  | createTable | addForeignKey | dropForeignKey =>
    obtain ⟨rfl, -⟩ := Prod.mk.inj (Option.some.inj h)
    decide +kernel
  | createIndex unique name' table columns =>
    obtain ⟨rfl, -⟩ := Prod.mk.inj (Option.some.inj h)
    have hmark : "OBJECT_ID(".toList <:+ " AND object_id = OBJECT_ID(".toList := by decide +kernel
    rw [String.toList_append]
    exact hmark.trans (List.suffix_append _ _)
  | dropTable guarded name' =>
    cases guarded with
    | false => cases h
    | true =>
      obtain ⟨rfl, -⟩ := Prod.mk.inj (Option.some.inj h)
      decide +kernel
  | remark | describeTable | describeColumn | renameTable | copyRows | checkKeys | begin | commit =>
    cases h

/-- A quoted identifier is one token in every dialect: what is read as a name with some text behind it
is the name in its quotes before a text that the token cannot swallow, so different names have
different tokens. In SQL Server, what a guard asks for is read as the name of its object. -/
theorem identifiers_read :
    (∀ (dialect name : String) (t r : List Char),
      readIdentifier? dialect t = some (name.toList, r) ↔
        t = (quoteFor dialect name).toList ++ r ∧ r.head? ≠ some (marks dialect).2) ∧
    (∀ dialect, Function.Injective (quoteFor dialect)) ∧
    ∀ (st : Statement) (before name : String), st.guard? = some (before, name) →
      "OBJECT_ID(".toList <:+ before.toList ∧
      ∃ t r, (st.text .mssql).toList = before.toList ++ t ∧ readObject? t = some (name.toList, r) := by
  refine ⟨fun dialect name t r => readIdentifier?_eq_some_iff, quoteFor_injective,
    fun st before name h => ⟨objectId_suffix_of_guard h, ?_⟩⟩
  obtain ⟨r, hr, htext⟩ := exists_text_of_guard h
  refine ⟨(objectLiteral .mssql name).toList ++ r.toList, r.toList, ?_,
    readObject?_objectLiteral name hr⟩
  rw [htext, String.toList_append, String.toList_append, List.append_assoc]

/-- The guard of a table whose name has marks of its own in it. -/
theorem identifiers_read_bracketed :
    (Statement.dropTable true "it's [a]").guard? = some ("IF OBJECT_ID(", "it's [a]") ∧
      ∃ t r, ((Statement.dropTable true "it's [a]").text .mssql).toList =
          "IF OBJECT_ID(".toList ++ t ∧
        readObject? t = some ("it's [a]".toList, r) :=
  ⟨rfl, (identifiers_read.2.2 (.dropTable true "it's [a]") "IF OBJECT_ID(" "it's [a]" rfl).2⟩

example : quoteFor "mssql" "it's [a]" = "[it's [a]]]" ∧
    objectLiteral .mssql "it's [a]" = "N'[it''s [a]]]'" := by decide +kernel

end Code.Sql

end Schemata
