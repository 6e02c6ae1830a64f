import Schemata.Notation.Comment
import Schemata.Notation.Lexeme
import Schemata.Text.Lines

/-!
# Settings

The list in brackets behind a table, a field, an index or a reference, such as
`pk, default: 'a, b'`. Commas inside quotes or brackets belong to their item.
-/

namespace Schemata.Notation

open Text

/-- Splits at the commas outside quotes and at the outermost depth of brackets. -/
def settingPieces : (quote : Option Char) → (depth : Int) → List Char → List (List Char)
  | _, _, [] => [[]]
  | some _, _, ['\\'] => [['\\']]
  | some q, depth, '\\' :: c :: r => consHead '\\' (consHead c (settingPieces (some q) depth r))
  | some q, depth, c :: r =>
    consHead c (settingPieces (if c = q then none else some q) depth r)
  | none, depth, c :: r =>
    if isQuote c then consHead c (settingPieces (some c) depth r)
    else if c = '(' ∨ c = '[' then consHead c (settingPieces none (depth + 1) r)
    else if c = ')' ∨ c = ']' then consHead c (settingPieces none (depth - 1) r)
    else if c = ',' ∧ depth = 0 then [] :: settingPieces none depth r
    else consHead c (settingPieces none depth r)

/-- The items of a list of settings, empty ones left out. -/
def splitSettings (s : List Char) : List (List Char) :=
  ((settingPieces none 0 s).map strip).filter (!·.isEmpty)

/-- The key of a setting in lower case with single spaces, and its value behind the first colon. -/
def splitSetting (s : List Char) : String × Option (List Char) :=
  let key := String.ofList (squeeze (lower (s.takeWhile (· ≠ ':'))))
  match s.dropWhile (· ≠ ':') with
  | _ :: value => (key, some (strip value))
  | [] => (key, none)

/-- The value of a setting, if it is not empty. -/
def nonempty? (value : Option (List Char)) : Option (List Char) := value.filter (!·.isEmpty)

end Schemata.Notation
