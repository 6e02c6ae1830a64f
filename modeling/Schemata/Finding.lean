import Schemata.Fault

/-!
# Findings

Warnings and suggestions about a schema. They never stop a conversion: an `Advised` computation
collects them in order and keeps those made before a fault.
-/

namespace Schemata

/-- How much a finding matters. -/
inductive Severity
  | warning
  | suggestion
  deriving DecidableEq, Repr

namespace Severity

def name : Severity → String
  | warning => "warning"
  | suggestion => "suggestion"

def ofName (s : String) : Except Fault Severity :=
  if s = "warning" then .ok warning
  else if s = "suggestion" then .ok suggestion
  else .error (.unknownSeverity s)

end Severity

/-- A remark about a schema, with the table and the field it is about. -/
structure Finding where
  severity : Severity
  code : String
  message : String
  table : Option String := none
  field : Option String := none
  deriving DecidableEq

namespace Finding

def warning (code message : String) (table field : Option String := none) : Finding :=
  ⟨.warning, code, message, table, field⟩

def suggestion (code message : String) (table field : Option String := none) : Finding :=
  ⟨.suggestion, code, message, table, field⟩

def text (f : Finding) : String := "[" ++ f.severity.name ++ "] " ++ f.code ++ ": " ++ f.message

end Finding

def ofSeverity (s : Severity) (findings : List Finding) : List Finding :=
  findings.filter (·.severity = s)

def withCode (code : String) (findings : List Finding) : List Finding :=
  findings.filter (·.code = code)

/-! ## Computations with findings -/

/-- A value with the findings made on the way to it. -/
structure Noted (α : Type) where
  findings : List Finding
  value : α

namespace Noted

instance : Monad Noted where
  pure a := ⟨[], a⟩
  bind x f := ⟨x.findings ++ (f x.value).findings, (f x.value).value⟩

def note (f : Finding) : Noted Unit := ⟨[f], ()⟩

def noteIf (c : Prop) [Decidable c] (f : Finding) : Noted Unit := if c then note f else pure ()

@[simp] theorem findings_pure {α : Type} (a : α) : (pure a : Noted α).findings = [] := rfl

@[simp] theorem value_pure {α : Type} (a : α) : (pure a : Noted α).value = a := rfl

@[simp] theorem findings_bind {α β : Type} (x : Noted α) (f : α → Noted β) :
    (x >>= f).findings = x.findings ++ (f x.value).findings := rfl

@[simp] theorem value_bind {α β : Type} (x : Noted α) (f : α → Noted β) :
    (x >>= f).value = (f x.value).value := rfl

instance : LawfulMonad Noted := LawfulMonad.mk' Noted
  (fun x => by cases x; simp [Functor.map])
  (fun a f => by simp [pure, bind])
  (fun x f g => by simp [bind, List.append_assoc])

end Noted

/-- A computation that may fail, with the findings made until then. -/
structure Advised (α : Type) where
  findings : List Finding
  outcome : Except Fault α

namespace Advised

instance : Monad Advised where
  pure a := ⟨[], .ok a⟩
  bind x f :=
    match x.outcome with
    | .error e => ⟨x.findings, .error e⟩
    | .ok a => ⟨x.findings ++ (f a).findings, (f a).outcome⟩

/-- Fails without a finding. -/
def fail {α : Type} (e : Fault) : Advised α := ⟨[], .error e⟩

def note (f : Finding) : Advised Unit := ⟨[f], .ok ()⟩

def noteIf (c : Prop) [Decidable c] (f : Finding) : Advised Unit := if c then note f else pure ()

/-- A result without findings. -/
def ofExcept {α : Type} (x : Except Fault α) : Advised α := ⟨[], x⟩

/-- A computation that cannot fail. -/
def ofNoted {α : Type} (x : Noted α) : Advised α := ⟨x.findings, .ok x.value⟩

instance : MonadLift Noted Advised := ⟨ofNoted⟩

instance : MonadLift (Except Fault) Advised := ⟨ofExcept⟩

def mapFault {α : Type} (g : Fault → Fault) (x : Advised α) : Advised α :=
  ⟨x.findings, x.outcome.mapError g⟩

theorem bind_of_ok {α β : Type} {x : Advised α} {a : α} (h : x.outcome = .ok a)
    (f : α → Advised β) : (x >>= f) = ⟨x.findings ++ (f a).findings, (f a).outcome⟩ := by
  simp [bind, h]

theorem bind_of_error {α β : Type} {x : Advised α} {e : Fault} (h : x.outcome = .error e)
    (f : α → Advised β) : (x >>= f) = ⟨x.findings, .error e⟩ := by
  simp [bind, h]

instance : LawfulMonad Advised := LawfulMonad.mk' Advised
  (fun x => by
    obtain ⟨findings, outcome⟩ := x
    cases outcome with
    | error e => rfl
    | ok a => simp [Functor.map])
  (fun a f => by simp [pure, bind])
  (fun x f g => by
    obtain ⟨findings, outcome⟩ := x
    cases outcome with
    | error e => rfl
    | ok a =>
      simp only [bind]
      cases h : (f a).outcome <;> simp)

/-- A bind succeeds exactly when both parts do. -/
theorem outcome_bind_eq_ok {α β : Type} {x : Advised α} {f : α → Advised β} {b : β} :
    (x >>= f).outcome = .ok b ↔ ∃ a, x.outcome = .ok a ∧ (f a).outcome = .ok b := by
  cases h : x.outcome with
  | error e => simp [bind_of_error h]
  | ok a => simp [bind_of_ok h]

end Advised

end Schemata
