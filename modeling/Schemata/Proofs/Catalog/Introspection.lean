import Schemata.Proofs.Catalog.Reading
import Schemata.Proofs.Connection.Session

/-!
# Introspection leaves no connection behind

Each call opens at most one connection and runs a tidy reading over it in a session. So whatever the
driver does, a call leaves the slots of the registry as they were, its connection and all its cursors
closed, and what the driver reported comes out in the words of the call (`connections_kept`).
-/

namespace Schemata.Catalog

open Registry

variable {C α : Type}

/-! ## What a call leaves -/

/-- A failure that a call met: connecting failed with it, or a query was answered with it. -/
def Met (r : Request C) (d d' : Desk C) (f : Failure) : Prop :=
  r.connected = .error f ∨
    ∃ used, d.wire.answers = used ++ d'.wire.answers ∧ ∃ a ∈ used, a.failure? = some f

/-- A call has left nothing behind, and its result says so of each failure that it met. -/
structure Settled (r : Request C) (d : Desk C) (outcome : Except Failure α × Desk C)
    (surfaced : Failure → Except Failure α → Prop) : Prop where
  /-- The same slots hold the same connections under the same generations. -/
  slots : ∀ i, outcome.2.registry.holding i = d.registry.holding i
  /-- The connection of the call was closed, once, and no other was. -/
  closed : outcome.2.registry.closed = d.registry.closed ++ r.connected.toOption.toList
  /-- The cursors that were given out were closed, each once. -/
  cursors : ∃ n, outcome.2.wire.cursors = d.wire.cursors + n ∧
    outcome.2.wire.closed = d.wire.closed ++ List.range' d.wire.cursors n
  surfaced : ∀ f, Met r d outcome.2 f → surfaced f outcome.1

/-- What a driver reported, or what is said to be a failure to read. -/
def Reported (f : Failure) : Prop := f.isReading = true ∨ f.driverText?.isSome = true

/-- A failure comes out in the words of a reading if a driver reported it, and else as it is; what was
reported is a failure to read then. -/
def Reworded (reword : String → Failure) (f : Failure) (x : Except Failure α) : Prop :=
  x = .error (f.whileDoing reword) ∧ (Reported f → (f.whileDoing reword).isReading = true)

/-- What was reported makes the test of a connection fail with its message. -/
def FailsTest (f : Failure) (x : Except Failure (Bool × String)) : Prop :=
  Reported f → x = .ok (false, f.message)

theorem isReading_whileDoing {reword : String → Failure}
    (hreword : ∀ text, (reword text).isReading = true) {f : Failure} (h : Reported f) :
    (f.whileDoing reword).isReading = true := by
  unfold Failure.whileDoing
  cases htext : f.driverText? with
  | some text => exact hreword text
  | none => exact h.resolve_right (by rw [htext]; decide)

section Sessions

variable {r : Request C} {d : Desk C} {log : List (Entry C)}

theorem settled_session (h : Good d.registry log) (database : Option String) {body : Reading α}
    (hbody : Tidy body) : Settled r d (session r database body d) fun f x => x = .error f := by
  unfold session
  rcases hconnected : r.connected with f | c
  · refine ⟨fun _ => rfl, ?_, ⟨0, rfl, (List.append_nil _).symm⟩, ?_⟩
    · rw [hconnected]
      exact (List.append_nil _).symm
    · rintro g (hg | ⟨used, hused, a, ha, -⟩)
      · rw [hconnected] at hg
        cases hg
        rfl
      · rw [List.self_eq_append_left.1 hused] at ha
        exact absurd ha List.not_mem_nil
  · have hserved := hbody d.wire
    have hleave := h.leave_enter c (r.settings.label database) r.now
    refine ⟨hleave.1, ?_, hserved.cursors, ?_⟩
    · rw [hconnected]
      exact hleave.2
    · rintro g (hg | ⟨used, hused, a, ha, hag⟩)
      · rw [hconnected] at hg
        cases hg
      · obtain ⟨used', hused', hfailure⟩ := hserved.answers
        obtain rfl : used = used' := List.append_cancel_right (hused.symm.trans hused')
        exact hfailure a ha g hag

theorem settled_reading {reader : Reader} (h : Good d.registry log)
    (hreader : Reader.of r.settings.dialect = .ok reader) (database : Option String)
    {reword : String → Failure} (hreword : ∀ text, (reword text).isReading = true)
    {body : Reader → Reading α} (hbody : Tidy (body reader)) :
    Settled r d (reading r database reword body d) (Reworded reword) := by
  have hsession := settled_session (r := r) h database hbody
  unfold reading
  rw [hreader]
  refine ⟨hsession.slots, hsession.closed, hsession.cursors, fun f hf => ⟨?_, ?_⟩⟩
  · show Except.mapError _ (session r database (body reader) d).1 = _
    rw [hsession.surfaced f hf]
    rfl
  · exact isReading_whileDoing hreword

theorem settled_testConnection {reader : Reader} (h : Good d.registry log)
    (hreader : Reader.of r.settings.dialect = .ok reader) (hversion : Tidy reader.version) :
    Settled r d (testConnection r d) FailsTest := by
  have hsession := settled_session (r := r) h none hversion
  unfold testConnection
  rw [hreader]
  refine ⟨hsession.slots, hsession.closed, hsession.cursors, fun f hf hreported => ?_⟩
  dsimp only
  rw [hsession.surfaced f hf]
  exact if_pos (Bool.or_eq_true_iff.2 hreported)

end Sessions

/-- Settings that suffice are of a dialect whose catalog can be read. -/
theorem exists_reader {s : ConnectionSettings} (h : s.flaw? = none) :
    ∃ reader, Reader.of s.dialect = .ok reader := by
  unfold ConnectionSettings.flaw? at h
  cases hdialect : s.dialect <;> rw [hdialect] at h
  · exact ⟨_, rfl⟩
  · exact ⟨_, rfl⟩
  · exact ⟨_, rfl⟩
  all_goals cases h

/-- In every reachable state of a registry, for all settings that suffice and whatever comes of
connecting, of the queries and of closing, every call leaves the slots as they were and nothing open,
and says what the driver reported. -/
theorem connections_kept (idleTimeout : Rat) (events : List (Event C)) (d : Desk C)
    (hd : d.registry = Registry.run { idleTimeout } events) (r : Request C)
    (hr : r.settings.flaw? = none) :
    (∀ asked chosen, Settled r d (introspect r asked chosen d)
        (Reworded (.unread (r.database asked)))) ∧
      (∀ asked, Settled r d (listTables r asked d)
        (Reworded (.unlistedTables (r.database asked)))) ∧
      Settled r d (listDatabases r d) (Reworded .unlistedDatabases) ∧
      Settled r d (testConnection r d) FailsTest := by
  have hgood := (good_empty idleTimeout).run events
  rw [← hd] at hgood
  obtain ⟨reader, hreader⟩ := exists_reader hr
  have htidy := Reader.isTidy_of hreader
  refine ⟨fun asked chosen => ?_, fun asked => ?_, ?_, ?_⟩
  · exact settled_reading hgood hreader _ (fun _ => rfl) (htidy.readRows _ chosen)
  · exact settled_reading hgood hreader _ (fun _ => rfl) (htidy.tables _)
  · exact settled_reading hgood hreader _ (fun _ => rfl) htidy.databases
  · exact settled_testConnection hgood hreader htidy.version

/-- The second connection of a registry: its first query fails, and so does closing it. -/
theorem connections_kept_shop :
    let d : Desk Nat := {
      registry := Registry.run { idleTimeout := 60 } [.add (.ok 0) "sqlite:a.db" 1]
      wire := {
        answers := [.failure (.driver .sqlite "disk I/O error")]
        closing := .error (.driver .sqlite "busy") } }
    let r : Request Nat := ⟨{ dialect := .sqlite, path := some "shop.db" }, .ok 1, 2⟩
    r.settings.flaw? = none ∧
      (listTables r none d).1 = .error (.unlistedTables "main" "disk I/O error") ∧
      (listTables r none d).2.registry.holding 0 = some (0, ⟨0, "sqlite:a.db", 1, 0⟩) ∧
      (listTables r none d).2.registry.holding 1 = none ∧
      (listTables r none d).2.registry.closed = [1] := by
  intro d r
  have hflaw : r.settings.flaw? = none := by decide
  have h := (connections_kept 60 [.add (.ok 0) "sqlite:a.db" 1] d rfl r hflaw).2.1 none
  have hmet : Met r d (listTables r none d).2 (.driver .sqlite "disk I/O error") :=
    .inr ⟨[_], rfl, _, List.mem_singleton_self _, rfl⟩
  exact ⟨hflaw, (h.surfaced _ hmet).1, h.slots 0, h.slots 1, h.closed⟩

end Schemata.Catalog
