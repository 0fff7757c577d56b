import Cadence.Proofs.InterleavedRuns
import Cadence.Proofs.RecordedRuns

/-!
# Writes that are refused

The database may refuse any of the writes that record a run: its row, any of its events, and how it ended. The log
answers with a failure then, and what it keeps outside of the tables goes on as if the write had been made.
Whatever is refused, the log writes to its own tables only.
-/

namespace Cadence

open Workflow Storage

namespace Storage

/-- A write of a run: its row, an event under its number, or how it ended. -/
inductive RunWrite where
  | start
  | event (number : Nat)
  | finish

/-- How a write is refused: since the row is there already, or in any other way. -/
inductive Refusal where
  | conflict
  | other

/-- Which writes of a run are refused, and how. -/
abbrev Refusals := RunWrite → Option Refusal

namespace RunLog

variable (refusals : Refusals) {db : Database} {id : String} {sh : Share}

def startUnless (s : RunStart) (now : Instant) : Task Database Unit :=
  match refusals .start with
  | none => start s now
  | some .conflict => throw (.failure (.executionConflict (.str s.executionId) now))
  | some .other => throw (runRefused "create" "start_run" s.executionId now)

theorem startUnless_none {refusals : Refusals} (h : refusals .start = none) :
    startUnless refusals = start := by
  unfold startUnless
  rw [h]

theorem startUnless_some {refusals : Refusals} {refusal : Refusal} (h : refusals .start = some refusal)
    (s : RunStart) (now : Instant) : ∃ f, startUnless refusals s now = throw f := by
  unfold startUnless
  rw [h]
  cases refusal with
  | conflict => exact ⟨_, rfl⟩
  | other => exact ⟨_, rfl⟩

/-- Records an event, unless that is refused. The number is used up in either case. -/
def recordUnless (executionId : String) (level : EventLevel) (eventType : String) (payload : Members)
    (now : Instant) : Task Database Nat := do
  match refusals (.event (nextSequence executionId (← get).sequences).1) with
  | none => record executionId level eventType payload now
  | some _ =>
    modify (·.useUp executionId)
    throw (refused ("Failed to record event " ++ eventType ++ " for " ++ executionId) "record_event"
      "execution_events" now)

/-- Records how a run ended, unless that is refused. The counter is forgotten in either case. -/
def finishUnless (executionId : String) (e : RunEnd) (now : Instant) : Task Database Unit :=
  match refusals .finish with
  | none => finish executionId e now
  | some _ => do
    modify (·.forget executionId)
    throw (runRefused "finalize" "finalize_run" executionId now)

theorem runOn_recordUnless (level : EventLevel) (type : String) (payload : Members) (now : Instant) :
    (recordUnless refusals id level type payload now).runOn db =
      match refusals (.event (nextSequence id db.sequences).1) with
      | none => (record id level type payload now).runOn db
      | some _ => (.error (refused ("Failed to record event " ++ type ++ " for " ++ id) "record_event"
          "execution_events" now), db.useUp id) := by
  unfold recordUnless
  rw [Task.runOn_bind_ok (Task.runOn_get db)]
  cases refusals (.event (nextSequence id db.sequences).1) <;> rfl

theorem finish_dropped (e : RunEnd) (now : Instant) (ht : db.tables = none) :
    (finish id e now).runOn db = (.error (runRefused "finalize" "finalize_run" id now), db.forget id) := by
  unfold finish
  rw [Task.runOn_bind_ok (Task.runOn_modify ..), Task.runOn_bind, runOn_tablesOr]
  simp only [ht, Database.forget]

/-- An event is refused with a failure, or with a fault of its node. -/
theorem record_fault {level : EventLevel} {type : String} {payload : Members} {now : Instant} {fault : Fault}
    (h : ((recordUnless refusals id level type payload now).runOn db).1 = .error fault) :
    (∃ f, fault = .failure f) ∨ namedNode? payload = none ∧ fault = .integerTooWide := by
  rw [runOn_recordUnless] at h
  cases hrefusal : refusals (.event (nextSequence id db.sequences).1) with
  | some _ =>
    rw [hrefusal] at h
    cases h
    exact .inl ⟨_, rfl⟩
  | none =>
    rw [hrefusal] at h
    dsimp only at h
    rcases ht : db.tables with _ | t
    · unfold record at h
      rw [Task.runOn_bind_ok (Task.runOn_get db), Task.runOn_bind_ok (Task.runOn_modify ..),
        Task.runOn_bind, runOn_tablesOr] at h
      simp only [ht] at h
      cases h
      exact .inl ⟨_, rfl⟩
    · rw [runOn_record ht] at h
      cases hnode : namedNode? payload with
      | some node =>
        rw [hnode] at h
        cases h
      | none =>
        rw [hnode] at h
        cases h
        unfold recordRefusal
        cases Cell.ofJson ((Members.get? payload "nodeId").getD .null) with
        | tooWide => exact .inr ⟨rfl, rfl⟩
        | _ => exact .inl ⟨_, rfl⟩

theorem recordUnless_keeps (P : Share → Prop) (level : EventLevel) (type : String) (payload : Members)
    (now : Instant) (hnoted : ∀ sh node, P sh →
      P (sh.noted ⟨id, sh.last + 1, level, type, node, payload, now⟩))
    (hskipped : ∀ sh, P sh → P sh.skipped) (hsh : db.share id = some sh) (hp : P sh) :
    ∃ sh', ((recordUnless refusals id level type payload now).runOn db).2.share id = some sh' ∧ P sh' := by
  rw [runOn_recordUnless]
  cases refusals (.event (nextSequence id db.sequences).1) with
  | some _ => exact ⟨sh.skipped, Database.useUp_share hsh, hskipped sh hp⟩
  | none =>
    cases hnode : namedNode? payload with
    | none => exact ⟨sh.skipped, (record_skipped level type now hsh hnode).2, hskipped sh hp⟩
    | some node => exact ⟨_, (record_noted level type now hsh hnode).2, hnoted sh node hp⟩

theorem finish_failure (db : Database) (e : RunEnd) (now : Instant) {fault : Fault}
    (h : ((finishUnless refusals id e now).runOn db).1 = .error fault) : ∃ f, fault = .failure f := by
  unfold finishUnless at h
  cases hrefusal : refusals .finish with
  | some _ =>
    rw [hrefusal] at h
    cases h
    exact ⟨_, rfl⟩
  | none =>
    rw [hrefusal] at h
    rcases ht : db.tables with _ | t
    · rw [finish_dropped e now ht] at h
      cases h
      exact ⟨_, rfl⟩
    · rw [runOn_finish ht] at h
      split at h <;> cases h
      exact ⟨_, rfl⟩

/-- Once it is recorded how a run ended, the record of the run says so. -/
theorem finish_durable {e : RunEnd} {now : Instant} (h : ((finish id e now).runOn db).1 = .ok ())
    (later : Instant) :
    ∃ record, (load id later).runOn ((finish id e now).runOn db).2 =
        (.ok record, ((finish id e now).runOn db).2) ∧
      record.row.status = e.status ∧
      record.row.actionsExecuted = e.actionsExecuted ∧
      record.row.completedAt = some now := by
  cases hsh : db.share id with
  | none =>
    have htables : db.tables = none := Option.map_eq_none_iff.mp hsh
    rw [finish_dropped e now htables] at h
    cases h
  | some sh =>
    obtain ⟨rows, events, last⟩ := sh
    cases rows with
    | nil =>
      rw [(finish_unrecorded e now hsh rfl).1] at h
      cases h
    | cons row rest =>
      obtain ⟨-, hended⟩ := finish_recorded e now hsh (List.cons_ne_nil row rest)
      exact ⟨_, load_share later hended, rfl, rfl, rfl⟩

end RunLog

/-- What is left of the tables without the log of runs. -/
def Tables.unlogged (t : Tables) : Tables := { t with runs := [], events := [] }

def Database.unlogged (db : Database) : Database := ⟨db.tables.map Tables.unlogged, []⟩

namespace RunLog
variable (refusals : Refusals) (id : String) (now : Instant) (db : Database)

theorem record_unlogged (level : EventLevel) (type : String) (payload : Members) :
    ((recordUnless refusals id level type payload now).runOn db).2.unlogged = db.unlogged := by
  rw [runOn_recordUnless]
  cases refusals (.event (nextSequence id db.sequences).1) with
  | some _ => rfl
  | none =>
    obtain ⟨tables, sequences⟩ := db
    cases tables with
    | none => rfl
    | some t =>
      rw [runOn_record rfl]
      cases namedNode? payload <;> rfl

end RunLog

end Storage

/-! ### Recorders -/

namespace Application

variable {α : Type}

/-- The log of runs with some writes refused. -/
def refusing (refusals : Refusals) : Recorder (World α) where
  start s := World.store (RunLog.startUnless refusals s)
  record executionId level eventType payload :=
    World.store (RunLog.recordUnless refusals executionId level eventType payload)
  finish executionId e := World.store (RunLog.finishUnless refusals executionId e)

theorem refusing_none : (refusing fun _ => none : Recorder (World α)) = recorder := by
  have hrecord (id : String) (level : EventLevel) (type : String) (payload : Members) :
      RunLog.recordUnless (fun _ => none) id level type payload = RunLog.record id level type payload :=
    funext fun now => funext fun _ => RunLog.runOn_recordUnless _ level type payload now
  unfold refusing recorder
  simp only [hrecord]
  rfl

/-- There is a record of the run. -/
def HasRow (id : String) (w : World α) : Prop := ∃ sh, w.share id = some sh ∧ sh.rows ≠ []

theorem HasRow.of_share {id : String} {w w' : World α} (hw : HasRow id w)
    (h : w'.share id = w.share id) : HasRow id w' := by
  obtain ⟨sh, hsh, hrows⟩ := hw
  exact ⟨sh, h.trans hsh, hrows⟩

theorem record_row (refusals : Refusals) (id : String) (level : EventLevel) (type : String) (payload : Members) :
    Task.Keeps (HasRow id) ((refusing refusals : Recorder (World α)).record id level type payload) := by
  rintro w ⟨sh, hsh, hrows⟩
  have hkept := RunLog.recordUnless_keeps refusals (fun sh => sh.rows ≠ []) level type payload w.now
    (fun _ _ hp => hp) (fun _ hp => hp) hsh hrows
  have hrun := World.runOn_store (RunLog.recordUnless refusals id level type payload) w
  show HasRow id ((World.store (RunLog.recordUnless refusals id level type payload)).runOn w).2
  rw [hrun]
  exact hkept

section FailsOnly
variable (refusals : Refusals) (id : String)

/-- A task that ends in failures only. -/
def FailsOnly {σ β : Type} (t : Task σ β) : Prop :=
  Task.Leads (fun _ => True) t (fun _ _ => True) (fun fault _ => ∃ f, fault = .failure f)

theorem failsOnly_of_faults {σ β : Type} {t : Task σ β}
    (h : ∀ s fault, (t.runOn s).1 = .error fault → ∃ f, fault = .failure f) : FailsOnly t := by
  intro s _
  have hs := h s
  rcases hrun : t.runOn s with ⟨fault | b, s'⟩
  · rw [hrun] at hs
    exact hs fault rfl
  · trivial

theorem refusing_record_failsOnly (level : EventLevel) (type : String) {payload : Members} {node : Option String}
    (hnode : namedNode? payload = some node) :
    FailsOnly ((refusing refusals : Recorder (World α)).record id level type payload) := by
  refine failsOnly_of_faults fun w fault hfault => ?_
  have hrecord : ((RunLog.recordUnless refusals id level type payload w.now).runOn w.database).1 =
      .error fault := hfault
  rcases RunLog.record_fault refusals hrecord with hfailure | ⟨hnone, -⟩
  · exact hfailure
  · rw [hnode] at hnone
    cases hnone

theorem refusing_finish_failsOnly (e : RunEnd) :
    FailsOnly ((refusing refusals : Recorder (World α)).finish id e) :=
  failsOnly_of_faults fun w _ hfault => RunLog.finish_failure refusals w.database e w.now hfault

end FailsOnly

end Application

end Cadence
