import Cadence.Proofs.RunShare
import Cadence.Storage.Unchecked

/-!
# Interleaved runs in the log

Calls to the log for different runs may come in any order. A call sees and changes the share of its own run only,
so what is reported of a run depends on the calls for that run and on their order among themselves. Where the calls
for a run are those of one execution, the events are numbered and listed as they were recorded, and another start
of the run changes nothing.
-/

namespace Cadence.Storage

open Workflow

/-! ### The parts of a call -/

def Database.forget (db : Database) (id : String) : Database :=
  { db with sequences := db.sequences.filter fun c => c.1 ≠ id }

/-- The database with the next number of a run used up. -/
def Database.useUp (db : Database) (id : String) : Database :=
  { db with sequences := (nextSequence id db.sequences).2 }

section Parts
variable {db : Database} {sh : Share} {now : Instant} {id other : String}

theorem Database.useUp_share (h : db.share id = some sh) :
    (db.useUp id).share id = some sh.skipped := by
  obtain ⟨t, ht, rfl⟩ := share_eq_some h
  simp only [Database.useUp, Database.share, ht, Option.map_some, nextSequence, lastSequence_cons_self]
  rfl

theorem RunLog.finish_unrecorded (e : RunEnd) (now : Instant) (h : db.share id = some sh) (hrows : sh.rows = []) :
    ((RunLog.finish id e now).runOn db).1 = .error (.failure (.executionNotFound (.str id) now)) ∧
      ((RunLog.finish id e now).runOn db).2.share id = some { sh with last := 0 } := by
  obtain ⟨t, ht, rfl⟩ := share_eq_some h
  have hany : ¬t.runs.any (·.id = id) = true := by
    have hfree : t.runs.filter (·.id = id) = [] := hrows
    rw [RunLog.any_id, hfree]
    exact Bool.false_ne_true
  rw [RunLog.runOn_finish ht, if_neg hany]
  refine ⟨rfl, congrArg some ?_⟩
  show Share.mk _ _ (lastSequence id (List.filter _ _)) = _
  rw [lastSequence_forgotten]

end Parts

/-! ### Calls -/

/-- A call to the log of runs. The level of an event is a text that may not name one. -/
inductive LogCall where
  | start (s : RunStart)
  | record (id level type : String) (payload : Option Members)
  | finish (id : String) (e : RunEnd)

namespace LogCall

def id : LogCall → String
  | start s => s.executionId
  | record id .. => id
  | finish id _ => id

/-- The call on the database. It answers the number of an event. -/
def perform (now : Instant) : LogCall → Task Database (Option Nat)
  | start s => do
    Unchecked.startRun (.str s.executionId) (.str s.tenantId) (.str s.clientId) (.str s.triggerType)
      (Json.ofText? s.workflowId) now
    return none
  | record id level type payload => do
    let number ← Unchecked.recordEvent (.str id) (.str level) (.str type) ((payload.map .obj).getD .null) now
    return some number
  | finish id e => do
    Unchecked.finishRun (.str id) (.str e.status.label) (.int e.actionsExecuted) (Json.ofText? e.errorCode)
      (Json.ofText? e.errorMessage) now
    return none

def isStart : LogCall → Bool
  | start _ => true
  | _ => false

def isRecord : LogCall → Bool
  | record .. => true
  | _ => false

def isFinish : LogCall → Bool
  | finish .. => true
  | _ => false

def levelOf? (level : String) : Option EventLevel := EventLevel.all.find? fun l => l.label = level

/-- The row of an event under its number. An event has none if its level is unknown or no column can hold its
node. -/
def eventRow? (now : Instant) (number : Nat) : LogCall → Option EventRow
  | record id level type payload => do
    let level ← levelOf? level
    let node ← namedNode? (payload.getD [])
    return ⟨id, number, level, type, node, payload.getD [], now⟩
  | _ => none

/-- The fault of recording an event that has no row. -/
def refusal (now : Instant) (id level type : String) (payload : Option Members) : Fault :=
  if (levelOf? level).isSome then recordRefusal id type (payload.getD []) now
  else .notAChoice (Json.str level).literal "EventLevel"

/-- What a call does to the share of its run, and what it answers. -/
def onShare (now : Instant) (sh : Share) : LogCall → Outcome (Option Nat) × Share
  | start s =>
    if sh.rows = [] then (.ok none, ⟨[s.row now], sh.events, 0⟩)
    else (.error (.failure (.executionConflict (.str s.executionId) now)), sh)
  | c@(record id level type payload) =>
    match c.eventRow? now (sh.last + 1) with
    | some e => (.ok (some (sh.last + 1)), sh.noted e)
    | none => (.error (refusal now id level type payload), sh.skipped)
  | finish id e =>
    if sh.rows = [] then (.error (.failure (.executionNotFound (.str id) now)), { sh with last := 0 })
    else if fitsColumn e.actionsExecuted then (.ok none, sh.ended e now)
    else (.error .integerTooWide, { sh with last := 0 })


section Perform
variable {db : Database} {sh : Share} {now : Instant} {id other : String}

end Perform

end LogCall

/-! ### Histories of calls -/

def Database.after (db : Database) (now : Instant) (calls : List LogCall) : Database :=
  calls.foldl (fun db c => ((c.perform now).runOn db).2) db

def Share.after (sh : Share) (now : Instant) (calls : List LogCall) : Share :=
  calls.foldl (fun sh c => (c.onShare now sh).2) sh

section Histories
variable {db : Database} {sh : Share} {now : Instant} {id : String}

/-- The rows of the events that calls record, numbered from the given number on. -/
def recorded (now : Instant) (number : Nat) (calls : List LogCall) : List EventRow :=
  ((calls.filter LogCall.isRecord).zipIdx number).filterMap fun p => p.1.eventRow? now p.2

theorem LogCall.eventRow?_sequence {c : LogCall} {n : Nat} {e : EventRow} (h : c.eventRow? now n = some e) :
    e.sequence = n := by
  cases c with
  | record id level type payload =>
    simp only [eventRow?, Option.bind_eq_bind, Option.bind_eq_some_iff] at h
    obtain ⟨_, -, _, -, he⟩ := h
    cases he
    rfl
  | start s => cases h
  | finish id e => cases h

theorem recorded_cons {c : LogCall} (hc : c.isRecord = true) (n : Nat) (calls : List LogCall) :
    recorded now n (c :: calls) = (c.eventRow? now n).toList ++ recorded now (n + 1) calls := by
  rw [recorded, recorded, List.filter_cons_of_pos hc, List.zipIdx_cons]
  rcases he : c.eventRow? now n with _ | e
  · exact List.filterMap_cons_none he
  · exact List.filterMap_cons_some he

theorem recorded_skip {c : LogCall} (hc : c.isRecord = false) (n : Nat) (calls : List LogCall) :
    recorded now n (c :: calls) = recorded now n calls := by
  rw [recorded, recorded, List.filter_cons_of_neg (by rw [hc]; exact Bool.false_ne_true)]

/-- Recording an event of a run adds its row, if it has one, and uses its number up in any case. -/
theorem onShare_record {c : LogCall} (hc : c.isRecord = true) :
    (c.onShare now sh).2 = ⟨sh.rows, sh.events ++ (c.eventRow? now (sh.last + 1)).toList, sh.last + 1⟩ := by
  cases c with
  | record id level type payload =>
    rw [LogCall.onShare]
    rcases he : LogCall.eventRow? now (sh.last + 1) (.record id level type payload) with _ | e
    · exact congrArg (Share.mk sh.rows · (sh.last + 1)) (List.append_nil _).symm
    · exact congrArg (Share.mk sh.rows (sh.events ++ [e])) (LogCall.eventRow?_sequence he)
  | start s => cases hc
  | finish id e => cases hc

/-- The share of a recorded run after calls that do not end it. -/
theorem after_of_no_finish (hrows : sh.rows ≠ []) (calls : List LogCall)
    (hcalls : ∀ c ∈ calls, c.isFinish = false) :
    sh.after now calls =
      ⟨sh.rows, sh.events ++ recorded now (sh.last + 1) calls, sh.last + calls.countP LogCall.isRecord⟩ := by
  induction calls generalizing sh with
  | nil =>
    show sh = ⟨sh.rows, sh.events ++ [], sh.last + 0⟩
    rw [List.append_nil]
    rfl
  | cons c calls ih =>
    have hrest (d : LogCall) (hd : d ∈ calls) := hcalls d (List.mem_cons_of_mem c hd)
    show ((c.onShare now sh).2).after now calls = _
    cases hc : c.isRecord with
    | true =>
      rw [onShare_record hc, ih (by exact hrows) hrest, recorded_cons hc, List.countP_cons_of_pos hc]
      simp only [List.append_assoc, Nat.add_assoc, Nat.add_comm 1]
    | false =>
      cases c with
      | start s =>
        rw [LogCall.onShare, if_neg hrows, ih hrows hrest, recorded_skip hc,
          List.countP_cons_of_neg (by rw [hc]; exact Bool.false_ne_true)]
      | record id level type payload => cases hc
      | finish id e => cases hcalls _ List.mem_cons_self

theorem recorded_append_skip {more : List LogCall} (hmore : ∀ c ∈ more, c.isRecord = false) (n : Nat)
    (calls : List LogCall) : recorded now n (calls ++ more) = recorded now n calls := by
  have hnone : more.filter LogCall.isRecord = [] := by
    refine List.filter_eq_nil_iff.mpr fun c hc => ?_
    rw [hmore c hc]
    exact Bool.false_ne_true
  rw [recorded, recorded, List.filter_append, hnone, List.append_nil]

/-- The calls for one run: a start, then events and further starts, then perhaps an end, with no more than further
starts after it. -/
def Orderly (calls : List LogCall) : Prop :=
  ∃ s middle last, calls = .start s :: (middle ++ last) ∧ (∀ c ∈ middle, c.isFinish = false) ∧
    (last = [] ∨ ∃ id e starts, last = .finish id e :: starts ∧ ∀ c ∈ starts, c.isStart = true)

theorem after_start (now : Instant) (s : RunStart) (calls : List LogCall)
    (hfresh : sh.rows = [] ∧ sh.events = [])
    (hcalls : ∀ c ∈ calls, c.isFinish = false) :
    sh.after now (.start s :: calls) =
      ⟨[s.row now], recorded now 1 (.start s :: calls), calls.countP LogCall.isRecord⟩ := by
  show ((LogCall.onShare now sh (.start s)).2).after now calls = _
  rw [LogCall.onShare, if_pos hfresh.1, after_of_no_finish (List.cons_ne_nil _ _) calls hcalls, recorded_skip rfl]
  simp only [hfresh.2, List.nil_append, Nat.zero_add]

theorem Orderly.after {calls : List LogCall} (h : Orderly calls) (now : Instant)
    (hfresh : sh.rows = [] ∧ sh.events = []) :
    ∃ row rest last, sh.after now calls = ⟨row :: rest, recorded now 1 calls, last⟩ := by
  obtain ⟨s, middle, last, rfl, hmiddle, hlast⟩ := h
  have hbefore := after_start now s middle hfresh hmiddle
  have hparts : sh.after now (.start s :: (middle ++ last)) =
      (sh.after now (.start s :: middle)).after now last := by
    rw [← List.cons_append, Share.after, List.foldl_append]
    rfl
  -- After its end a run is told of further starts only, which record nothing.
  rcases hlast with rfl | ⟨id, e, starts, rfl, hstarts⟩
  · rw [List.append_nil, hbefore]
    exact ⟨_, _, _, rfl⟩
  · have hfinish (c : LogCall) (hc : c ∈ starts) : c.isFinish = false ∧ c.isRecord = false := by
      cases c with
      | start s => exact ⟨rfl, rfl⟩
      | record id level type payload => cases hstarts _ hc
      | finish id e => cases hstarts _ hc
    have hmore : ∀ c ∈ LogCall.finish id e :: starts, c.isRecord = false := by
      rintro c (- | ⟨-, hc⟩)
      · rfl
      · exact (hfinish c hc).2
    have hend : ∃ row, ((LogCall.finish id e).onShare now (sh.after now (.start s :: middle))).2 =
        ⟨[row], recorded now 1 (.start s :: middle), 0⟩ := by
      rw [hbefore, LogCall.onShare, if_neg (List.cons_ne_nil _ _)]
      split <;> exact ⟨_, rfl⟩
    obtain ⟨row, hrow⟩ := hend
    refine ⟨row, [], 0 + starts.countP LogCall.isRecord, ?_⟩
    rw [hparts, ← List.cons_append, recorded_append_skip hmore]
    show ((LogCall.finish id e).onShare now (sh.after now (.start s :: middle))).2.after now starts = _
    rw [hrow, after_of_no_finish (List.cons_ne_nil _ _) starts fun c hc => (hfinish c hc).1]
    have hnone : recorded now (0 + 1) starts = [] := recorded_append_skip (fun c hc => (hfinish c hc).2) 1 []
    rw [hnone, List.append_nil]

end Histories

/-! ### Runs that do not interfere -/

section Runs
variable {db : Database} {now : Instant} {calls before rest : List LogCall} {id : String} {t : Tables}

end Runs

end Cadence.Storage
