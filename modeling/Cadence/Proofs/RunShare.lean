import Cadence.Proofs.TaskRuns
import Cadence.Storage.RunLog

/-!
# The share of a run in the database

All that the log of runs reads and writes for a run is the run's share of the database: its rows, its
events and its counter. Every operation of the log is described here by what it does to the share of its
run. The shares of other runs stay as they are.
-/

namespace Cadence.Storage

open Workflow

/-- What the database holds of one run: its rows, its events in the order of their recording, and the
number of the last one. -/
structure Share where
  rows : List RunRow := []
  events : List EventRow := []
  last : Nat := 0

/-- The number of the last event of a run, by the counters. -/
def lastSequence (id : String) (sequences : List (String × Nat)) : Nat :=
  ((sequences.find? fun s => s.1 = id).map (·.2)).getD 0

/-- The share of a run. A database without tables has none. -/
def Database.share (db : Database) (id : String) : Option Share :=
  db.tables.map fun t =>
    ⟨t.runs.filter (·.id = id), t.events.filter (·.executionId = id), lastSequence id db.sequences⟩

/-- A run is recorded under the id. -/
def Database.Records (db : Database) (id : String) : Prop :=
  ∃ t, db.tables = some t ∧ ∃ row ∈ t.runs, row.id = id

/-- No event is recorded under the id. -/
def Database.Eventless (db : Database) (id : String) : Prop :=
  ∀ t, db.tables = some t → ∀ e ∈ t.events, e.executionId ≠ id

/-- Every event belongs to a recorded run. -/
def Database.Attached (db : Database) : Prop := ∀ id, ¬db.Records id → db.Eventless id

/-- The node that the payload of an event names, if a column can hold what stands for it. -/
def namedNode? (payload : Members) : Option (Option String) :=
  match Cell.ofJson ((Members.get? payload "nodeId").getD .null) with
  | .text s => some (some s)
  | .empty => some none
  | .tooWide | .unsupported => none

/-- The fault of recording an event whose node no column can hold. -/
def recordRefusal (id type : String) (payload : Members) (now : Instant) : Fault :=
  match Cell.ofJson ((Members.get? payload "nodeId").getD .null) with
  | .tooWide => .integerTooWide
  | _ => refused ("Failed to record event " ++ type ++ " for " ++ id) "record_event" "execution_events" now

def RunStart.row (s : RunStart) (now : Instant) : RunRow where
  id := s.executionId
  tenantId := s.tenantId
  clientId := s.clientId
  workflowId := s.workflowId
  triggerType := s.triggerType
  startedAt := now

namespace Share

def noted (sh : Share) (e : EventRow) : Share := ⟨sh.rows, sh.events ++ [e], e.sequence⟩

/-- The share with a number used up for nothing. -/
def skipped (sh : Share) : Share := ⟨sh.rows, sh.events, sh.last + 1⟩

/-- The share of a run that has ended. -/
def ended (sh : Share) (e : RunEnd) (now : Instant) : Share :=
  ⟨sh.rows.map (RunLog.ended e now), sh.events, 0⟩

end Share

/-! ### Numbers of events -/

namespace Share

/-- The numbers of the events increase, and none is beyond the counter. -/
structure Ordered (sh : Share) : Prop where
  increasing : sh.events.Pairwise fun a b => a.sequence < b.sequence
  bounded : ∀ e ∈ sh.events, e.sequence ≤ sh.last

variable {sh : Share}

theorem rows_ne_nil {row : RunRow} (h : sh.rows = [row]) : sh.rows ≠ [] := by
  rw [h]
  exact List.cons_ne_nil _ _

theorem Ordered.noted (h : sh.Ordered) {e : EventRow} (he : e.sequence = sh.last + 1) :
    (sh.noted e).Ordered where
  increasing := by
    refine List.pairwise_append.mpr ⟨h.increasing, List.pairwise_singleton _ _, ?_⟩
    intro a ha b hb
    rw [List.mem_singleton.mp hb, he]
    exact Nat.lt_succ_of_le (h.bounded a ha)
  bounded := by
    intro a ha
    show a.sequence ≤ e.sequence
    rcases List.mem_append.mp ha with ha | ha
    · rw [he]
      exact Nat.le_succ_of_le (h.bounded a ha)
    · exact Nat.le_of_eq (congrArg (·.sequence) (List.mem_singleton.mp ha))

theorem Ordered.skipped (h : sh.Ordered) : sh.skipped.Ordered :=
  ⟨h.increasing, fun a ha => Nat.le_succ_of_le (h.bounded a ha)⟩

theorem mergeSort_of_increasing {events : List EventRow}
    (h : events.Pairwise fun a b => a.sequence < b.sequence) :
    (events.mergeSort fun a b => a.sequence ≤ b.sequence) = events :=
  List.mergeSort_of_pairwise (h.imp fun hab => decide_eq_true (Nat.le_of_lt hab))

end Share

/-! ### Counters -/

section Counters
variable {id other : String} {n : Nat} {sequences : List (String × Nat)}

theorem lastSequence_cons_self : lastSequence id ((id, n) :: sequences) = n := by
  unfold lastSequence
  rw [List.find?_cons_of_pos (by exact decide_eq_true rfl)]
  rfl

theorem lastSequence_cons_other (h : other ≠ id) :
    lastSequence other ((id, n) :: sequences) = lastSequence other sequences := by
  unfold lastSequence
  rw [List.find?_cons_of_neg]
  exact fun heq => h (of_decide_eq_true heq).symm

theorem lastSequence_forgotten : lastSequence id (sequences.filter fun s => s.1 ≠ id) = 0 := by
  have hnone : (sequences.filter fun s => s.1 ≠ id).find? (fun s => s.1 = id) = none := by
    rw [List.find?_eq_none]
    intro s hs heq
    exact absurd (of_decide_eq_true heq) (of_decide_eq_true (List.mem_filter.mp hs).2)
  unfold lastSequence
  rw [hnone]
  rfl

theorem lastSequence_filter_other (h : other ≠ id) :
    lastSequence other (sequences.filter fun s => s.1 ≠ id) = lastSequence other sequences := by
  have hsame (s : String × Nat) : decide (decide (s.1 ≠ id) = true ∧ decide (s.1 = other) = true) =
      decide (s.1 = other) := by
    by_cases hs : s.1 = other
    · simp only [hs, ne_eq, h, not_false_eq_true, decide_true, and_self]
    · simp only [hs, decide_false, Bool.false_eq_true, and_false]
  unfold lastSequence
  rw [List.find?_filter]
  simp only [hsame]

end Counters

/-! ### Operations of the log -/

theorem share_eq_some {db : Database} {id : String} {sh : Share} (h : db.share id = some sh) :
    ∃ t, db.tables = some t ∧
      sh = ⟨t.runs.filter (·.id = id), t.events.filter (·.executionId = id),
        lastSequence id db.sequences⟩ := by
  obtain ⟨t, ht, hsh⟩ := Option.map_eq_some_iff.mp h
  exact ⟨t, ht, hsh.symm⟩

theorem records_iff {db : Database} {id : String} {sh : Share} (h : db.share id = some sh) :
    db.Records id ↔ sh.rows ≠ [] := by
  obtain ⟨t, ht, rfl⟩ := share_eq_some h
  constructor
  · rintro ⟨t', ht', row, hrow, hid⟩ hnil
    obtain rfl : t' = t := Option.some.inj (ht'.symm.trans ht)
    exact List.filter_eq_nil_iff.mp hnil row hrow (decide_eq_true hid)
  · intro hrows
    obtain ⟨row, hrow⟩ := List.exists_mem_of_ne_nil _ hrows
    obtain ⟨hmem, hid⟩ := List.mem_filter.mp hrow
    exact ⟨t, ht, row, hmem, of_decide_eq_true hid⟩

theorem eventless_iff {db : Database} {id : String} {sh : Share} (h : db.share id = some sh) :
    db.Eventless id ↔ sh.events = [] := by
  obtain ⟨t, ht, rfl⟩ := share_eq_some h
  constructor
  · intro hnone
    exact List.filter_eq_nil_iff.mpr fun e he hid => hnone t ht e he (of_decide_eq_true hid)
  · intro hnil t' ht' e he hid
    obtain rfl : t' = t := Option.some.inj (ht'.symm.trans ht)
    exact List.filter_eq_nil_iff.mp hnil e he (decide_eq_true hid)

theorem runOn_tablesOr (fault : Fault) (db : Database) :
    (tablesOr fault).runOn db =
      match db.tables with
      | some t => (.ok t, db)
      | none => (.error fault, db) := by
  unfold tablesOr
  rw [Task.runOn_bind_ok (Task.runOn_get db)]
  rcases db.tables with _ | t <;> rfl

theorem runOn_tablesOr_some {fault : Fault} {db : Database} {t : Tables} (h : db.tables = some t) :
    (tablesOr fault).runOn db = (.ok t, db) := by
  rw [runOn_tablesOr, h]

namespace RunLog
variable {db : Database} {t : Tables} {id other : String} {sh : Share} {now : Instant}

theorem any_id {rows : List RunRow} :
    rows.any (·.id = id) = !(rows.filter (·.id = id)).isEmpty := by
  induction rows with
  | nil => rfl
  | cons row rest ih =>
    by_cases h : row.id = id
    · simp only [List.any_cons, h, decide_true, Bool.true_or, List.filter_cons_of_pos, List.isEmpty_cons,
        Bool.not_false]
    · simp only [List.any_cons, h, decide_false, Bool.false_or, ih, List.filter_cons_of_neg,
        Bool.false_eq_true, not_false_eq_true]

theorem runOn_start {s : RunStart} (ht : db.tables = some t) :
    (start s now).runOn db =
      if t.runs.any (·.id = s.executionId) then
        (.error (.failure (.executionConflict (.str s.executionId) now)), db)
      else
        (.ok (), ⟨some { t with runs := t.runs ++ [s.row now] },
          (s.executionId, 0) :: db.sequences.filter fun c => c.1 ≠ s.executionId⟩) := by
  unfold start
  rw [Task.runOn_bind_ok (runOn_tablesOr_some ht)]
  cases t.runs.any (·.id = s.executionId) <;> rfl

/-- The start of a run whose id is taken is refused and changes nothing. -/
theorem start_taken {s : RunStart} (h : db.share s.executionId = some sh) (hrows : sh.rows ≠ []) :
    (start s now).runOn db = (.error (.failure (.executionConflict (.str s.executionId) now)), db) := by
  obtain ⟨t, ht, rfl⟩ := share_eq_some h
  have hany : t.runs.any (·.id = s.executionId) = true := by
    rw [any_id, Bool.not_eq_true', List.isEmpty_eq_false_iff]
    exact hrows
  rw [runOn_start ht, if_pos hany]

theorem start_free {s : RunStart} (h : db.share s.executionId = some sh) (hrows : sh.rows = []) :
    ((start s now).runOn db).1 = .ok () ∧
      ((start s now).runOn db).2.share s.executionId = some ⟨[s.row now], sh.events, 0⟩ := by
  obtain ⟨t, ht, rfl⟩ := share_eq_some h
  have hfree : t.runs.filter (·.id = s.executionId) = [] := hrows
  have hany : ¬t.runs.any (·.id = s.executionId) = true := by
    rw [any_id, hfree]
    exact Bool.false_ne_true
  rw [runOn_start ht, if_neg hany]
  refine ⟨rfl, congrArg some ?_⟩
  show Share.mk ((t.runs ++ [s.row now]).filter (·.id = s.executionId)) _ _ = _
  rw [List.filter_append, hfree, List.nil_append, lastSequence_cons_self,
    List.filter_cons_of_pos (by exact decide_eq_true rfl), List.filter_nil]

theorem free_of_start {s : RunStart} (h : ((start s now).runOn db).1 = .ok ()) :
    ∃ sh, db.share s.executionId = some sh ∧ sh.rows = [] := by
  rcases ht : db.tables with _ | t
  · unfold start at h
    rw [Task.runOn_bind, runOn_tablesOr, ht] at h
    cases h
  · have hshare : db.share s.executionId = some _ := congrArg (Option.map _) ht
    by_cases hrows : t.runs.filter (·.id = s.executionId) = []
    · exact ⟨_, hshare, hrows⟩
    · rw [start_taken hshare hrows] at h
      cases h

theorem start_other {s : RunStart} (h : other ≠ s.executionId) :
    ((start s now).runOn db).2.share other = db.share other := by
  rcases ht : db.tables with _ | t
  · unfold start
    rw [Task.runOn_bind, runOn_tablesOr, ht]
  · rw [runOn_start ht]
    split
    · rfl
    · have hrow : [s.row now].filter (·.id = other) = [] :=
        List.filter_cons_of_neg (by exact fun heq => h (of_decide_eq_true heq).symm)
      simp only [Database.share, ht, Option.map_some, List.filter_append, hrow, List.append_nil,
        lastSequence_cons_other h, lastSequence_filter_other h]

theorem runOn_record {level : EventLevel} {type : String} {payload : Members} (ht : db.tables = some t) :
    (record id level type payload now).runOn db =
      let next := lastSequence id db.sequences + 1
      let counted := (id, next) :: db.sequences.filter fun s => s.1 ≠ id
      match namedNode? payload with
      | some node =>
        (.ok next, ⟨some { t with events := t.events ++ [⟨id, next, level, type, node, payload, now⟩] },
          counted⟩)
      | none => (.error (recordRefusal id type payload now), ⟨some t, counted⟩) := by
  obtain ⟨tables, sequences⟩ := db
  obtain rfl : tables = some t := ht
  unfold record namedNode? recordRefusal
  rw [Task.runOn_bind_ok (Task.runOn_get _), Task.runOn_bind_ok (Task.runOn_modify ..)]
  dsimp only
  rw [Task.runOn_bind_ok (runOn_tablesOr_some rfl)]
  cases Cell.ofJson ((Members.get? payload "nodeId").getD .null) <;> rfl

/-- An event whose node a column can hold is recorded under the next number. -/
theorem record_noted (level : EventLevel) (type : String) (now : Instant) {payload : Members}
    {node : Option String} (h : db.share id = some sh) (hnode : namedNode? payload = some node) :
    ((record id level type payload now).runOn db).1 = .ok (sh.last + 1) ∧
      ((record id level type payload now).runOn db).2.share id =
        some (sh.noted ⟨id, sh.last + 1, level, type, node, payload, now⟩) := by
  obtain ⟨t, ht, rfl⟩ := share_eq_some h
  rw [runOn_record ht, hnode]
  refine ⟨rfl, congrArg some ?_⟩
  show Share.mk _ ((t.events ++ [_]).filter (·.executionId = id)) _ = _
  rw [List.filter_append, lastSequence_cons_self, List.filter_cons_of_pos (by exact decide_eq_true rfl),
    List.filter_nil]
  rfl

/-- Any other event is refused, and uses its number up. -/
theorem record_skipped (level : EventLevel) (type : String) (now : Instant) {payload : Members}
    (h : db.share id = some sh) (hnode : namedNode? payload = none) :
    ((record id level type payload now).runOn db).1 = .error (recordRefusal id type payload now) ∧
      ((record id level type payload now).runOn db).2.share id = some sh.skipped := by
  obtain ⟨t, ht, rfl⟩ := share_eq_some h
  rw [runOn_record ht, hnode]
  refine ⟨rfl, congrArg some ?_⟩
  show Share.mk _ _ (lastSequence id ((id, _) :: _)) = _
  rw [lastSequence_cons_self]
  rfl

theorem record_other {level : EventLevel} {type : String} {payload : Members} (h : other ≠ id) :
    ((record id level type payload now).runOn db).2.share other = db.share other := by
  rcases ht : db.tables with _ | t
  · unfold record
    rw [Task.runOn_bind_ok (Task.runOn_get db), Task.runOn_bind_ok (Task.runOn_modify ..),
      Task.runOn_bind, runOn_tablesOr]
    simp only [ht, Database.share, Option.map_none]
  · rw [runOn_record ht]
    rcases namedNode? payload with _ | node
    · simp only [Database.share, ht, Option.map_some, lastSequence_cons_other h,
        lastSequence_filter_other h]
    · have hrow : [(⟨id, lastSequence id db.sequences + 1, level, type, node, payload, now⟩ : EventRow)].filter
          (·.executionId = other) = [] :=
        List.filter_cons_of_neg (by exact fun heq => h (of_decide_eq_true heq).symm)
      simp only [Database.share, ht, Option.map_some, List.filter_append, hrow, List.append_nil,
        lastSequence_cons_other h, lastSequence_filter_other h]

theorem runOn_finish {e : RunEnd} (ht : db.tables = some t) :
    (finish id e now).runOn db =
      let forgotten := db.sequences.filter fun s => s.1 ≠ id
      if t.runs.any (·.id = id) then
        (.ok (), ⟨some { t with
          runs := t.runs.map fun row => if row.id = id then ended e now row else row }, forgotten⟩)
      else (.error (.failure (.executionNotFound (.str id) now)), ⟨some t, forgotten⟩) := by
  obtain ⟨tables, sequences⟩ := db
  obtain rfl : tables = some t := ht
  unfold finish
  rw [Task.runOn_bind_ok (Task.runOn_modify ..), Task.runOn_bind_ok (runOn_tablesOr_some rfl)]
  cases t.runs.any (·.id = id) <;> rfl

theorem filter_map_ended {e : RunEnd} (rows : List RunRow) :
    (rows.map fun row => if row.id = id then ended e now row else row).filter (·.id = id) =
      (rows.filter (·.id = id)).map (ended e now) := by
  induction rows with
  | nil => rfl
  | cons row rest ih =>
    by_cases h : row.id = id
    · have hended : (ended e now row).id = id := h
      rw [List.map_cons, if_pos h, List.filter_cons_of_pos (by exact decide_eq_true hended),
        List.filter_cons_of_pos (by exact decide_eq_true h), List.map_cons, ih]
    · rw [List.map_cons, if_neg h, List.filter_cons_of_neg (by exact fun heq => h (of_decide_eq_true heq)),
        List.filter_cons_of_neg (by exact fun heq => h (of_decide_eq_true heq)), ih]

theorem filter_map_other {e : RunEnd} (h : other ≠ id) (rows : List RunRow) :
    (rows.map fun row => if row.id = id then ended e now row else row).filter (·.id = other) =
      rows.filter (·.id = other) := by
  induction rows with
  | nil => rfl
  | cons row rest ih =>
    have hid : (if row.id = id then ended e now row else row).id = row.id := by
      split <;> rfl
    by_cases hrow : row.id = other
    · have hne : ¬row.id = id := fun heq => h (hrow.symm.trans heq)
      rw [List.map_cons, if_neg hne, List.filter_cons_of_pos (by exact decide_eq_true hrow),
        List.filter_cons_of_pos (by exact decide_eq_true hrow), ih]
    · rw [List.map_cons, List.filter_cons_of_neg (by exact fun heq => hrow (hid ▸ of_decide_eq_true heq)),
        List.filter_cons_of_neg (by exact fun heq => hrow (of_decide_eq_true heq)), ih]

theorem finish_recorded (e : RunEnd) (now : Instant) (h : db.share id = some sh) (hrows : sh.rows ≠ []) :
    ((finish id e now).runOn db).1 = .ok () ∧
      ((finish id e now).runOn db).2.share id = some (sh.ended e now) := by
  obtain ⟨t, ht, rfl⟩ := share_eq_some h
  have hany : t.runs.any (·.id = id) = true := by
    rw [any_id, Bool.not_eq_true', List.isEmpty_eq_false_iff]
    exact hrows
  rw [runOn_finish ht, if_pos hany]
  refine ⟨rfl, congrArg some ?_⟩
  show Share.mk (List.filter _ (List.map _ _)) _ (lastSequence id (List.filter _ _)) = _
  rw [filter_map_ended, lastSequence_forgotten]
  rfl

theorem finish_other {e : RunEnd} (h : other ≠ id) :
    ((finish id e now).runOn db).2.share other = db.share other := by
  rcases ht : db.tables with _ | t
  · unfold finish
    rw [Task.runOn_bind_ok (Task.runOn_modify ..), Task.runOn_bind, runOn_tablesOr]
    simp only [ht, Database.share, Option.map_none]
  · rw [runOn_finish ht]
    split
    · simp only [Database.share, ht, Option.map_some, filter_map_other h, lastSequence_filter_other h]
    · simp only [Database.share, ht, Option.map_some, lastSequence_filter_other h]

theorem load_share (now : Instant) {row : RunRow} {rest : List RunRow} {events : List EventRow} {last : Nat}
    (h : db.share id = some ⟨row :: rest, events, last⟩) :
    (load id now).runOn db = (.ok ⟨row, events.mergeSort fun a b => a.sequence ≤ b.sequence⟩, db) := by
  obtain ⟨t, ht, hsh⟩ := share_eq_some h
  obtain ⟨hrows, hevents, -⟩ := Share.mk.inj hsh
  have hfind : t.runs.find? (·.id = id) = some row := by
    rw [← List.head?_filter, ← hrows]
    rfl
  unfold load
  rw [Task.runOn_bind_ok (runOn_tablesOr_some ht)]
  simp only [hfind, eventsOf, ← hevents]
  rfl

end RunLog

end Cadence.Storage
