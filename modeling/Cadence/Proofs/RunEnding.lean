import Cadence.Proofs.RecordedRuns

/-!
# How runs end

What the record of a run says once the run has ended, and what the engine raises for it.
-/

namespace Cadence

open Workflow Storage

namespace Application

variable {α : Type} {app : Application α} {limit : Option Numeral}
  {sleep : Binary64 → Task (World α) Unit} {hook : Event → Task (World α) Unit} {r : RunRequest}
  {w : World α} {sh : Share}

/-! ### The end of an execution -/

section Execute

variable (hopen : ((app.engineWithin limit sleep).opening r w).1 = .ok ())
  (hsh : ((app.engineWithin limit sleep).attempted r hook w).2.world.share r.executionId = some sh)
  (hrows : sh.rows ≠ [])
include hopen

theorem execute_of_concluded {o : Outcome RunResult} {w' : World α}
    (h : (app.engineWithin limit sleep).concluded r hook w = (o, w')) :
    ((app.engineWithin limit sleep).execute r hook).runOn w = (o, { w' with logContext := [] }) := by
  rw [Engine.runOn_execute, hopen, h]
  rfl

theorem execute_open {fault : Fault}
    (hraised : ((app.engineWithin limit sleep).attempted r hook w).1 = .error fault)
    (hleft : fault.leavesOpen = true) :
    ∃ w', ((app.engineWithin limit sleep).execute r hook).runOn w =
        (.error ((app.engineWithin limit sleep).raised r.executionId
          ((app.engineWithin limit sleep).attempted r hook w).2.world.now fault), w') ∧
      w'.share r.executionId =
        ((app.engineWithin limit sleep).attempted r hook w).2.world.share r.executionId := by
  refine ⟨_, execute_of_concluded hopen ?_, rfl⟩
  rw [Engine.concluded, hraised, conclude_open app limit sleep _ hleft]

include hsh hrows

theorem execute_result {result : RunResult}
    (hresult : ((app.engineWithin limit sleep).attempted r hook w).1 = .ok result) :
    ∃ w', ((app.engineWithin limit sleep).execute r hook).runOn w = (.ok result, w') ∧
      w'.share r.executionId = some (sh.ended
        { status := result.status, actionsExecuted := result.actionsExecuted }
        ((app.engineWithin limit sleep).attempted r hook w).2.world.now) := by
  obtain ⟨w', hrun, hshare⟩ := conclude_result app limit sleep
    (Engine.executedActions ((app.engineWithin limit sleep).attempted r hook w).2) hsh hrows result
  refine ⟨_, execute_of_concluded hopen ?_, hshare⟩
  rw [Engine.concluded, hresult, hrun]

theorem execute_failed {fault : Fault}
    (hraised : ((app.engineWithin limit sleep).attempted r hook w).1 = .error fault)
    (hleft : fault.leavesOpen = false) :
    let attempted := (app.engineWithin limit sleep).attempted r hook w
    let raised := (app.engineWithin limit sleep).raised r.executionId attempted.2.world.now fault
    ∃ w', ((app.engineWithin limit sleep).execute r hook).runOn w = (.error raised, w') ∧
      w'.share r.executionId = some (withFailure r.executionId (Engine.executedActions attempted.2)
        raised attempted.2.world.now sh) := by
  obtain ⟨w', hrun, hshare⟩ := conclude_failed app limit sleep
    (Engine.executedActions ((app.engineWithin limit sleep).attempted r hook w).2) hsh hrows hleft
  refine ⟨_, execute_of_concluded hopen ?_, hshare⟩
  rw [Engine.concluded, hraised, hrun]

end Execute

/-! ### The status of a recorded run -/

theorem runOn_loadRun_single {id : String} {row : RunRow} (h : w.share id = some sh)
    (hrows : sh.rows = [row]) :
    (loadRun id).runOn w = (.ok ⟨row, sh.events.mergeSort fun a b => a.sequence ≤ b.sequence⟩, w) := by
  obtain ⟨rows, events, last⟩ := sh
  obtain rfl : rows = [row] := hrows
  exact runOn_loadRun h

theorem rows_ended {row : RunRow} {e : RunEnd} {now : Instant} (hrows : sh.rows = [row]) :
    (sh.ended e now).rows = [RunLog.ended e now row] := by
  rw [Share.ended, hrows]
  rfl

theorem rows_withFailure {id : String} {executed : Nat} {fault : Fault} {row : RunRow} {now : Instant}
    (hrows : sh.rows = [row]) :
    (withFailure id executed fault now sh).rows = [RunLog.ended (failedEnd executed fault) now row] :=
  rows_ended hrows

theorem row_keptByRecording (id : String) (row : RunRow) :
    KeptByRecording id (fun sh => sh.rows = [row]) where
  noted _ _ _ _ _ _ _ h := h
  skipped _ h := h

/-- Once the record of a run is opened, the run has one row however the execution ends. The row says
completed or stopped if and only if the execution returns that, and failed if and only if a fault has
ended the run that does not leave the record open. After any other fault the row goes on saying that the
run is running. -/
theorem recorded_status (app : Application α) (limit : Option Numeral)
    (sleep : Binary64 → Task (World α) Unit) (hook : Event → Task (World α) Unit) (r : RunRequest)
    (w : World α) (hcode : Undisturbed app sleep hook r.executionId)
    (hopen : ((app.engineWithin limit sleep).opening r w).1 = .ok ()) :
    let ending := ((app.engineWithin limit sleep).attempted r hook w).1
    let final := ((app.engineWithin limit sleep).execute r hook).runOn w
    ∃ record, (loadRun r.executionId).runOn final.2 = (.ok record, final.2) ∧
      (record.row.status = .completed ↔ ∃ result, final.1 = .ok result ∧ result.status = .completed) ∧
      (record.row.status = .stopped ↔ ∃ result, final.1 = .ok result ∧ result.status = .stopped) ∧
      (record.row.status = .failed ↔ ∃ fault, ending = .error fault ∧ fault.leavesOpen = false) ∧
      (record.row.status = .running ↔ ∃ fault, ending = .error fault ∧ fault.leavesOpen = true) ∧
      ((∃ raised, final.1 = .error raised) ↔ ∃ fault, ending = .error fault) := by
  intro ending final
  obtain ⟨sh₀, -, -, hopened⟩ := opening_share hopen
  obtain ⟨sh, hsh, hrow⟩ := attempted_share (row_keptByRecording r.executionId _) hcode hopened rfl
  have hrows := Share.rows_ne_nil hrow
  rcases hending : ending with fault | result
  · cases hleft : fault.leavesOpen with
    | true =>
      obtain ⟨w', hrun, hshare⟩ := execute_open hopen hending hleft
      have hfinal : final = _ := hrun
      rw [hfinal]
      refine ⟨_, runOn_loadRun_single (hshare.trans hsh) hrow, ?_⟩
      simp only [RunStart.row, reduceCtorEq, false_and, exists_false, Except.error.injEq, exists_eq_left',
        hleft, Bool.true_eq_false, exists_eq', and_self]
    | false =>
      obtain ⟨w', hrun, hshare⟩ := execute_failed hopen hsh hrows hending hleft
      have hfinal : final = _ := hrun
      rw [hfinal]
      refine ⟨_, runOn_loadRun_single hshare (rows_withFailure hrow), ?_⟩
      simp only [RunLog.ended, failedEnd, reduceCtorEq, false_and, exists_false, Except.error.injEq,
        exists_eq_left', hleft, Bool.false_eq_true, exists_eq', and_self]
  · obtain ⟨w', hrun, hshare⟩ := execute_result hopen hsh hrows hending
    have hfinal : final = _ := hrun
    rw [hfinal]
    refine ⟨_, runOn_loadRun_single hshare (rows_ended hrow), ?_⟩
    have hstatus := Engine.attempted_status _ r hook w hending
    simp only [RunLog.ended, Except.ok.injEq, exists_eq_left', reduceCtorEq, false_and, exists_false,
      iff_false, true_and, and_true]
    rcases hstatus with h | h <;> rw [h] <;> exact ⟨RunStatus.noConfusion, RunStatus.noConfusion⟩

/-- An application with the given actions, set up for trials. -/
def withActions (registry : Registry (World Unit)) : Application Unit where
  settings := {
    appName := "cadence", appVersion := "1.0.0", debug := false, host := "localhost", port := 8000
    reload := false, databaseUrl := "sqlite://", databaseEcho := false, encryptionKey := "key"
    executionDryRun := true, defaultMaxActions := 20, executionTimeout := .ofInt 30
    verifyAllowLive := false, verificationMaxAgeDays := 30, apiBaseUrl := "https://example.com"
    apiVersion := "v1", defaultLanguage := "en_US", providerTimeout := .ofInt 10, logLevel := .info
    logFormat := "", logFile := none, logMaxSize := 0, logBackupCount := 0, logStructured := false
    slowRequestThreshold := .ofInt 1, corsOrigins := [], corsMethods := [] }
  cipher := ⟨id⟩
  registry := registry
  integration := { cipher := ⟨id⟩, client := {} }

def emptyWorld : World Unit where
  now := ⟨0⟩
  sources := ⟨fun _ => [], fun _ => "id"⟩
  line := { transport := fun _ _ => .ok ⟨200, "\x7b\x7d"⟩ }
  custom := ()

/-- Waiting that is over at once, and a hook that does nothing. -/
def noWait : Binary64 → Task (World Unit) Unit := fun _ => return ()
def noHook : Event → Task (World Unit) Unit := fun _ => return ()

/-- An application whose one action ends in a fault. -/
def raising (fault : Fault) : Application Unit :=
  withActions ⟨[⟨"fail", fun _ _ => throw fault⟩], [("fail", "Ends in a fault")]⟩

def failingRequest : RunRequest where
  workflow := { nodes := [⟨"only", actionType, [("action", .str "fail")]⟩] }
  tenantId := "tenant"
  clientId := "client"
  triggerType := "manual"
  executionId := "run"
  maxActions := 5

def failingRun (fault : Fault) : Outcome RunResult × World Unit :=
  (((raising fault).engineWithin none noWait).execute failingRequest noHook).runOn emptyWorld

/-- A failure whose context has a field that the log sets itself. -/
def clashing : Fault :=
  .failure (.engine "provider is down" .medium .execution { context := [("error_code", .known (.str "E1"))] } ⟨0⟩)

theorem raising_undisturbed (fault : Fault) : Undisturbed (raising fault) noWait noHook "run" where
  actions entry hentry call context := by
    rw [List.mem_singleton.mp hentry]
    exact fun _ => rfl
  sleep _ _ := rfl
  hook _ _ := rfl

theorem recorded_status_other :
    ∃ record, (loadRun "run").runOn (failingRun (.other "ValueError" "bad")).2 =
        (.ok record, (failingRun (.other "ValueError" "bad")).2) ∧
      record.row.status = .failed := by
  obtain ⟨record, hload, -, -, hfailed, -⟩ := recorded_status (raising (.other "ValueError" "bad")) none
    noWait noHook failingRequest emptyWorld (raising_undisturbed _) rfl
  exact ⟨record, hload, hfailed.mpr ⟨_, rfl, rfl⟩⟩

theorem loadRun_left_open {fault : Fault} (hleft : fault.leavesOpen = true) :
    ∃ record, (loadRun "run").runOn (failingRun fault).2 = (.ok record, (failingRun fault).2) ∧
      record.row.status = .running := by
  have hopen : (((raising fault).engineWithin none noWait).opening failingRequest emptyWorld).1 = .ok () :=
    rfl
  have hraised : (((raising fault).engineWithin none noWait).attempted failingRequest noHook emptyWorld).1 =
      .error fault := rfl
  obtain ⟨w', hrun, hshare⟩ := execute_open hopen hraised hleft
  have hfinal : failingRun fault = _ := hrun
  rw [hfinal]
  exact ⟨_, runOn_loadRun_single hshare rfl, rfl⟩

/-- A run that ends in a fault that cannot be logged, or by an order to stop, goes on in its record. -/
theorem running_after_end :
    ((failingRun clashing).1 = .error (.reservedField "error_code") ∧
      ∃ record, (loadRun "run").runOn (failingRun clashing).2 = (.ok record, (failingRun clashing).2) ∧
        record.row.status = .running) ∧
    ((failingRun (.cancelled "stop")).1 = .error (.cancelled "stop") ∧
      ∃ record, (loadRun "run").runOn (failingRun (.cancelled "stop")).2 =
          (.ok record, (failingRun (.cancelled "stop")).2) ∧
        record.row.status = .running) ∧
    ((failingRun Fault.textless).1 = .error (.other "ValueError" Fault.integerTooLong.message) ∧
      ∃ record, (loadRun "run").runOn (failingRun Fault.textless).2 = (.ok record, (failingRun Fault.textless).2) ∧
        record.row.status = .running) :=
  ⟨⟨rfl, loadRun_left_open rfl⟩, ⟨rfl, loadRun_left_open rfl⟩, ⟨rfl, loadRun_left_open rfl⟩⟩

/-! ### The fault of a failed run -/

/-- The share of a run that is going on: one row and, unless there were other events before, ordered events
of which none tells of a failure. -/
structure Running (fresh : Prop) (row : RunRow) (sh : Share) : Prop where
  rows : sh.rows = [row]
  ordered : fresh → sh.Ordered
  quiet : fresh → ∀ e ∈ sh.events, e.eventType ≠ EventKind.failed.label

theorem running_keptByRecording (id : String) (fresh : Prop) (row : RunRow) :
    KeptByRecording id (Running fresh row) where
  noted sh level type node payload now htype h := by
    refine ⟨h.rows, fun hfresh => (h.ordered hfresh).noted rfl, fun hfresh e he => ?_⟩
    rcases List.mem_append.mp he with he | he
    · exact h.quiet hfresh e he
    · rw [List.mem_singleton.mp he]
      exact htype
  skipped sh h := ⟨h.rows, fun hfresh => (h.ordered hfresh).skipped, h.quiet⟩

theorem attempted_running (hcode : Undisturbed app sleep hook r.executionId)
    (hopen : ((app.engineWithin limit sleep).opening r w).1 = .ok ()) :
    ∃ sh, ((app.engineWithin limit sleep).attempted r hook w).2.world.share r.executionId = some sh ∧
      Running (w.database.Eventless r.executionId) ((Engine.startOf r).row w.now) sh := by
  obtain ⟨sh₀, hsh₀, -, hopened⟩ := opening_share hopen
  refine attempted_share (running_keptByRecording r.executionId _ _) hcode hopened
    ⟨rfl, fun hfresh => ?_, fun hfresh => ?_⟩
  all_goals rw [(eventless_iff hsh₀).mp hfresh]
  · exact ⟨.nil, fun e he => absurd he List.not_mem_nil⟩
  · exact fun e he => absurd he List.not_mem_nil

/-- A run has failed by a fault: the engine raises the fault, the row of the run carries its code and its
message, and an event repeats both, which is the last one if no event was recorded under the id before. -/
structure FailedBy (before : Database) (id : String) (fault : Fault)
    (final : Outcome RunResult × World α) : Prop where
  raised : final.1 = .error fault
  recorded : ∃ record, (loadRun id).runOn final.2 = (.ok record, final.2) ∧
    record.row.status = .failed ∧
    record.row.errorCode = some fault.code ∧
    record.row.errorMessage = some fault.message ∧
    ∃ event ∈ record.events, event.eventType = EventKind.failed.label ∧
      event.payload = [("errorCode", .str fault.code), ("message", .str fault.message)] ∧
      (before.Eventless id → record.events.getLast? = some event)

theorem failedBy_of_recorded {before : Database} {id : String} {fault : Fault} {row : RunRow}
    {executed : Nat} {now : Instant} (hrunning : Running (before.Eventless id) row sh)
    (hshare : w.share id = some (withFailure id executed fault now sh)) :
    FailedBy before id fault (.error fault, w) := by
  refine ⟨rfl, _, runOn_loadRun_single hshare (rows_withFailure hrunning.rows), rfl, rfl, rfl,
    failedRow id sh.last fault now, ?_, rfl, rfl, fun hfresh => ?_⟩
  · exact List.mem_mergeSort.mpr (List.mem_append_right _ (List.mem_singleton.mpr rfl))
  · have hordered : (sh.noted (failedRow id sh.last fault now)).Ordered := (hrunning.ordered hfresh).noted rfl
    show (List.mergeSort (sh.noted (failedRow id sh.last fault now)).events _).getLast? = _
    rw [Share.mergeSort_of_increasing hordered.increasing]
    exact List.getLast?_concat

theorem leavesOpen_of_logged {fault : Fault} (hlogged : fault.unlogged? = none)
    (hfault : ∀ message, fault ≠ .cancelled message) : fault.leavesOpen = false := by
  cases fault with
  | cancelled message => exact absurd rfl (hfault message)
  | failure f => exact Option.isSome_eq_false_iff.mpr (Option.isNone_iff_eq_none.mpr hlogged)
  | unreadable name raised message => cases hlogged
  | _ => rfl

/-- What is raised in place of a fault is another one, and none by which time ran out is replaced so. -/
theorem unlogged?_some {fault other : Fault} (h : fault.unlogged? = some other) :
    other ≠ fault ∧ fault.isTimeout = false ∧ fault.leavesOpen = true := by
  cases fault with
  | failure f =>
    obtain ⟨name, -, rfl⟩ := Option.map_eq_some_iff.mp h
    exact ⟨Fault.noConfusion, rfl, Option.isSome_iff_exists.mpr ⟨_, h⟩⟩
  | unreadable name raised message =>
    cases h
    exact ⟨Fault.noConfusion, rfl, rfl⟩
  | _ => cases h

theorem raised_of_unlogged {e : Engine (World α)} {id : String} {now : Instant} {fault other : Fault}
    (h : fault.unlogged? = some other) : e.raised id now fault = other := by
  rw [Engine.raised, (unlogged?_some h).2.1, if_neg Bool.false_ne_true, h]
  rfl

theorem raised_eq_self_iff {e : Engine (World α)} {id : String} {now : Instant} {fault : Fault} :
    e.raised id now fault = fault ↔ fault.isTimeout = false ∧ fault.unlogged? = none := by
  cases hlogged : fault.unlogged? with
  | some other =>
    rw [raised_of_unlogged hlogged]
    exact ⟨fun h => absurd h (unlogged?_some hlogged).1, fun h => by cases h.2⟩
  | none =>
    unfold Engine.raised
    rw [hlogged]
    cases htime : fault.isTimeout with
    | false => exact ⟨fun _ => ⟨rfl, rfl⟩, fun _ => rfl⟩
    | true =>
      refine ⟨fun h => ?_, fun h => by cases h.1⟩
      rw [← h] at htime
      cases htime

/-- After a run is ended by a fault other than an order to stop, the fault is raised and recorded unless
it is one by which time ran out, or one that cannot be logged. In the first case the failure of the time limit
takes its place, whether the limit passed or something below the run gave up. In the second case the engine
raises a fault of its own, or the one that asking for the text of the fault raised, and the run goes on in the
record. -/
theorem failure_recorded (app : Application α) (limit : Option Numeral)
    (sleep : Binary64 → Task (World α) Unit) (hook : Event → Task (World α) Unit) (r : RunRequest)
    (w : World α) (fault : Fault) (hcode : Undisturbed app sleep hook r.executionId)
    (hopen : ((app.engineWithin limit sleep).opening r w).1 = .ok ())
    (hending : ((app.engineWithin limit sleep).attempted r hook w).1 = .error fault)
    (hfault : ∀ message, fault ≠ .cancelled message) :
    let e := app.engineWithin limit sleep
    let final := (e.execute r hook).runOn w
    (FailedBy w.database r.executionId fault final ↔ fault.isTimeout = false ∧ fault.unlogged? = none) ∧
    (fault.isTimeout = true → ∃ now,
      FailedBy w.database r.executionId
        (.failure (.executionTimeout (.str r.executionId) e.timeLimitJson now)) final) ∧
    (∀ other, fault.unlogged? = some other → final.1 = .error other ∧
      ∃ record, (loadRun r.executionId).runOn final.2 = (.ok record, final.2) ∧
        record.row.status = .running ∧ record.row.errorCode = none ∧ record.row.errorMessage = none ∧
        (w.database.Eventless r.executionId →
          ∀ event ∈ record.events, event.eventType ≠ EventKind.failed.label)) := by
  intro e final
  obtain ⟨sh, hsh, hrunning⟩ := attempted_running hcode hopen
  have hrows := Share.rows_ne_nil hrunning.rows
  let now := (e.attempted r hook w).2.world.now
  rcases Option.eq_none_or_eq_some fault.unlogged? with hlogged | ⟨other, hunlogged⟩
  · obtain ⟨w', hrun, hshare⟩ :=
      execute_failed hopen hsh hrows hending (leavesOpen_of_logged hlogged hfault)
    have hfinal : final = (.error (e.raised r.executionId now fault), w') := hrun
    have hfailed : FailedBy w.database r.executionId (e.raised r.executionId now fault) final := by
      rw [hfinal]
      exact failedBy_of_recorded hrunning hshare
    refine ⟨⟨fun h => ?_, fun h => ?_⟩, fun htime => ⟨now, ?_⟩, fun other hother => ?_⟩
    · exact raised_eq_self_iff.mp (Except.error.inj (hfailed.raised.symm.trans h.raised))
    · rw [raised_eq_self_iff.mpr h] at hfailed
      exact hfailed
    · rw [Engine.raised, if_pos htime] at hfailed
      exact hfailed
    · cases hlogged.symm.trans hother
  · obtain ⟨hother, htime, hleft⟩ := unlogged?_some hunlogged
    obtain ⟨w', hrun, hshare⟩ := execute_open hopen hending hleft
    rw [raised_of_unlogged hunlogged] at hrun
    have hfinal : final = (.error other, w') := hrun
    rw [hfinal]
    refine ⟨⟨fun h => ?_, fun h => ?_⟩, fun hexpired => ?_, fun another hanother => ?_⟩
    · exact absurd (Except.error.inj h.raised) hother
    · cases hunlogged.symm.trans h.2
    · cases htime.symm.trans hexpired
    · cases hunlogged.symm.trans hanother
      refine ⟨rfl, _, runOn_loadRun_single (hshare.trans hsh) hrunning.rows, rfl, rfl, rfl, ?_⟩
      intro hfresh event hevent
      exact hrunning.quiet hfresh event (List.mem_mergeSort.mp hevent)

theorem failure_recorded_other :
    FailedBy emptyWorld.database "run" (.other "ValueError" "bad")
      (failingRun (.other "ValueError" "bad")) := by
  obtain ⟨hfailed, -, -⟩ := failure_recorded (raising (.other "ValueError" "bad")) none noWait noHook
    failingRequest emptyWorld (.other "ValueError" "bad") (raising_undisturbed _) rfl rfl
    (fun _ => Fault.noConfusion)
  exact hfailed.mpr ⟨rfl, rfl⟩

/-- An action that gives up waiting for something is reported as a run beyond its time limit, even if
there is no time limit; and a fault that cannot be logged is not passed on. -/
theorem failure_replaced :
    (failingRun (.timeout "no answer")).1 =
      .error (.failure (.executionTimeout (.str "run") .null ⟨0⟩)) ∧
    (failingRun clashing).1 = .error (.reservedField "error_code") ∧
    (failingRun Fault.textless).1 = .error (.other "ValueError" Fault.integerTooLong.message) := ⟨rfl, rfl, rfl⟩

end Application

end Cadence
