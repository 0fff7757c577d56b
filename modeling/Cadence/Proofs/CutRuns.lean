import Cadence.Proofs.FiledEvents
import Cadence.Proofs.RefusedExecutions
import Cadence.Proofs.RunComposition

/-!
# Runs that time out

A run whose waiting does not end before the time limit is the ordinary run up to its first delay that takes time.
There it is cut: the delay is entered, the time limit passes, and nothing of a later node happens. A run that
meets no such delay does not look at how long waiting takes.
-/

namespace Cadence

open Workflow Storage

namespace Workflow

variable {σ : Type}

/-- The same surroundings with another way of waiting. -/
def Surroundings.sleeping (env : Surroundings σ) (sleep : Binary64 → Task σ Unit) : Surroundings σ :=
  { env with sleep := sleep }

namespace Runtime

variable {env : Surroundings σ} {sleep : Binary64 → Task σ Unit} {r : RunRequest} {node d : Node}
  {before after : List Node} {p q : Progress σ}

/-- Whether a node is a delay that takes time. -/
def waits (node : Node) : Bool :=
  NodeType.ofName? node.type = some .delay &&
    match delayMs (setting node "ms") with
    | .ok requested => (Numeral.whole 0).isLess (appliedMs requested)
    | .error _ => false

theorem waits_iff : waits node = true ↔ NodeType.ofName? node.type = some .delay ∧
    ∃ requested, delayMs (setting node "ms") = .ok requested ∧
      (Numeral.whole 0).isLess (appliedMs requested) = true := by
  unfold waits
  rw [Bool.and_eq_true, decide_eq_true_eq]
  cases delayMs (setting node "ms") <;> simp

/-! ### Nodes that take no time -/

theorem runDelay_sleeping (type : NodeType.ofName? node.type = some .delay) (h : waits node = false) :
    runDelay (env.sleeping sleep) node = runDelay env node := by
  funext p
  show (runDelay (env.sleeping sleep) node).runOn p = (runDelay env node).runOn p
  rw [runOn_runDelay, runOn_runDelay]
  cases hrequested : delayMs (setting node "ms") with
  | error f => rfl
  | ok requested =>
    have hshort : ¬(Numeral.whole 0).isLess (appliedMs requested) = true := fun hlong => by
      rw [waits_iff.mpr ⟨type, requested, hrequested, hlong⟩] at h
      cases h
    dsimp only
    rw [if_neg hshort, if_neg hshort]
    rfl

theorem runNode_sleeping (h : waits node = false) :
    runNode (env.sleeping sleep) r node = runNode env r node := by
  have hbody : body (env.sleeping sleep) r node = body env r node := by
    unfold body
    cases type : NodeType.ofName? node.type with
    | none => rfl
    | some kind =>
      cases kind with
      | delay =>
        dsimp only
        rw [runDelay_sleeping type h]
      | _ => rfl
  funext p
  show (runNode (env.sleeping sleep) r node).runOn p = (runNode env r node).runOn p
  rw [runOn_runNode, runOn_runNode, hbody]
  rfl

theorem runNodes_sleeping {nodes : List Node} (h : ∀ node ∈ nodes, waits node = false) :
    runNodes (env.sleeping sleep) r nodes = runNodes env r nodes := by
  induction nodes with
  | nil => rfl
  | cons node rest ih =>
    obtain ⟨hnode, hrest⟩ := List.forall_mem_cons.mp h
    rw [runNodes, runNodes, runNode_sleeping hnode, ih hrest]

/-! ### A delay that takes time -/

theorem runNodes_append_passed (h : (runNodes env r before).runOn p = (.ok none, q)) (nodes : List Node) :
    (runNodes env r (before ++ nodes)).runOn p = (runNodes env r nodes).runOn q := by
  rw [runNodes_append, h]

theorem runNodes_append_ended {ending : Outcome (Option String)} (h : (runNodes env r before).runOn p = (ending, q))
    (hending : ending ≠ .ok none) (nodes : List Node) : (runNodes env r (before ++ nodes)).runOn p = (ending, q) := by
  rw [runNodes_append, h]
  split
  · rename_i hnone
    exact absurd (congrArg Prod.fst hnone) hending
  · rfl

/-- Where waiting runs out of time, a run that reaches a delay that takes time ends there. -/
theorem runNodes_elapsed (hsleep : ∀ seconds w, (env.sleep seconds).runOn w = (.error .elapsed, w))
    (hentered : tellingOutcome env (entry d) q.world = .ok ()) (hwaits : waits d = true)
    (hbefore : (runNodes env r before).runOn p = (.ok none, q)) :
    ∃ sleeps, (runNodes env r (before ++ d :: after)).runOn p =
      (.error .elapsed, { told env (entry d) q with sleeps := sleeps }) := by
  obtain ⟨type, requested, hrequested, hlong⟩ := waits_iff.mp hwaits
  have hdelay (p : Progress σ) :
      ∃ sleeps, (runDelay env d).runOn p = (.error .elapsed, { p with sleeps := sleeps }) := by
    rw [runOn_runDelay, hrequested]
    dsimp only
    rw [if_pos hlong, slept, hsleep]
    exact ⟨_, rfl⟩
  obtain ⟨sleeps, hslept⟩ := hdelay (told env (entry d) q)
  have hnode : (runNode env r d).runOn q = (.error .elapsed, { told env (entry d) q with sleeps := sleeps }) := by
    rw [runOn_runNode, hentered]
    unfold body
    rw [type]
    exact Task.runOn_bind_error hslept
  refine ⟨sleeps, ?_⟩
  rw [runNodes_append_passed hbefore, runOn_runNodes_cons, hnode]

/-- However waiting turns out, the run tells of the delay when it reaches it. -/
theorem prefix_runNodes_events (hbefore : (runNodes env r before).runOn p = (.ok none, q)) :
    q.events ++ [entry d] <+: ((runNodes env r (before ++ d :: after)).runOn p).2.events := by
  have htoldSince : ToldSince env r d q.events ((runNode env r d).runOn q).2 := runNode_toldSince q
  obtain ⟨group, hentered, -⟩ := htoldSince
  have hstart : q.events ++ [entry d] <+: ((runNode env r d).runOn q).2.events :=
    ⟨group, by rw [hentered, List.append_assoc]; rfl⟩
  rw [runNodes_append_passed hbefore, runOn_runNodes_cons]
  rcases hnode : (runNode env r d).runOn q with ⟨f | ⟨⟨⟩⟩, q'⟩ <;> rw [hnode] at hstart
  · exact hstart
  · obtain ⟨entered, groups, -, hevents, -⟩ := runNodes_grouped env r after q'
    rw [hevents]
    exact hstart.trans (List.prefix_append _ _)
  · exact hstart

/-! ### Whole runs -/

theorem run_of_runNodes {env' : Surroundings σ}
    (h : (runNodes env' r r.workflow.nodes).runOn p = (runNodes env r r.workflow.nodes).runOn p) :
    (run env' r).runOn p = (run env r).runOn p := by
  rw [runOn_run, runOn_run, h]

theorem run_events : ((run env r).runOn p).2.events = ((runNodes env r r.workflow.nodes).runOn p).2.events := by
  rw [runOn_run]
  rcases (runNodes env r r.workflow.nodes).runOn p with ⟨f | stoppedAt, q⟩ <;> rfl

theorem run_sleeping (h : ∀ node ∈ r.workflow.nodes, waits node = false) :
    (run (env.sleeping sleep) r).runOn p = (run env r).runOn p :=
  run_of_runNodes (by rw [runNodes_sleeping h])

section Reached
variable (split : r.workflow.nodes = before ++ d :: after) (first : ∀ node ∈ before, waits node = false)
include split first

/-- A run that ends before the delay does not wait. -/
theorem run_sleeping_of_ended (hended : ((runNodes env r before).runOn p).1 ≠ .ok none) :
    (run (env.sleeping sleep) r).runOn p = (run env r).runOn p := by
  refine run_of_runNodes ?_
  have hsame : (runNodes (env.sleeping sleep) r before).runOn p = (runNodes env r before).runOn p := by
    rw [runNodes_sleeping first]
  rw [split, runNodes_append_ended hsame hended, runNodes_append_ended rfl hended]

theorem run_elapsed (h : env.NeverInterrupts) (hsleep : ∀ seconds w, (sleep seconds).runOn w = (.error .elapsed, w))
    (hwaits : waits d = true) (hbefore : (runNodes env r before).runOn p = (.ok none, q)) :
    ∃ sleeps, (run (env.sleeping sleep) r).runOn p =
      (.error .elapsed, { told env (entry d) q with sleeps := sleeps }) := by
  have hsame : (runNodes (env.sleeping sleep) r before).runOn p = (.ok none, q) := by
    rw [runNodes_sleeping first, hbefore]
  have hentered : tellingOutcome (env.sleeping sleep) (entry d) q.world = .ok () :=
    tellingOutcome_of_neverInterrupts h _ _
  obtain ⟨sleeps, hcut⟩ := runNodes_elapsed hsleep hentered hwaits hsame
  refine ⟨sleeps, ?_⟩
  rw [runOn_run, split, hcut]
  rfl

end Reached

theorem run_over (nodes : List Node) :
    (run env (r.over nodes)).runOn p =
      match (runNodes env r nodes).runOn p with
      | (.ok stoppedAt, q) =>
        (.ok ⟨r.executionId, if stoppedAt.isSome then .stopped else .completed, q.actions, stoppedAt⟩, q)
      | (.error f, q) => (.error f, q) := by
  rw [runOn_run, runNodes_over]
  rfl

/-- A run of some nodes that completes has passed all of them. -/
theorem runNodes_of_completed {nodes : List Node} {result : RunResult}
    (hok : ((run env (r.over nodes)).runOn p).1 = .ok result) (hcompleted : result.status = .completed) :
    (runNodes env r nodes).runOn p = (.ok none, ((run env (r.over nodes)).runOn p).2) := by
  rw [run_over] at hok ⊢
  rcases hnodes : (runNodes env r nodes).runOn p with ⟨f | stoppedAt, q⟩ <;> rw [hnodes] at hok <;> cases hok
  cases stoppedAt with
  | none => rfl
  | some _ => cases hcompleted

theorem completed_of_runNodes {nodes : List Node} (h : ((runNodes env r nodes).runOn p).1 = .ok none) :
    ∃ result, ((run env (r.over nodes)).runOn p).1 = .ok result ∧ result.status = .completed := by
  rw [run_over]
  rcases hnodes : (runNodes env r nodes).runOn p with ⟨f | stoppedAt, q⟩ <;> rw [hnodes] at h <;> cases h
  exact ⟨_, rfl, rfl⟩

/-! ### Dispatches -/

theorem runNodes_traced (nodes : List Node) (w : σ) :
    ((runNodes env.traced r nodes).runOn { world := { world := w } }).1 =
      ((runNodes env r nodes).runOn { world := w }).1 :=
  ((traced_sameSteps env).runNodes_agrees nodes { world := { world := w } } { world := w } rfl).1

theorem NeverInterrupts.traced (h : env.NeverInterrupts) : env.traced.NeverInterrupts :=
  fun e w fault hfault => h e w.world fault hfault

theorem dispatches_sleeping (h : ∀ node ∈ r.workflow.nodes, waits node = false) (w : σ) :
    dispatches (env.sleeping sleep) r w = dispatches env r w := by
  have hrun : (run (env.traced.sleeping fun s => Traced.within (sleep s)) r).runOn { world := { world := w } } =
      tracedRun env r w := run_sleeping h
  exact congrArg (·.2.world.dispatches) hrun

theorem dispatches_sleeping_of_ended (split : r.workflow.nodes = before ++ d :: after)
    (first : ∀ node ∈ before, waits node = false) {w : σ}
    (hended : ((runNodes env r before).runOn { world := w }).1 ≠ .ok none) :
    dispatches (env.sleeping sleep) r w = dispatches env r w := by
  rw [← runNodes_traced] at hended
  have hrun : tracedRun (env.sleeping sleep) r w = tracedRun env r w := run_sleeping_of_ended split first hended
  unfold dispatches
  rw [hrun]

/-- A run that passes nothing up to a delay that takes time does not look at how long waiting takes. -/
theorem run_unwaiting {w : σ}
    (h : ∀ before d after, r.workflow.nodes = before ++ d :: after → waits d = true →
      (∀ node ∈ before, waits node = false) → ((runNodes env r before).runOn { world := w }).1 ≠ .ok none) :
    (run (env.sleeping sleep) r).runOn { world := w } = (run env r).runOn { world := w } ∧
      dispatches (env.sleeping sleep) r w = dispatches env r w := by
  cases hfind : r.workflow.nodes.find? waits with
  | none =>
    have hshort : ∀ node ∈ r.workflow.nodes, waits node = false := fun node hnode =>
      Bool.eq_false_iff.mpr (List.find?_eq_none.mp hfind node hnode)
    exact ⟨run_sleeping hshort, dispatches_sleeping hshort w⟩
  | some d =>
    obtain ⟨hwaits, before, after, split, first⟩ := List.find?_eq_some_iff_append.mp hfind
    have hshort : ∀ node ∈ before, waits node = false := fun node hnode => by
      simpa only [Bool.not_eq_true'] using first node hnode
    have hended := h before d after split hwaits hshort
    exact ⟨run_sleeping_of_ended split hshort hended, dispatches_sleeping_of_ended split hshort hended⟩

/-- A run that is cut dispatches what a run of the nodes before does. -/
theorem dispatches_elapsed (h : env.NeverInterrupts)
    (hsleep : ∀ seconds w, (sleep seconds).runOn w = (.error .elapsed, w))
    (split : r.workflow.nodes = before ++ d :: after) (first : ∀ node ∈ before, waits node = false)
    (hwaits : waits d = true) {w : σ} (hbefore : ((runNodes env r before).runOn { world := w }).1 = .ok none) :
    dispatches (env.sleeping sleep) r w = dispatches env (r.over before) w := by
  rw [← runNodes_traced] at hbefore
  obtain ⟨result, hok, hcompleted⟩ := completed_of_runNodes hbefore
  have hsleep' (seconds : Binary64) (s : Traced σ) :
      (Traced.within (sleep seconds)).runOn s = (.error .elapsed, s) := by
    rw [Traced.runOn_within, hsleep]
  obtain ⟨sleeps, hcut⟩ := run_elapsed split first (NeverInterrupts.traced h) hsleep' hwaits
    (runNodes_of_completed hok hcompleted)
  have hrun : tracedRun (env.sleeping sleep) r w = _ := hcut
  unfold dispatches
  rw [hrun]
  rfl

end Runtime

end Workflow

/-! ### Time limits -/

theorem Numeral.isLess_zero_of_positive {m : Numeral} (h : (Numeral.whole 0).isLess m = true) :
    m.isLess (.whole 0) = false := by
  unfold isLess at h ⊢
  rw [decide_eq_true_eq] at h
  rw [decide_eq_false_iff_not]
  cases m with
  | whole i =>
    simp only [compare?, Option.some_inj, Std.compare_eq_lt] at h ⊢
    omega
  | binary x =>
    simp only [compare?] at h ⊢
    rcases hx : x.compareInt? 0 with _ | order <;> rw [hx] at h
    · cases h
    · cases order with
      | gt => decide
      | lt | eq => cases h

/-! ### Named events -/

namespace Storage

variable {told : List Event} {new : List EventRow}

/-- Where a column can hold every node, all that was told is filed. -/
theorem filed_of_named (h : ∀ e ∈ told, (namedNode? e.payload).isSome) :
    filed told = (told.zipIdx 1).map fun (e, number) => (number, e.content) := by
  unfold filed
  rw [← List.filterMap_eq_map]
  refine List.filterMap_congr fun ⟨e, number⟩ hentry => ?_
  obtain ⟨node, hnode⟩ := Option.isSome_iff_exists.mp (h e (List.fst_mem_of_mem_zipIdx hentry))
  simp only [hnode, Option.map_some, Function.comp_apply]

theorem numbers_of_filed (h : ∀ e ∈ told, (namedNode? e.payload).isSome)
    (hnew : new.map (fun row => (row.sequence, row.content)) = filed told) :
    new.map (·.sequence) = List.range' 1 new.length ∧ new.map EventRow.content = told.map Event.content := by
  rw [filed_of_named h] at hnew
  have hlength : new.length = told.length := by
    have hlengths := congrArg List.length hnew
    rwa [List.length_map, List.length_map, List.length_zipIdx] at hlengths
  constructor
  · have hnumbers := congrArg (List.map Prod.fst) hnew
    rw [List.map_map, List.map_map] at hnumbers
    rw [hlength, ← List.zipIdx_map_snd 1 told]
    exact hnumbers
  · have hcontents := congrArg (List.map Prod.snd) hnew
    rw [List.map_map, List.map_map] at hcontents
    conv_rhs => rw [← List.zipIdx_map_fst 1 told, List.map_map]
    exact hcontents

theorem Share.Files.failed {earlier : List EventRow} {sh : Share} (h : sh.Files earlier told) (id : String)
    (fault : Fault) (now : Instant) :
    (sh.noted (Application.failedRow id sh.last fault now)).Files earlier
      (told ++ [Application.failureEvent fault]) := by
  have hnode : namedNode? (Application.failureEvent fault).payload = some none := rfl
  exact h.noted hnode

end Storage

namespace Application

variable {α : Type} {app : Application α} {limit : Numeral} {hook : Event → Task (World α) Unit} {r : RunRequest}
  {w : World α} {before after : List Node} {d : Node}

/-- The engine under a time limit, where waiting is over at once or takes longer than the limit. -/
def engineWaiting (app : Application α) (limit : Numeral) (waiting : Waiting) : Engine (World α) :=
  app.engineWithin (some limit) fun _ => waiting.task

/-- The run of a request reaches a delay that takes time, and none before. -/
structure ReachesDelay (app : Application α) (limit : Numeral) (hook : Event → Task (World α) Unit) (r : RunRequest)
    (w : World α) (before : List Node) (d : Node) (after : List Node) : Prop where
  opened : ((app.engineWaiting limit .instant).opening r w).1 = .ok ()
  split : r.workflow.nodes = before ++ d :: after
  waits : Runtime.waits d = true
  first : ∀ node ∈ before, Runtime.waits node = false
  reached : ∃ result, ((app.engineWaiting limit .instant).attempted (r.over before) hook w).1 = .ok result ∧
    result.status = .completed

theorem surroundings_neverInterrupts
    (hhook : ∀ event w fault, ((hook event).runOn w).1 = .error fault → fault.Loggable) :
    ((app.engineWaiting limit .instant).surroundings r hook).NeverInterrupts := by
  have hnever := telling_neverInterrupts app (fun _ => none) (some limit) (fun _ => Waiting.instant.task) r hhook
  rw [engineRefusing_none] at hnever
  exact hnever

section Positive
variable (hlimit : (Numeral.whole 0).isLess limit = true)
include hlimit

theorem not_isExpired (waiting : Waiting) : ¬(app.engineWaiting limit waiting).isExpired = true := by
  intro hexpired
  have hless : limit.isLess (.whole 0) = true := hexpired
  rw [Numeral.isLess_zero_of_positive hlimit] at hless
  cases hless

theorem attempted_waiting (waiting : Waiting) :
    (app.engineWaiting limit waiting).attempted r hook w =
      (Runtime.run (((app.engineWaiting limit .instant).surroundings r hook).sleeping fun _ => waiting.task) r).runOn
        { world := ((app.engineWaiting limit .instant).opening r w).2 } := by
  unfold Engine.attempted Engine.attemptRun
  rw [if_neg (not_isExpired hlimit waiting)]
  rfl

theorem calls_waiting (waiting : Waiting) :
    (app.engineWaiting limit waiting).calls r hook w =
      match ((app.engineWaiting limit .instant).opening r w).1 with
      | .ok () => (Runtime.dispatches (((app.engineWaiting limit .instant).surroundings r hook).sleeping
          fun _ => waiting.task) r ((app.engineWaiting limit .instant).opening r w).2).filterMap Dispatch.call?
      | .error _ => [] := by
  rw [Engine.calls_eq, if_neg (not_isExpired hlimit waiting)]
  rfl

/-- Without a delay to reach, the time limit does not matter. -/
theorem run_uncut (hnone : ∀ before d after, ¬ReachesDelay app limit hook r w before d after) :
    ((app.engineWaiting limit .endless).execute r hook).runOn w =
        ((app.engineWaiting limit .instant).execute r hook).runOn w ∧
      (app.engineWaiting limit .endless).calls r hook w = (app.engineWaiting limit .instant).calls r hook w := by
  have hopening : (app.engineWaiting limit .endless).opening r w = (app.engineWaiting limit .instant).opening r w := rfl
  rw [Engine.runOn_execute, Engine.runOn_execute, calls_waiting hlimit, calls_waiting hlimit, hopening]
  rcases hopen : ((app.engineWaiting limit .instant).opening r w).1 with f | ⟨⟩
  · exact ⟨rfl, rfl⟩
  · let env := (app.engineWaiting limit .instant).surroundings r hook
    let endless := env.sleeping fun _ => Waiting.endless.task
    let opened := ((app.engineWaiting limit .instant).opening r w).2
    obtain ⟨hrun, hdispatches⟩ :
        (Runtime.run endless r).runOn { world := opened } = (Runtime.run env r).runOn { world := opened } ∧
          Runtime.dispatches endless r opened = Runtime.dispatches env r opened := by
      refine Runtime.run_unwaiting fun before d after split waits first hpassed => ?_
      refine hnone before d after ⟨hopen, split, waits, first, ?_⟩
      rw [attempted_waiting hlimit]
      exact Runtime.completed_of_runNodes hpassed
    have hattempted : (app.engineWaiting limit .endless).attempted r hook w =
        (app.engineWaiting limit .instant).attempted r hook w := by
      rw [attempted_waiting hlimit, attempted_waiting hlimit]
      exact hrun
    refine ⟨?_, congrArg (List.filterMap _) hdispatches⟩
    dsimp only
    unfold Engine.concluded
    rw [hattempted]
    rfl

end Positive

theorem named_stepInvariant {env : Surroundings (World α)} (node : Node)
    (hunnamed : ∀ node context w result, ((env.dispatch node context).runOn w).1 = .ok (.obj result) →
      Members.get? result "nodeId" = none) :
    Runtime.StepInvariant env r node (fun p => ∀ event ∈ p.events, (namedNode? event.payload).isSome) where
  told e p he hp event hevent := by
    rcases List.mem_append.mp hevent with hevent | hevent
    · exact hp event hevent
    · rw [List.mem_singleton.mp hevent, named_of_tells (hunnamed node) he]
      rfl
  slept _ _ hp := hp
  counted _ _ hp := hp
  acted _ _ hp := hp

theorem attempted_named {limit : Option Numeral} {sleep : Binary64 → Task (World α) Unit}
    (hactions : ∀ entry ∈ app.registry.entries, ∀ call context w result,
      ((entry.run call context).runOn w).1 = .ok (.obj result) → Members.get? result "nodeId" = none) :
    ∀ event ∈ ((app.engineWithin limit sleep).attempted r hook w).2.events, (namedNode? event.payload).isSome := by
  refine Engine.attempted_keeps (I := fun p => ∀ event ∈ p.events, (namedNode? event.payload).isSome) _ r hook w
    (fun node => named_stepInvariant node fun other context w result hresult => ?_)
    fun event hevent => absurd hevent List.not_mem_nil
  rw [surroundings_dispatch] at hresult
  obtain ⟨call, -, hcalled⟩ := Runtime.called_of_onNode_ok hresult
  rcases dispatch_cases app.registry (·.now) call context w with ⟨f, hrun⟩ | ⟨entry, hentry, named, hrun⟩ <;>
    rw [hrun] at hcalled
  · cases hcalled
  · exact hactions entry hentry named context w result hcalled

section Reaching
variable (hlimit : (Numeral.whole 0).isLess limit = true)
  (hhook : ∀ event w fault, ((hook event).runOn w).1 = .error fault → fault.Loggable)
  (hreaches : ReachesDelay app limit hook r w before d after)
include hlimit hreaches

theorem runNodes_of_reaches :
    (Runtime.runNodes ((app.engineWaiting limit .instant).surroundings r hook) r before).runOn
        { world := ((app.engineWaiting limit .instant).opening r w).2 } =
      (.ok none, ((app.engineWaiting limit .instant).attempted (r.over before) hook w).2) := by
  have hahead : (app.engineWaiting limit .instant).attempted (r.over before) hook w =
      (Runtime.run ((app.engineWaiting limit .instant).surroundings r hook) (r.over before)).runOn
        { world := ((app.engineWaiting limit .instant).opening r w).2 } := attempted_waiting hlimit .instant
  obtain ⟨result, hok, hcompleted⟩ := hreaches.reached
  rw [hahead] at hok ⊢
  exact Runtime.runNodes_of_completed hok hcompleted

theorem prefix_attempted_events :
    ((app.engineWaiting limit .instant).attempted (r.over before) hook w).2.events ++ [Runtime.entry d] <+:
      ((app.engineWaiting limit .instant).attempted r hook w).2.events := by
  have hbefore := runNodes_of_reaches hlimit hreaches
  rw [attempted_waiting hlimit (r := r), Runtime.run_events, hreaches.split]
  exact Runtime.prefix_runNodes_events hbefore

include hhook

/-- The run is cut after the delay was entered. -/
theorem attempted_cut :
    let ahead := ((app.engineWaiting limit .instant).attempted (r.over before) hook w).2
    let cut := (app.engineWaiting limit .endless).attempted r hook w
    cut.1 = .error .elapsed ∧ cut.2.events = ahead.events ++ [Runtime.entry d] ∧
      Engine.executedActions cut.2 = ahead.actions := by
  intro ahead cut
  let env := (app.engineWaiting limit .instant).surroundings r hook
  have hbefore := runNodes_of_reaches hlimit hreaches
  obtain ⟨sleeps, hcut⟩ : ∃ sleeps, cut =
      (.error .elapsed, { Runtime.told env (Runtime.entry d) ahead with sleeps := sleeps }) := by
    rw [show cut = _ from attempted_waiting hlimit .endless]
    exact Runtime.run_elapsed hreaches.split hreaches.first (surroundings_neverInterrupts hhook) (fun _ _ => rfl)
      hreaches.waits hbefore
  have hentered : Engine.executedActions (Runtime.told env (Runtime.entry d) ahead) = Engine.executedActions ahead :=
    Runtime.executedActions_told_other EventKind.noConfusion
  rw [hcut]
  exact ⟨rfl, rfl, hentered.trans (Runtime.runNodes_settled before rfl hbefore)⟩

theorem calls_cut :
    (app.engineWaiting limit .endless).calls r hook w =
      (app.engineWaiting limit .instant).calls (r.over before) hook w := by
  have hopen : ((app.engineWaiting limit .instant).opening (r.over before) w).1 = .ok () := hreaches.opened
  rw [calls_waiting hlimit, calls_waiting hlimit, hreaches.opened, hopen]
  refine congrArg (List.filterMap _) ?_
  exact Runtime.dispatches_elapsed (surroundings_neverInterrupts hhook) (fun _ _ => rfl) hreaches.split hreaches.first
    hreaches.waits (congrArg Prod.fst (runNodes_of_reaches hlimit hreaches))

end Reaching

/-- The record of an execution that fails has all that was told, and then the failure. -/
theorem loadRun_failed {limit : Option Numeral} {sleep : Binary64 → Task (World α) Unit} {fault : Fault}
    (hcode : Undisturbed app sleep hook r.executionId)
    (hopen : ((app.engineWithin limit sleep).opening r w).1 = .ok ())
    (hnamed : ∀ event ∈ ((app.engineWithin limit sleep).attempted r hook w).2.events,
      (namedNode? event.payload).isSome)
    (hending : ((app.engineWithin limit sleep).attempted r hook w).1 = .error fault)
    (hleft : fault.leavesOpen = false) :
    let attempted := ((app.engineWithin limit sleep).attempted r hook w).2
    let raised := (app.engineWithin limit sleep).raised r.executionId attempted.world.now fault
    let row := RunLog.ended (failedEnd (Engine.executedActions attempted) raised) attempted.world.now
      ((Engine.startOf r).row w.now)
    ∃ w' earlier new, ((app.engineWithin limit sleep).execute r hook).runOn w = (.error raised, w') ∧
      w.share r.executionId = some earlier ∧
      (loadRun r.executionId).runOn w' =
        (.ok ⟨row, (earlier.events ++ new).mergeSort fun a b => a.sequence ≤ b.sequence⟩, w') ∧
      new.map (·.sequence) = List.range' 1 new.length ∧
      new.map EventRow.content = (attempted.events ++ [failureEvent raised]).map Event.content := by
  intro attempted raised row
  obtain ⟨earlier, hearlier, sh, hsh, hrow, hfiles⟩ := attempted_filing hcode hopen
  obtain ⟨w', hrun, hshare⟩ := execute_failed hopen hsh (Share.rows_ne_nil hrow) hending hleft
  have hload := runOn_loadRun_single hshare (rows_withFailure hrow)
  -- The failure is filed like the events before it, and names no node.
  obtain ⟨new, hevents, hnew⟩ := (hfiles.failed r.executionId raised attempted.world.now).stored
  have hall : ∀ event ∈ attempted.events ++ [failureEvent raised], (namedNode? event.payload).isSome := by
    intro event hevent
    rcases List.mem_append.mp hevent with hevent | hevent
    · exact hnamed event hevent
    · rw [List.mem_singleton.mp hevent]
      rfl
  obtain ⟨hnumbers, hcontents⟩ := numbers_of_filed hall hnew
  refine ⟨w', earlier, new, hrun, hearlier, ?_, hnumbers, hcontents⟩
  rw [← hevents]
  exact hload

/-- Under a positive time limit, with waiting that does not end before it, an execution whose run meets no delay that
takes time is the one in which waiting is over at once. In any other execution the run is cut at the first such
delay. It raises the failure of the time limit. Its record has the events of the run of the nodes before the delay,
the entry of the delay, and the failure, and counts the actions of these nodes; nothing else is dispatched than in
the run of these nodes. -/
theorem run_cut (app : Application α) (limit : Numeral) (hook : Event → Task (World α) Unit) (r : RunRequest)
    (w : World α) (hlimit : (Numeral.whole 0).isLess limit = true)
    (hcode : Undisturbed app (fun _ => Waiting.instant.task) hook r.executionId)
    (hhook : ∀ event w fault, ((hook event).runOn w).1 = .error fault → fault.Loggable)
    (hactions : ∀ entry ∈ app.registry.entries, ∀ call context w result,
      ((entry.run call context).runOn w).1 = .ok (.obj result) → Members.get? result "nodeId" = none) :
    let instant := app.engineWaiting limit .instant
    let hanging := app.engineWaiting limit .endless
    let final := (hanging.execute r hook).runOn w
    ((∀ before d after, ¬ReachesDelay app limit hook r w before d after) →
      final = (instant.execute r hook).runOn w ∧ hanging.calls r hook w = instant.calls r hook w) ∧
    ∀ before d after, ReachesDelay app limit hook r w before d after →
      let ahead := (instant.attempted (r.over before) hook w).2
      ∃ now fault earlier new row,
        fault = .failure (.executionTimeout (.str r.executionId) (.ofNumeral limit) now) ∧
        final.1 = .error fault ∧
        w.share r.executionId = some earlier ∧
        (loadRun r.executionId).runOn final.2 =
          (.ok ⟨row, (earlier.events ++ new).mergeSort fun a b => a.sequence ≤ b.sequence⟩, final.2) ∧
        new.map (·.sequence) = List.range' 1 new.length ∧
        new.map EventRow.content =
          (ahead.events ++ [Runtime.entry d, failureEvent fault]).map Event.content ∧
        ahead.events ++ [Runtime.entry d] <+: (instant.attempted r hook w).2.events ∧
        row.status = .failed ∧ row.errorCode = some "execution_timeout" ∧ row.actionsExecuted = ahead.actions ∧
        hanging.calls r hook w = instant.calls (r.over before) hook w := by
  intro instant hanging final
  refine ⟨run_uncut hlimit, fun before d after hreaches => ?_⟩
  intro ahead
  obtain ⟨hending, htold, hexecuted⟩ := attempted_cut hlimit hhook hreaches
  have hopen : ((app.engineWithin (some limit) fun _ => Waiting.endless.task).opening r w).1 = .ok () :=
    hreaches.opened
  have hcode' : Undisturbed app (fun _ => Waiting.endless.task) hook r.executionId :=
    { hcode with sleep := fun _ _ => rfl }
  obtain ⟨w', earlier, new, hrun, hearlier, hload, hnumbers, hcontents⟩ :=
    loadRun_failed hcode' hopen (attempted_named hactions) hending rfl
  have hall : new.map EventRow.content = ((hanging.attempted r hook w).2.events ++ [_]).map Event.content := hcontents
  rw [htold, List.append_assoc] at hall
  rw [show final = _ from hrun]
  exact ⟨_, _, earlier, new, _, rfl, rfl, hearlier, hload, hnumbers, hall, prefix_attempted_events hlimit hreaches,
    rfl, rfl, congrArg Nat.cast hexecuted, calls_cut hlimit hhook hreaches⟩

/-- Acts, waits for five milliseconds and acts again. -/
def pausingRequest : RunRequest where
  workflow := { nodes := [
    ⟨"first", actionType, [("action", .str "answer")]⟩,
    ⟨"pause", "delay", [("ms", .nat 5)]⟩,
    ⟨"second", actionType, [("action", .str "answer")]⟩] }
  tenantId := "tenant"
  clientId := "client"
  triggerType := "manual"
  executionId := "run"
  maxActions := 5

theorem run_cut_pausing :
    let hanging := (answering [("status", .str "sent")]).engineWaiting (.whole 30) .endless
    let final := (hanging.execute pausingRequest noHook).runOn emptyWorld
    ∃ now row events,
      final.1 = .error (.failure (.executionTimeout (.str "run") (.ofNumeral (.whole 30)) now)) ∧
      (loadRun "run").runOn final.2 = (.ok ⟨row, events⟩, final.2) ∧
      row.status = .failed ∧ row.actionsExecuted = 1 ∧
      (hanging.calls pausingRequest noHook emptyWorld).map (·.1.nodeId) = ["first"] := by
  intro hanging final
  obtain ⟨-, hreached⟩ := run_cut (answering [("status", .str "sent")]) (.whole 30) noHook pausingRequest emptyWorld
    (by decide) (answering_undisturbed _) (fun _ _ _ hfault => by cases hfault)
    (fun entry hentry _ _ _ result hresult => by
      rw [List.mem_singleton.mp hentry] at hresult
      cases hresult
      rfl)
  obtain ⟨now, fault, earlier, new, row, rfl, hraised, -, hload, -, -, -, hstatus, -, hactions, hcalls⟩ :=
    hreached [⟨"first", actionType, [("action", .str "answer")]⟩] ⟨"pause", "delay", [("ms", .nat 5)]⟩
      [⟨"second", actionType, [("action", .str "answer")]⟩]
      ⟨rfl, rfl, by decide, by decide, _, rfl, rfl⟩
  refine ⟨now, row, _, hraised, hload, hstatus, hactions, ?_⟩
  rw [show hanging.calls pausingRequest noHook emptyWorld = _ from hcalls]
  rfl

end Application

end Cadence
