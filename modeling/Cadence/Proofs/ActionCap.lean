import Cadence.Proofs.TracedRuns
import Mathlib.Order.Basic

/-!
# The cap on actions

A cap cuts a run short and does nothing else. The run with a cap is compared with the run whose cap
leaves room for every action node: either the two are one run, or the first one is the second one up to
its entering the first action node beyond the cap, where it ends with a failure that names the node.
-/

namespace Cadence.Workflow

/-- Whether an event tells that an action node is entered. -/
def Event.entersAction (e : Event) : Bool :=
  match e.kind, e.payload.get? "nodeType" with
  | .nodeEnter, some (.str type) => type = actionType
  | _, _ => false

/-- The events up to and including the one that enters the action node of the given number, counted
from one. -/
def throughActionEntry : Nat → List Event → List Event
  | 0, _ => []
  | _ + 1, [] => []
  | n + 1, e :: rest => e :: throughActionEntry (if e.entersAction then n else n + 1) rest

def actionCount (nodes : List Node) : Nat := nodes.countP (·.type = actionType)

namespace Runtime

variable {σ : Type} {env : Surroundings σ} {r : RunRequest} {node : Node}

theorem entersAction_entry : (entry node).entersAction = decide (node.type = actionType) := rfl

theorem entersAction_about {id : String} {level : EventLevel} {kind : EventKind} {more : Members}
    (h : kind ≠ .nodeEnter) : (Event.about id level kind more).entersAction = false := by
  cases kind with
  | nodeEnter => exact absurd rfl h
  | _ => rfl

theorem throughActionEntry_append {before rest : List Event} {e : Event} {n : Nat}
    (hbefore : before.countP Event.entersAction = n) (he : e.entersAction) :
    throughActionEntry (n + 1) (before ++ e :: rest) = before ++ [e] := by
  induction before generalizing n with
  | nil =>
    subst hbefore
    simp only [List.nil_append, throughActionEntry, he, if_true, List.countP_nil]
  | cons first before ih =>
    by_cases hfirst : first.entersAction
    · rw [List.countP_cons_of_pos hfirst] at hbefore
      subst hbefore
      simp only [List.cons_append, throughActionEntry, hfirst, if_true]
      rw [ih rfl]
    · rw [List.countP_cons_of_neg hfirst] at hbefore
      simp only [List.cons_append, throughActionEntry, hfirst, Bool.false_eq_true, if_false]
      rw [ih hbefore]

/-! ### An action node -/

theorem runOn_runNode_action (isAction : node.type = actionType) (p : Progress σ) :
    (runNode env r node).runOn p =
      match tellingOutcome env (entry node) p.world with
      | .error f => (.error f, told env (entry node) p)
      | .ok () =>
        let entered := told env (entry node) p
        if r.maxActions ≤ p.actions then
          (.error (capFault r node (env.clock entered.world)), counted entered)
        else
          match (perform env r.context node).runOn (counted entered) with
          | (.ok (), q) => (.ok false, q)
          | (.error f, q) => (.error f, q) := by
  rw [runOn_runNode]
  rcases tellingOutcome env (entry node) p.world with f | ⟨⟩
  · rfl
  · simp only [body, ofName?_eq_action.mpr isAction]
    rw [Task.runOn_bind, runOn_runAction]
    by_cases h : r.maxActions ≤ p.actions
    · have h' : r.maxActions ≤ (told env (entry node) p).actions := h
      simp only [if_pos h, if_pos h']
    · have h' : ¬r.maxActions ≤ (told env (entry node) p).actions := h
      simp only [if_neg h, if_neg h']
      rcases (perform env r.context node).runOn (counted (told env (entry node) p))
        with ⟨f | ⟨⟨⟩⟩, q⟩ <;> rfl

theorem body_cap (notAction : node.type ≠ actionType) (cap : Nat) :
    body env { r with maxActions := cap } node = body env r node := by
  unfold body
  cases hn : NodeType.ofName? node.type with
  | none => rfl
  | some type =>
    cases type with
    | action => exact absurd (ofName?_eq_action.mp hn) notAction
    | _ => rfl

theorem runOn_runNode_below {cap : Nat} {p : Progress σ}
    (h : node.type = actionType → p.actions < r.maxActions ∧ p.actions < cap) :
    (runNode env { r with maxActions := cap } node).runOn p = (runNode env r node).runOn p := by
  by_cases isAction : node.type = actionType
  · obtain ⟨h₁, h₂⟩ := h isAction
    rw [runOn_runNode_action isAction, runOn_runNode_action isAction]
    simp only [if_neg (Nat.not_le.mpr h₁), if_neg (Nat.not_le.mpr h₂)]
    rfl
  · rw [runOn_runNode, runOn_runNode]
    rcases tellingOutcome env (entry node) p.world with f | ⟨⟩
    · rfl
    · simp only [body_cap isAction]

/-! ### What the trace of a run counts -/

/-- Between two nodes of a traced run, the actions counted, the action nodes entered and the dispatches
made are equally many. -/
def Balanced (p : Progress (Traced σ)) : Prop :=
  p.world.dispatches.length = p.actions ∧ p.events.countP Event.entersAction = p.actions

/-- Nothing that was told, waited for or dispatched is taken back. -/
structure Extends (p q : Progress (Traced σ)) : Prop where
  events : p.events <+: q.events
  sleeps : p.sleeps <+: q.sleeps
  dispatches : p.world.dispatches <+: q.world.dispatches

theorem Extends.refl (p : Progress (Traced σ)) : Extends p p :=
  ⟨List.prefix_rfl, List.prefix_rfl, List.prefix_rfl⟩

theorem acted_traced (node : Node) (context : RunContext) (p : Progress (Traced σ)) :
    (acted env.traced node context p).world.dispatches =
      p.world.dispatches ++ [⟨p.world.world, node, context⟩] := rfl

theorem extends_stepInvariant (p : Progress (Traced σ)) :
    StepInvariant env.traced r node (Extends p) where
  told e q _ h := ⟨h.events.trans (List.prefix_append ..), h.sleeps, h.dispatches⟩
  slept seconds q h := ⟨h.events, h.sleeps.trans (List.prefix_append ..), h.dispatches⟩
  counted _ q h := ⟨h.events, h.sleeps, h.dispatches⟩
  acted _ q h := by
    refine ⟨h.events, h.sleeps, h.dispatches.trans ?_⟩
    rw [acted_traced]
    exact List.prefix_append ..

theorem runNodes_extends (nodes : List Node) (p : Progress (Traced σ)) :
    Extends p ((runNodes env.traced r nodes).runOn p).2 :=
  runNodes_keeps (fun _ _ => extends_stepInvariant p) p (.refl p)

theorem perform_extends (env : Surroundings σ) (node : Node) (context : RunContext)
    (p : Progress (Traced σ)) :
    Extends (acted env.traced node context p)
      ((perform env.traced context node).runOn p).2 := by
  rw [runOn_perform]
  rcases ((env.traced.dispatch node context).runOn p.world).1 with f | v
  · exact .refl _
  · cases v with
    | obj result =>
      rcases runOn_emit_cases env.traced (.about node.id .info .actionExecuted result)
        (acted env.traced node context p) with hemit | hemit <;> simp only [hemit]
      · exact ⟨List.prefix_append .., List.prefix_rfl, List.prefix_rfl⟩
      · exact .refl _
    | _ => exact .refl _

theorem balanced_stepInvariant (env : Surroundings σ) (r : RunRequest) (notAction : node.type ≠ actionType)
    (n : Nat) :
    StepInvariant env.traced r node (fun p => Balanced p ∧ p.actions = n) where
  told e p he h := by
    have hquiet : e.entersAction = false := by
      cases he with
      | enter => rw [entersAction_entry, decide_eq_false notAction]
      | outcome notEnter _ _ _ => exact entersAction_about notEnter
      | executed isAction _ => exact absurd isAction notAction
    refine ⟨⟨h.1.1, ?_⟩, h.2⟩
    show (p.events ++ [e]).countP Event.entersAction = p.actions
    rw [List.countP_append, h.1.2, List.countP_singleton, hquiet]
    rfl
  slept _ _ h := h
  counted isAction := absurd isAction notAction
  acted isAction := absurd isAction notAction

theorem perform_balanced (env : Surroundings σ) (isAction : node.type = actionType) (context : RunContext)
    {p : Progress (Traced σ)} (h : Balanced p) :
    let q := ((perform env.traced context node).runOn (counted (told env.traced (entry node) p))).2
    Balanced q ∧ q.actions = p.actions + 1 := by
  have hentry : (p.events ++ [entry node]).countP Event.entersAction = p.actions + 1 := by
    rw [List.countP_append, h.2, List.countP_singleton, entersAction_entry, decide_eq_true isAction]
    rfl
  have hacted : Balanced
      (acted env.traced node context (counted (told env.traced (entry node) p))) := by
    refine ⟨?_, hentry⟩
    rw [acted_traced, List.length_append]
    exact congrArg (· + 1) h.1
  dsimp only
  rw [runOn_perform]
  rcases ((env.traced.dispatch node context).runOn
    (counted (told env.traced (entry node) p)).world).1 with f | v
  · exact ⟨hacted, rfl⟩
  · cases v with
    | obj result =>
      rcases runOn_emit_cases env.traced (.about node.id .info .actionExecuted result)
        (acted env.traced node context (counted (told env.traced (entry node) p))) with hemit | hemit <;>
        simp only [hemit]
      · refine ⟨⟨hacted.1, ?_⟩, rfl⟩
        show ((p.events ++ [entry node]) ++ [_]).countP Event.entersAction = p.actions + 1
        rw [List.countP_append, hentry, List.countP_singleton, entersAction_about (by decide)]
        rfl
      · exact ⟨hacted, rfl⟩
    | _ => exact ⟨hacted, rfl⟩

theorem runNode_within (env : Surroundings σ) (node : Node) {p : Progress (Traced σ)} (h : Balanced p)
    (hcap : p.actions ≤ r.maxActions) :
    match (runNode env.traced r node).runOn p with
    | (.ok _, q) => Balanced q ∧ q.actions ≤ r.maxActions ∧
        q.actions = p.actions + (if node.type = actionType then 1 else 0)
    | (.error _, q) => q.world.dispatches.length ≤ r.maxActions := by
  by_cases isAction : node.type = actionType
  · rw [runOn_runNode_action isAction]
    rcases tellingOutcome env.traced (entry node) p.world with f | ⟨⟩
    · exact h.1.trans_le hcap
    · by_cases hfull : r.maxActions ≤ p.actions
      · simp only [if_pos hfull]
        exact h.1.trans_le hcap
      · obtain ⟨hq, hactions⟩ := perform_balanced env isAction r.context h
        have hnext : p.actions + 1 ≤ r.maxActions := Nat.lt_of_not_le hfull
        simp only [if_neg hfull]
        rcases hr : (perform env.traced r.context node).runOn
          (counted (told env.traced (entry node) p)) with ⟨f | ⟨⟨⟩⟩, q⟩
        · rw [hr] at hq hactions
          exact (hq.1.trans hactions).trans_le hnext
        · rw [hr] at hq hactions
          exact ⟨hq, hactions.trans_le hnext, by rw [if_pos isAction]; exact hactions⟩
  · have hkept := (balanced_stepInvariant env r isAction p.actions).runNode_keeps p ⟨h, rfl⟩
    rcases hr : (runNode env.traced r node).runOn p with ⟨f | b, q⟩
    · rw [hr] at hkept
      exact (hkept.1.1.trans hkept.2).trans_le hcap
    · rw [hr] at hkept
      exact ⟨hkept.1, hkept.2.trans_le hcap, by rw [if_neg isAction]; exact hkept.2⟩

theorem runNodes_within (env : Surroundings σ) (r : RunRequest) (nodes : List Node)
    {p : Progress (Traced σ)} (h : Balanced p) (hcap : p.actions ≤ r.maxActions) :
    ((runNodes env.traced r nodes).runOn p).2.world.dispatches.length ≤ r.maxActions := by
  induction nodes generalizing p with
  | nil => exact h.1.trans_le hcap
  | cons node rest ih =>
    have hnode := runNode_within env node h hcap
    rw [runOn_runNodes_cons]
    rcases hr : (runNode env.traced r node).runOn p with ⟨f | ⟨⟨⟩⟩, q⟩ <;> rw [hr] at hnode
    · exact hnode
    · exact ih hnode.1 hnode.2.1
    · exact hnode.1.1.trans_le hnode.2.1

/-! ### Where a cap cuts -/

/-- One run stops at the cap where the other one makes the dispatch `d`: it has ended in the failure that
names the node of `d`, in the state that `d` is made in, and all it did the other run did before. -/
structure Cut {α : Type} (env : Surroundings σ) (r : RunRequest) (d : Dispatch σ)
    (capped free : Outcome α × Progress (Traced σ)) : Prop where
  outcome : capped.1 = .error (.failure
    (.executionCapExceeded (.nat r.maxActions) (some d.node.id) (env.clock d.before)))
  world : capped.2.world.world = d.before
  made : capped.2.world.dispatches.length = r.maxActions
  next : capped.2.world.dispatches ++ [d] <+: free.2.world.dispatches
  entered : ∃ before, before.countP Event.entersAction = r.maxActions ∧ capped.2.events =
    before ++ [.about d.node.id .info .nodeEnter [("nodeType", .str actionType)]]
  events : capped.2.events <+: free.2.events
  sleeps : capped.2.sleeps <+: free.2.sleeps

theorem Cut.extend {α β : Type} {d : Dispatch σ} {capped free : Outcome α × Progress (Traced σ)}
    (h : Cut env r d capped free) {capped' free' : Outcome β × Progress (Traced σ)}
    (hcapped : ∀ f, capped.1 = .error f → capped' = (.error f, capped.2))
    (hfree : Extends free.2 free'.2) : Cut env r d capped' free' := by
  rw [hcapped _ h.outcome]
  exact {
    outcome := rfl
    world := h.world
    made := h.made
    next := h.next.trans hfree.dispatches
    entered := h.entered
    events := h.events.trans hfree.events
    sleeps := h.sleeps.trans hfree.sleeps }

theorem runNode_cut (env : Surroundings σ) {cap : Nat} (isAction : node.type = actionType)
    {p : Progress (Traced σ)} (h : Balanced p) (hfull : p.actions = r.maxActions) (hcap : p.actions < cap) :
    (∃ f q, (runNode env.traced r node).runOn p = (.error f, q) ∧
      (runNode env.traced { r with maxActions := cap } node).runOn p = (.error f, q)) ∨
    ∃ d, Cut env r d ((runNode env.traced r node).runOn p)
      ((runNode env.traced { r with maxActions := cap } node).runOn p) := by
  rw [runOn_runNode_action isAction, runOn_runNode_action isAction]
  rcases tellingOutcome env.traced (entry node) p.world with f | ⟨⟩
  · exact .inl ⟨f, _, rfl, rfl⟩
  · right
    have hcontext : ({ r with maxActions := cap } : RunRequest).context = r.context := rfl
    simp only [if_pos (Nat.le_of_eq hfull.symm), if_neg (Nat.not_le.mpr hcap), hcontext]
    let entered := told env.traced (entry node) p
    have hcut : Cut env r ⟨entered.world.world, node, r.context⟩
        ((.error (capFault r node (env.clock entered.world.world)), counted entered) : Outcome Bool × _)
        (.ok false, acted env.traced node r.context (counted entered)) := {
      outcome := rfl
      world := rfl
      made := h.1.trans hfull
      next := List.prefix_rfl
      entered := by
        refine ⟨p.events, h.2.trans hfull, ?_⟩
        rw [← isAction]
        rfl
      events := List.prefix_rfl
      sleeps := List.prefix_rfl }
    have hperform := perform_extends env node r.context (counted entered)
    refine ⟨_, hcut.extend (fun f hf => ?_) ?_⟩
    · cases hf
      rfl
    · rcases hr : (perform env.traced r.context node).runOn (counted entered) with ⟨f | ⟨⟨⟩⟩, q⟩ <;>
        · rw [hr] at hperform
          exact hperform

/-- The runs of nodes under two caps, the larger of which leaves room for all of them, are one run, or
the run under the smaller cap is cut. The induction is on the nodes; below the cap a node does the same in
both runs, and the first action node at the cap decides. -/
theorem runNodes_cut (env : Surroundings σ) (r : RunRequest) {cap : Nat} (nodes : List Node)
    {p : Progress (Traced σ)} (h : Balanced p)
    (hactions : p.actions ≤ r.maxActions) (hcap : p.actions + actionCount nodes ≤ cap) :
    (runNodes env.traced r nodes).runOn p =
        (runNodes env.traced { r with maxActions := cap } nodes).runOn p ∨
      ∃ d, Cut env r d ((runNodes env.traced r nodes).runOn p)
        ((runNodes env.traced { r with maxActions := cap } nodes).runOn p) := by
  induction nodes generalizing p with
  | nil => exact .inl rfl
  | cons node rest ih =>
    have hcount : actionCount (node :: rest) =
        actionCount rest + (if node.type = actionType then 1 else 0) := by
      simp only [actionCount, List.countP_cons, decide_eq_true_eq]
    by_cases hfull : node.type = actionType ∧ p.actions = r.maxActions
    · have hroom : p.actions < cap := by
        rw [hcount, if_pos hfull.1] at hcap
        omega
      rcases runNode_cut env hfull.1 h hfull.2 hroom with ⟨f, q, h₁, h₂⟩ | ⟨d, hcut⟩
      · left
        rw [runOn_runNodes_cons, runOn_runNodes_cons, h₁, h₂]
      · right
        refine ⟨d, hcut.extend (fun f hf => ?_) ?_⟩
        · rw [runOn_runNodes_cons]
          rcases hr : (runNode env.traced r node).runOn p with ⟨f' | b, q⟩ <;> rw [hr] at hf <;> cases hf
          rfl
        · rw [runOn_runNodes_cons]
          rcases (runNode env.traced { r with maxActions := cap } node).runOn p with ⟨f' | ⟨⟨⟩⟩, q⟩
          · exact .refl q
          · exact runNodes_extends rest q
          · exact .refl q
    · have hbelow : node.type = actionType → p.actions < r.maxActions ∧ p.actions < cap := by
        intro isAction
        have hne : p.actions ≠ r.maxActions := fun heq => hfull ⟨isAction, heq⟩
        rw [hcount, if_pos isAction] at hcap
        omega
      have hnode := runNode_within env node h hactions
      rw [runOn_runNodes_cons, runOn_runNodes_cons, runOn_runNode_below hbelow]
      rcases hr : (runNode env.traced r node).runOn p with ⟨f | ⟨⟨⟩⟩, q⟩ <;> rw [hr] at hnode
      · exact .inl rfl
      · exact ih hnode.1 hnode.2.1 (by omega)
      · exact .inl rfl

theorem balanced_start (w : σ) : Balanced { world := { world := w } : Progress (Traced σ) } := ⟨rfl, rfl⟩

theorem tracedRun_cut {cap : Nat} (hcap : actionCount r.workflow.nodes ≤ cap) (w : σ) :
    tracedRun env r w = tracedRun env { r with maxActions := cap } w ∨
      ∃ d, Cut env r d (tracedRun env r w) (tracedRun env { r with maxActions := cap } w) := by
  unfold tracedRun
  rw [runOn_run, runOn_run]
  have hroom : 0 + actionCount r.workflow.nodes ≤ cap := by
    rw [Nat.zero_add]
    exact hcap
  rcases runNodes_cut env r r.workflow.nodes (balanced_start w) (Nat.zero_le _) hroom
    with heq | ⟨d, hcut⟩
  · left
    rw [heq]
  · right
    refine ⟨d, hcut.extend (fun f hf => ?_) ?_⟩
    · rcases hr : (runNodes env.traced r r.workflow.nodes).runOn { world := { world := w } }
        with ⟨f' | b, q⟩ <;> rw [hr] at hf <;> cases hf
      rfl
    · rcases (runNodes env.traced { r with maxActions := cap } r.workflow.nodes).runOn
        { world := { world := w } } with ⟨f' | b, q⟩ <;> exact .refl q

/-- No run makes more dispatches than its cap allows, however it ends. -/
theorem dispatches_within (env : Surroundings σ) (r : RunRequest) (w : σ) :
    (dispatches env r w).length ≤ r.maxActions := by
  have h := runNodes_within env r r.workflow.nodes (balanced_start w) (Nat.zero_le _)
  unfold dispatches tracedRun
  rw [runOn_run]
  rcases hr : (runNodes env.traced r r.workflow.nodes).runOn { world := { world := w } } with ⟨f | b, q⟩ <;>
    · rw [hr] at h
      exact h

theorem run_eq_traced (env : Surroundings σ) (r : RunRequest) (w : σ) :
    (run env r).runOn { world := w } = ((tracedRun env r w).1, (tracedRun env r w).2.untraced) :=
  (tracedRun_untraced env r w).symm

theorem Cut.dispatches_take {cap : Nat} {d : Dispatch σ} {w : σ}
    (h : Cut env r d (tracedRun env r w) (tracedRun env { r with maxActions := cap } w)) :
    dispatches env r w = (dispatches env { r with maxActions := cap } w).take r.maxActions ∧
      (dispatches env { r with maxActions := cap } w)[r.maxActions]? = some d := by
  obtain ⟨rest, hrest⟩ := h.next
  have hmade : (dispatches env r w).length = r.maxActions := h.made
  have hfree : dispatches env { r with maxActions := cap } w = dispatches env r w ++ d :: rest := by
    rw [dispatches, ← hrest, List.append_assoc]
    rfl
  rw [hfree, ← hmade]
  refine ⟨List.take_left.symm, ?_⟩
  rw [List.getElem?_append_right (Nat.le_refl _), Nat.sub_self]
  rfl

theorem Cut.events_through {α : Type} {d : Dispatch σ} {capped free : Outcome α × Progress (Traced σ)}
    (h : Cut env r d capped free) :
    capped.2.events = throughActionEntry (r.maxActions + 1) free.2.events ∧
      capped.2.events.getLast? =
        some (.about d.node.id .info .nodeEnter [("nodeType", .str actionType)]) := by
  obtain ⟨before, hcount, hcapped⟩ := h.entered
  obtain ⟨rest, hrest⟩ := h.events
  rw [hcapped, List.append_assoc, List.singleton_append] at hrest
  refine ⟨?_, ?_⟩
  · rw [hcapped, ← hrest, throughActionEntry_append hcount rfl]
  · rw [hcapped, List.getLast?_concat]

/-- A cap only truncates. If the run whose cap leaves room for every action node makes no more dispatches
than a smaller cap allows, then the run under the smaller cap is that run. Otherwise it makes exactly the
dispatches that are allowed, tells exactly the events through the entry of the next action node, and fails
there with the name of the node, in the state that the node's action would have been dispatched in. -/
theorem cap_only_truncates (env : Surroundings σ) (r : RunRequest) (cap : Nat)
    (hcap : actionCount r.workflow.nodes ≤ cap) (w : σ) :
    let free := { r with maxActions := cap }
    let capped := (run env r).runOn { world := w }
    let uncapped := (run env free).runOn { world := w }
    ((dispatches env free w).length ≤ r.maxActions →
      capped = uncapped ∧ dispatches env r w = dispatches env free w) ∧
    (∀ d, (dispatches env free w)[r.maxActions]? = some d →
      dispatches env r w = (dispatches env free w).take r.maxActions ∧
      capped.1 = .error (.failure
        (.executionCapExceeded (.nat r.maxActions) (some d.node.id) (env.clock d.before))) ∧
      capped.2.world = d.before ∧
      capped.2.events = throughActionEntry (r.maxActions + 1) uncapped.2.events ∧
      capped.2.events.getLast? =
        some (.about d.node.id .info .nodeEnter [("nodeType", .str actionType)]) ∧
      capped.2.sleeps <+: uncapped.2.sleeps) ∧
    (dispatches env r w).length ≤ r.maxActions := by
  intro free capped uncapped
  have hcapped : capped = _ := run_eq_traced env r w
  have huncapped : uncapped = _ := run_eq_traced env free w
  rcases tracedRun_cut hcap w with heq | ⟨d, hcut⟩
  · have hsame : dispatches env r w = dispatches env free w := by
      rw [dispatches, heq, dispatches]
    refine ⟨fun _ => ⟨by rw [hcapped, heq, ← huncapped], hsame⟩, fun d hd => ?_,
      dispatches_within env r w⟩
    -- one run makes the dispatches of the other, so none is beyond the cap
    obtain ⟨hlong, -⟩ := List.getElem?_eq_some_iff.mp hd
    rw [← hsame] at hlong
    exact absurd (dispatches_within env r w) (Nat.not_le.mpr hlong)
  · obtain ⟨htake, hd⟩ := hcut.dispatches_take
    obtain ⟨hevents, hlast⟩ := hcut.events_through
    refine ⟨fun hshort => ?_, fun d' hd' => ?_, dispatches_within env r w⟩
    · obtain ⟨hlong, -⟩ := List.getElem?_eq_some_iff.mp hd
      exact absurd hshort (Nat.not_le.mpr hlong)
    · cases hd.symm.trans hd'
      rw [hcapped, huncapped]
      exact ⟨htake, hcut.outcome, hcut.world, hevents, hlast, hcut.sleeps⟩

/-- Surroundings that count the dispatches made, and refuse nothing. -/
def counting : Surroundings Nat where
  clock _ := ⟨0⟩
  dispatch _ _ := do
    modify (· + 1)
    return .obj []
  sleep _ := return ()
  hook _ := return ()

def twoActions : RunRequest where
  workflow := { nodes := [⟨"first", actionType, []⟩, ⟨"second", actionType, []⟩] }
  tenantId := "tenant"
  clientId := "client"
  triggerType := "manual"
  executionId := "run"
  maxActions := 1

theorem cap_truncates_twoActions :
    actionCount twoActions.workflow.nodes ≤ 2 ∧
      (dispatches counting twoActions 0).map (·.node.id) = ["first"] ∧
      ((run counting twoActions).runOn { world := 0 }).1 =
        .error (.failure (.executionCapExceeded (.nat 1) (some "second") ⟨0⟩)) := by
  have hcap : actionCount twoActions.workflow.nodes ≤ 2 := by decide
  obtain ⟨-, hcut, -⟩ := cap_only_truncates counting twoActions 2 hcap 0
  obtain ⟨htake, hfail, -⟩ := hcut ⟨1, ⟨"second", actionType, []⟩, twoActions.context⟩ rfl
  exact ⟨hcap, by rw [htake]; rfl, hfail⟩

end Runtime

end Cadence.Workflow
