import Cadence.Proofs.ActionCount

/-!
# Runs one after the other

A run of two lists of nodes is a run of the first list and, if that is neither stopped nor ended by a
fault, a run of the second one from the state that the first left, with the actions that its cap left over.
Apart from the state, nothing but the count of actions passes from node to node.
-/

namespace Cadence.Workflow

variable {σ β : Type}

/-- The request with other nodes in its workflow. -/
def RunRequest.over (r : RunRequest) (nodes : List Node) : RunRequest :=
  { r with workflow := { r.workflow with nodes := nodes } }

/-- The request for what is left to do after some actions. -/
def RunRequest.remaining (r : RunRequest) (executed : Nat) : RunRequest :=
  { r with maxActions := r.maxActions - executed }

/-- All that was done, if a run came as far as `p` first and a run from there on as far as `q`. -/
def Progress.joined (p q : Progress σ) : Progress σ where
  world := q.world
  events := p.events ++ q.events
  sleeps := p.sleeps ++ q.sleeps
  actions := p.actions + q.actions

namespace Runtime

variable {env : Surroundings σ} {r : RunRequest} {node : Node} {p q : Progress σ}

/-! ### Nodes after nodes -/

theorem runNodes_append (ns ms : List Node) (p : Progress σ) :
    (runNodes env r (ns ++ ms)).runOn p =
      match (runNodes env r ns).runOn p with
      | (.ok none, q) => (runNodes env r ms).runOn q
      | ended => ended := by
  induction ns generalizing p with
  | nil => rfl
  | cons node rest ih =>
    rw [List.cons_append, runOn_runNodes_cons, runOn_runNodes_cons]
    rcases (runNode env r node).runOn p with ⟨f | ⟨⟨⟩⟩, q⟩
    · rfl
    · exact ih q
    · rfl

/-! ### A run from where another one ended -/

/-- Every change of a run from `p` on is the same change of a run that starts anew, put after `p`. -/
theorem joined_sameChanges (env : Surroundings σ) (p : Progress σ) :
    SameChanges env env (fun s q => s = p.joined q) where
  clock := by
    rintro _ q rfl
    rfl
  told := by
    rintro e _ q rfl
    refine ⟨rfl, ?_⟩
    simp only [told, Progress.joined, List.append_assoc]
  slept := by
    rintro seconds _ q rfl
    refine ⟨rfl, ?_⟩
    simp only [slept, Progress.joined, List.append_assoc]
  counted := by
    rintro _ q rfl
    rfl
  acted := by
    rintro call context _ q rfl
    exact ⟨rfl, rfl⟩

/-- A run that goes on from `p` does what `rest` does, which starts anew with the actions that are left.
Only at the cap the two differ, by the cap that their faults quote. -/
structure Resumes (r : RunRequest) (p : Progress σ) (rest whole : Outcome β × Progress σ) : Prop where
  progress : whole.2 = p.joined rest.2
  within : rest.2.actions ≤ r.maxActions - p.actions → whole.1 = rest.1
  beyond : r.maxActions - p.actions < rest.2.actions → ∃ node now,
    rest.1 = .error (capFault (r.remaining p.actions) node now) ∧ whole.1 = .error (capFault r node now)

namespace Resumes

variable {rest whole : Outcome β × Progress σ}

theorem of_agrees (h : whole.1 = rest.1 ∧ whole.2 = p.joined rest.2)
    (hcap : rest.2.actions ≤ r.maxActions - p.actions) : Resumes r p rest whole where
  progress := h.2
  within _ := h.1
  beyond hover := absurd hcap (Nat.not_le.mpr hover)

/-- A result is one of both, and then the cap is not exceeded. -/
theorem of_ok {b : β} (h : Resumes r p rest whole) (hok : rest.1 = .ok b) :
    whole = (.ok b, p.joined rest.2) ∧ rest.2.actions ≤ r.maxActions - p.actions := by
  have hcap : rest.2.actions ≤ r.maxActions - p.actions := by
    by_contra hover
    obtain ⟨node, now, hfault, -⟩ := h.beyond (Nat.lt_of_not_le hover)
    rw [hok] at hfault
    cases hfault
  exact ⟨Prod.ext ((h.within hcap).trans hok) h.progress, hcap⟩

theorem of_error {γ : Type} {f : Fault} (h : Resumes r p rest whole) (herror : rest.1 = .error f) :
    ∃ f', whole = (.error f', p.joined rest.2) ∧
      Resumes (β := γ) r p (.error f, rest.2) (.error f', p.joined rest.2) := by
  by_cases hcap : rest.2.actions ≤ r.maxActions - p.actions
  · have hwhole : whole = (.error f, p.joined rest.2) :=
      Prod.ext ((h.within hcap).trans herror) h.progress
    exact ⟨f, hwhole, of_agrees ⟨rfl, rfl⟩ hcap⟩
  · obtain ⟨node, now, hrest, hwhole⟩ := h.beyond (Nat.lt_of_not_le hcap)
    obtain rfl : f = _ := Except.error.inj (herror.symm.trans hrest)
    refine ⟨_, Prod.ext hwhole h.progress, rfl, fun hwithin => absurd hwithin hcap, fun _ => ?_⟩
    exact ⟨node, now, rfl, rfl⟩

end Resumes

theorem runNode_actions (notAction : node.type ≠ actionType) (q : Progress σ) :
    ((runNode env r node).runOn q).2.actions = q.actions :=
  ((counts_stepInvariant env r notAction _ _).runNode_keeps q ⟨rfl, rfl⟩).2

theorem perform_actions (env : Surroundings σ) (node : Node) (context : RunContext) (q : Progress σ) :
    ((perform env context node).runOn q).2.actions = q.actions := by
  rw [runOn_perform]
  rcases ((env.dispatch node context).runOn q.world).1 with f | v
  · rfl
  · cases v with
    | obj result =>
      rcases runOn_emit_cases env (.about node.id .info .actionExecuted result) (acted env node context q) with
        hemit | hemit <;> simp only [hemit] <;> rfl
    | _ => rfl

/-- An action within the cap does the same in both runs. -/
theorem perform_resumes (context : RunContext) (p : Progress σ) (hq : q.actions ≤ r.maxActions - p.actions) :
    Resumes r p
      (match (perform env context node).runOn q with
        | (.ok (), q) => (.ok false, q)
        | (.error f, q) => (.error f, q))
      (match (perform env context node).runOn (p.joined q) with
        | (.ok (), q) => (.ok false, q)
        | (.error f, q) => (.error f, q)) := by
  have hagrees : Task.Agrees (fun s q => s = p.joined q) (perform env context node)
      (perform env context node) := (joined_sameChanges env p).perform_agrees context
  obtain ⟨houtcome, hprogress⟩ := hagrees _ q rfl
  have hactions := perform_actions env node context q
  rcases hrest : (perform env context node).runOn q with ⟨o, q'⟩
  rw [hrest] at houtcome hprogress hactions
  have hwhole : (perform env context node).runOn (p.joined q) = (o, p.joined q') :=
    Prod.ext houtcome hprogress
  have hcap : q'.actions ≤ r.maxActions - p.actions := hactions.trans_le hq
  rw [hwhole]
  cases o with
  | ok _ => exact .of_agrees ⟨rfl, rfl⟩ hcap
  | error f => exact .of_agrees ⟨rfl, rfl⟩ hcap

theorem runNode_resumes_quiet (notAction : node.type ≠ actionType) (p : Progress σ)
    (hq : q.actions ≤ r.maxActions - p.actions) :
    Resumes r p ((runNode env (r.remaining p.actions) node).runOn q)
      ((runNode env r node).runOn (p.joined q)) := by
  have hbody : body env (r.remaining p.actions) node = body env r node := body_cap notAction _
  have hsame : runNode env (r.remaining p.actions) node = runNode env r node :=
    congrArg (emit env (entry node) >>= fun _ => ·) hbody
  have hagrees : Task.Agrees (fun s q => s = p.joined q) (runNode env r node) (runNode env r node) :=
    Task.Agrees.bind ((joined_sameChanges env p).emit_agrees _) fun _ =>
      (joined_sameChanges env p).quiet_agrees notAction
  have hactions : ((runNode env r node).runOn q).2.actions = q.actions := runNode_actions notAction q
  rw [hsame]
  exact .of_agrees (hagrees _ q rfl) (hactions.trans_le hq)

theorem runNode_resumes_action (isAction : node.type = actionType) (p : Progress σ)
    (hq : q.actions ≤ r.maxActions - p.actions) :
    Resumes r p ((runNode env (r.remaining p.actions) node).runOn q)
      ((runNode env r node).runOn (p.joined q)) := by
  obtain ⟨htelling, htold⟩ := (joined_sameChanges env p).told (entry node) _ q rfl
  rw [runOn_runNode_action isAction, runOn_runNode_action isAction, htelling, htold]
  rcases tellingOutcome env (entry node) q.world with f | ⟨⟩
  · exact .of_agrees ⟨rfl, rfl⟩ hq
  · have hcap : r.maxActions ≤ (p.joined q).actions ↔ (r.remaining p.actions).maxActions ≤ q.actions := by
      simp only [Progress.joined, RunRequest.remaining]
      omega
    by_cases hfull : (r.remaining p.actions).maxActions ≤ q.actions
    · -- both runs are at their caps, and only here each of them quotes its own
      simp only [if_pos hfull, if_pos (hcap.mpr hfull)]
      have hover : r.maxActions - p.actions < (counted (told env (entry node) q)).actions :=
        Nat.lt_succ_of_le hfull
      exact ⟨rfl, fun hwithin => absurd hwithin (Nat.not_le.mpr hover), fun _ => ⟨node, _, rfl, rfl⟩⟩
    · simp only [if_neg hfull, if_neg (mt hcap.mp hfull)]
      have hroom : (counted (told env (entry node) q)).actions ≤ r.maxActions - p.actions :=
        Nat.lt_of_not_le hfull
      exact perform_resumes r.context p hroom

theorem runNode_resumes (env : Surroundings σ) (node : Node) (p : Progress σ)
    (hq : q.actions ≤ r.maxActions - p.actions) :
    Resumes r p ((runNode env (r.remaining p.actions) node).runOn q)
      ((runNode env r node).runOn (p.joined q)) := by
  by_cases isAction : node.type = actionType
  · exact runNode_resumes_action isAction p hq
  · exact runNode_resumes_quiet isAction p hq

theorem runNodes_resumes (env : Surroundings σ) (nodes : List Node) (p : Progress σ)
    (hq : q.actions ≤ r.maxActions - p.actions) :
    Resumes r p ((runNodes env (r.remaining p.actions) nodes).runOn q)
      ((runNodes env r nodes).runOn (p.joined q)) := by
  -- What is done before the nodes is general: a node that returns leaves the rest of the cap to the others.
  induction nodes generalizing q with
  | nil => exact .of_agrees ⟨rfl, rfl⟩ hq
  | cons node rest ih =>
    have hnode := runNode_resumes env node p hq
    rw [runOn_runNodes_cons, runOn_runNodes_cons]
    rcases hrest : (runNode env (r.remaining p.actions) node).runOn q with ⟨f | stops, q'⟩ <;>
      rw [hrest] at hnode
    · obtain ⟨f', hwhole, hresumes⟩ := hnode.of_error (γ := Option String) rfl
      rw [hwhole]
      exact hresumes
    · obtain ⟨hwhole, hcap⟩ := hnode.of_ok rfl
      rw [hwhole]
      cases stops with
      | true => exact .of_agrees ⟨rfl, rfl⟩ hcap
      | false => exact ih hcap

/-! ### Runs after runs -/

/-- The end of a run as the end of one that was preceded by `executed` actions. -/
def afterActions (executed : Nat) (result : RunResult) : RunResult :=
  { result with actionsExecuted := executed + result.actionsExecuted }

/-- A run goes on where the run `first` ended: as `rest`, which starts from the state that `first` left with
the actions that are left. What is told and waited for comes after what was, and the actions add up. Where
`rest` exceeds its cap, the fault is the one that names the same node and quotes the whole cap. -/
structure Continues (r : RunRequest) (first : Progress σ) (rest whole : Outcome RunResult × Progress σ) :
    Prop where
  progress : whole.2 = first.joined rest.2
  result : ∀ result, rest.1 = .ok result → whole.1 = .ok (afterActions first.actions result)
  fault : ∀ f, rest.1 = .error f → rest.2.actions ≤ r.maxActions - first.actions → whole.1 = .error f
  capped : r.maxActions - first.actions < rest.2.actions → ∃ node now,
    rest.1 = .error (capFault (r.remaining first.actions) node now) ∧ whole.1 = .error (capFault r node now)

theorem joined_start (p : Progress σ) : p.joined { world := p.world } = p := by
  simp only [Progress.joined, List.append_nil, Nat.add_zero]

/-- The nodes of the workflow matter only to which nodes are run. -/
theorem runNodes_over (others nodes : List Node) :
    runNodes env (r.over others) nodes = runNodes env r nodes := by
  induction nodes with
  | nil => rfl
  | cons node rest ih =>
    have hnode : runNode env (r.over others) node = runNode env r node := rfl
    simp only [runNodes, hnode, ih]

theorem runNodes_actions_le {stoppedAt : Option String} {nodes : List Node} {w : σ}
    (hrun : (runNodes env r nodes).runOn { world := w } = (.ok stoppedAt, q)) : q.actions ≤ r.maxActions := by
  let start : Progress σ := { world := w }
  have hroom : start.actions ≤ r.maxActions - start.actions := Nat.zero_le _
  have hresumes := runNodes_resumes env nodes start hroom
  obtain ⟨-, hcap⟩ := hresumes.of_ok (congrArg Prod.fst hrun)
  have hend : ((runNodes env (r.remaining start.actions) nodes).runOn start).2 = q := congrArg Prod.snd hrun
  rw [hend] at hcap
  exact hcap

theorem run_continues (r : RunRequest) (nodes : List Node) (first : Progress σ) :
    Continues r first ((run env ((r.over nodes).remaining first.actions)).runOn { world := first.world })
      ((run env (r.over nodes)).runOn first) := by
  let start : Progress σ := { world := first.world }
  have hroom : start.actions ≤ (r.over nodes).maxActions - first.actions := Nat.zero_le _
  have hnodes := runNodes_resumes env nodes first hroom
  rw [joined_start] at hnodes
  rw [runOn_run, runOn_run]
  have hworkflow : ((r.over nodes).remaining first.actions).workflow.nodes = nodes := rfl
  have hworkflow' : (r.over nodes).workflow.nodes = nodes := rfl
  rw [hworkflow, hworkflow']
  rcases hrest : (runNodes env ((r.over nodes).remaining first.actions) nodes).runOn { world := first.world }
    with ⟨f | stoppedAt, q⟩ <;> rw [hrest] at hnodes
  · obtain ⟨f', hwhole, hresumes⟩ := hnodes.of_error (γ := RunResult) rfl
    rw [hwhole]
    exact {
      progress := hresumes.progress
      result := fun _ hresult => nomatch hresult
      fault := fun _ hfault hwithin => (hresumes.within hwithin).trans hfault
      capped := hresumes.beyond }
  · obtain ⟨hwhole, hcap⟩ := hnodes.of_ok rfl
    rw [hwhole]
    exact {
      progress := rfl
      result := fun _ hresult => by
        cases hresult
        rfl
      fault := fun _ hfault => nomatch hfault
      capped := fun hover => absurd hcap (Nat.not_le.mpr hover) }

/-- A run of the nodes `ns ++ ms` is a run of `ns` and, only if that one completes, a run of `ms` that
goes on where the first one ended. If the first one stops or ends in a fault, it is the whole run. -/
theorem run_append (env : Surroundings σ) (r : RunRequest) (ns ms : List Node) (w : σ) :
    let whole := (run env (r.over (ns ++ ms))).runOn { world := w }
    let first := (run env (r.over ns)).runOn { world := w }
    (∀ result, first.1 = .ok result → result.status = .completed →
      result.actionsExecuted = first.2.actions ∧ first.2.actions ≤ r.maxActions ∧
      Continues r first.2
        ((run env ((r.over ms).remaining first.2.actions)).runOn { world := first.2.world }) whole) ∧
    ((∀ result, first.1 = .ok result → result.status ≠ .completed) → whole = first) := by
  intro whole first
  have hfirst : first = _ := runOn_run { world := w }
  have hwhole : whole = _ := runOn_run { world := w }
  have hnodes : (r.over (ns ++ ms)).workflow.nodes = ns ++ ms := rfl
  have hnodes' : (r.over ns).workflow.nodes = ns := rfl
  rw [hnodes, runNodes_over, runNodes_append] at hwhole
  rw [hnodes', runNodes_over] at hfirst
  rcases hrun : (runNodes env r ns).runOn { world := w } with ⟨f | _ | stoppedAt, q⟩ <;>
    rw [hrun] at hfirst hwhole
  · refine ⟨fun result hresult => ?_, fun _ => hwhole.trans hfirst.symm⟩
    rw [hfirst] at hresult
    cases hresult
  · have hgoesOn : whole = (run env (r.over ms)).runOn q := by
      rw [hwhole, runOn_run, runNodes_over]
      rfl
    refine ⟨fun result hresult _ => ?_, fun hended => ?_⟩
    · rw [hfirst] at hresult ⊢
      cases hresult
      rw [hgoesOn]
      exact ⟨rfl, runNodes_actions_le hrun, run_continues r ms q⟩
    · exact absurd rfl (hended _ (congrArg Prod.fst hfirst))
  · refine ⟨fun result hresult hcompleted => ?_, fun _ => hwhole.trans hfirst.symm⟩
    rw [hfirst] at hresult
    cases hresult
    cases hcompleted

/-- The first of two actions uses up a cap of one. The second one, run by itself, fails with a cap of zero
where the run of both fails with a cap of one. -/
theorem run_append_twoActions : ∃ node now,
    ((run counting ((twoActions.over [⟨"second", actionType, []⟩]).remaining 1)).runOn { world := 1 }).1 =
        .error (capFault (twoActions.remaining 1) node now) ∧
      ((run counting twoActions).runOn { world := 0 }).1 = .error (capFault twoActions node now) := by
  obtain ⟨hcompleted, -⟩ :=
    run_append counting twoActions [⟨"first", actionType, []⟩] [⟨"second", actionType, []⟩] 0
  obtain ⟨-, -, hcontinues⟩ := hcompleted ⟨"run", .completed, 1, none⟩ rfl rfl
  exact hcontinues.capped (by decide)

end Runtime

end Cadence.Workflow
