import Cadence.Proofs.ActionCap
import Cadence.Proofs.LineUse
import Cadence.Proofs.RunEnding
import Mathlib.Data.List.Forall2

/-!
# Template messages of an execution

The requests of an execution are those of its template nodes, in order and at most one for each. A node whose
request the provider accepts goes on to its event, and a node whose request fails ends the run.
-/

namespace Cadence

open Workflow Storage

namespace Action.WhatsApp

open Runtime

variable {α : Type} {services : Services} {client : Provider.Client} {context : RunContext} {node : Node}

/-! ### Sendings -/

/-- The node is an action, and names the sending of template messages. -/
def SendsTemplate (node : Node) : Prop :=
  node.type = actionType ∧ normalizeName (callOf node).action = name

/-- A request that was made for a node, with what came of it. -/
structure Sending where
  node : Node
  made : Provider.Request
  answer : Outcome Provider.Answer

structure Sending.Due (client : Provider.Client) (context : RunContext) (s : Sending) : Prop where
  sends : SendsTemplate s.node
  carries : Carries client (callOf s.node) context s.made

def executed (node : Node) (response : Provider.Response) : Event :=
  .about node.id .info .actionExecuted (delivered name response)

/-- The provider accepted the request, and the event tells of that. -/
def Sending.ToldBy (client : Provider.Client) (s : Sending) (event : Event) : Prop :=
  ∃ answer response, s.answer = .ok answer ∧ answer.IsSuccess ∧ client.readAnswer answer = .ok response ∧
    event = executed s.node response

/-- The provider did not accept the request, or what it answered goes too deep to be read. -/
def Sending.Failed (client : Provider.Client) (s : Sending) : Prop :=
  ∀ answer, s.answer = .ok answer → answer.IsSuccess → client.Unread answer

/-- One line becomes another one by requests in this order, with these answers. -/
inductive Made : Provider.Line → List Sending → Provider.Line → Prop where
  | none {line : Provider.Line} : Made line [] line
  | next {line line' : Provider.Line} {s : Sending} {rest : List Sending}
      (answered : s.answer = (line.send s.made).1) (more : Made (line.send s.made).2 rest line') :
      Made line (s :: rest) line'

section Made
variable {line line' line'' : Provider.Line} {sendings rest : List Sending}

theorem Made.append (h : Made line sendings line') (hrest : Made line' rest line'') :
    Made line (sendings ++ rest) line'' := by
  induction h with
  | none => exact hrest
  | next answered _ ih => exact .next answered (ih hrest)

theorem Made.received (h : Made line sendings line') :
    line'.received = (sendings.map (·.made)).reverse ++ line.received := by
  induction h with
  | none => rfl
  | @next line line' s rest answered _ ih =>
    have hsent : (line.send s.made).2.received = s.made :: line.received := rfl
    rw [ih, hsent, List.map_cons, List.reverse_cons, List.append_assoc, List.singleton_append]

theorem Made.answers (h : Made line sendings line') :
    sendings.map (·.answer) =
      (sendings.map (·.made)).mapIdx fun i made => line.transport (line.received.length + i) made := by
  induction h with
  | none => rfl
  | @next line line' s rest answered _ ih =>
    have hlength (i : Nat) : (line.send s.made).2.received.length + i = line.received.length + (i + 1) := by
      have hsent : (line.send s.made).2.received.length = line.received.length + 1 := rfl
      omega
    simp only [hlength] at ih
    rw [List.map_cons, List.map_cons, List.mapIdx_cons, ih, answered]
    rfl

end Made

/-! ### What nodes send -/

/-- What a part of a run does on the line: the requests that were accepted, each with its event, and after them
at most one that failed, which ends the run. -/
structure Sent (client : Provider.Client) (context : RunContext) (nodes : List Node)
    (line line' : Provider.Line) (told : List Event) (raised : Prop) (accepted : List Sending)
    (failed : Option Sending) : Prop where
  made : Made line (accepted ++ failed.toList) line'
  nodes : ((accepted ++ failed.toList).map (·.node)).Sublist nodes
  due : ∀ s ∈ accepted ++ failed.toList, s.Due client context
  events : ∃ events, List.Forall₂ (Sending.ToldBy client) accepted events ∧ events.Sublist told
  ends : ∀ s ∈ failed, s.Failed client ∧ raised

section Sent
variable {nodes rest : List Node} {line line' line'' : Provider.Line} {told more : List Event} {raised : Prop}
  {accepted later : List Sending} {failed : Option Sending}

theorem Sent.nothing : Sent client context nodes line line told raised [] none where
  made := .none
  nodes := List.nil_sublist _
  due _ h := by cases h
  events := ⟨[], .nil, List.nil_sublist _⟩
  ends _ h := by cases h

theorem Sent.weaken {raised' : Prop} (h : Sent client context nodes line line' told raised accepted failed)
    (hnodes : nodes.Sublist rest) (htold : told.Sublist more) (hraised : raised → raised') :
    Sent client context rest line line' more raised' accepted failed where
  made := h.made
  nodes := h.nodes.trans hnodes
  due := h.due
  events := by
    obtain ⟨events, hall, hsub⟩ := h.events
    exact ⟨events, hall, hsub.trans htold⟩
  ends s hs := ⟨(h.ends s hs).1, hraised (h.ends s hs).2⟩

theorem Sent.append (h : Sent client context nodes line line' told False accepted none)
    (hrest : Sent client context rest line' line'' more raised later failed) :
    Sent client context (nodes ++ rest) line line'' (told ++ more) raised (accepted ++ later) failed where
  made := by
    have hfirst := h.made
    rw [Option.toList_none, List.append_nil] at hfirst
    rw [List.append_assoc]
    exact hfirst.append hrest.made
  nodes := by
    have hfirst := h.nodes
    rw [Option.toList_none, List.append_nil] at hfirst
    rw [List.append_assoc, List.map_append]
    exact hfirst.append hrest.nodes
  due s hs := by
    rw [List.append_assoc] at hs
    rcases List.mem_append.mp hs with hs | hs
    · exact h.due s (List.mem_append_left _ hs)
    · exact hrest.due s hs
  events := by
    obtain ⟨events, hall, hsub⟩ := h.events
    obtain ⟨events', hall', hsub'⟩ := hrest.events
    exact ⟨events ++ events', List.rel_append hall hall', hsub.append hsub'⟩
  ends := hrest.ends

theorem Sent.not_raised (h : Sent client context nodes line line' told raised accepted failed)
    (hraised : ¬raised) : failed = none := by
  cases failed with
  | none => rfl
  | some s => exact absurd (h.ends s rfl).2 hraised

theorem Sent.one_accepted {made : Provider.Request} {answer : Provider.Answer} {response : Provider.Response}
    (hsends : SendsTemplate node) (carries : Carries client (callOf node) context made)
    (answered : (line.send made).1 = .ok answer) (success : answer.IsSuccess)
    (read : client.readAnswer answer = .ok response) :
    Sent client context [node] line (line.send made).2 [executed node response] raised
      [⟨node, made, .ok answer⟩] none where
  made := .next answered.symm .none
  nodes := List.Sublist.refl _
  due s hs := by
    rw [List.mem_singleton.mp hs]
    exact ⟨hsends, carries⟩
  events := ⟨_, .cons ⟨answer, response, rfl, success, read, rfl⟩ .nil, List.Sublist.refl _⟩
  ends _ hs := by cases hs

theorem Sent.one_failed {made : Provider.Request} (hsends : SendsTemplate node)
    (carries : Carries client (callOf node) context made)
    (answered : ∀ answer, (line.send made).1 = .ok answer → answer.IsSuccess → client.Unread answer)
    (hraised : raised) :
    Sent client context [node] line (line.send made).2 [] raised []
      (some ⟨node, made, (line.send made).1⟩) where
  made := .next rfl .none
  nodes := List.Sublist.refl _
  due s hs := by
    rw [List.mem_singleton.mp hs]
    exact ⟨hsends, carries⟩
  events := ⟨[], .nil, List.Sublist.refl _⟩
  ends s hs := by
    cases hs
    exact ⟨answered, hraised⟩

end Sent

/-- What some nodes have told and sent, from a progress to their ending. -/
def Ending {β : Type} (client : Provider.Client) (context : RunContext) (nodes : List Node)
    (p : Progress (World α)) (ending : Outcome β × Progress (World α)) : Prop :=
  ∃ told accepted failed, ending.2.events = p.events ++ told ∧
    Sent client context nodes p.world.line ending.2.world.line told (∃ f, ending.1 = .error f) accepted failed

section Ending
variable {β γ : Type} {nodes rest : List Node} {p p' : Progress (World α)}
  {ending : Outcome β × Progress (World α)}

theorem ending_of_line_eq (hline : ending.2.world.line = p.world.line)
    (hevents : p.events <+: ending.2.events) : Ending client context nodes p ending := by
  obtain ⟨told, hevents⟩ := hevents
  refine ⟨told, [], none, hevents.symm, ?_⟩
  rw [hline]
  exact .nothing

theorem Ending.weaken {ending' : Outcome γ × Progress (World α)} (h : Ending client context nodes p ending)
    (hnodes : nodes.Sublist rest) (hlast : ending'.2 = ending.2)
    (hraised : (∃ f, ending.1 = .error f) → ∃ f, ending'.1 = .error f) :
    Ending client context rest p ending' := by
  obtain ⟨told, accepted, failed, hevents, hsent⟩ := h
  refine ⟨told, accepted, failed, ?_, ?_⟩
  · rw [hlast, hevents]
  · rw [hlast]
    exact hsent.weaken hnodes (List.Sublist.refl _) hraised

theorem Ending.ok {b : β} {c : γ} {q : Progress (World α)} (h : Ending client context nodes p (.ok b, q))
    (hnodes : nodes.Sublist rest) : Ending client context rest p ((.ok c : Outcome γ), q) := by
  refine h.weaken hnodes rfl ?_
  rintro ⟨f, hf⟩
  cases hf

theorem Ending.error {f g : Fault} {q : Progress (World α)}
    (h : Ending client context nodes p ((.error f : Outcome β), q)) (hnodes : nodes.Sublist rest) :
    Ending client context rest p ((.error g : Outcome γ), q) :=
  h.weaken hnodes rfl fun _ => ⟨g, rfl⟩

theorem Ending.before (h : Ending client context nodes p' ending) (hline : p'.world.line = p.world.line)
    (hevents : p.events <+: p'.events) : Ending client context nodes p ending := by
  obtain ⟨told, accepted, failed, hlast, hsent⟩ := h
  obtain ⟨earlier, hearlier⟩ := hevents
  refine ⟨earlier ++ told, accepted, failed, ?_, ?_⟩
  · rw [hlast, ← hearlier, List.append_assoc]
  · rw [← hline]
    exact hsent.weaken (List.Sublist.refl _) (List.sublist_append_right _ _) id

theorem Ending.append {b : β} {q : Progress (World α)} {ending' : Outcome γ × Progress (World α)}
    (h : Ending client context nodes p (.ok b, q)) (hrest : Ending client context rest q ending') :
    Ending client context (nodes ++ rest) p ending' := by
  obtain ⟨told, accepted, failed, hevents, hsent⟩ := h
  obtain ⟨more, later, failed', hmore, hlater⟩ := hrest
  have hquiet : ¬∃ f, (.ok b : Outcome β) = .error f := by
    rintro ⟨f, hf⟩
    cases hf
  obtain rfl := hsent.not_raised hquiet
  have hfirst := hsent.weaken (List.Sublist.refl _) (List.Sublist.refl _) hquiet
  refine ⟨told ++ more, accepted ++ later, failed', ?_, hfirst.append hlater⟩
  have hevents' : q.events = p.events ++ told := hevents
  rw [hmore, hevents', List.append_assoc]

end Ending

/-! ### One node -/

/-- Surroundings with the standard actions, in which nothing else uses the line. -/
structure Standard (services : Services) (env : Surroundings (World α)) : Prop where
  dispatch : ∃ clock, env.dispatch = Handler.onNode ((defaults services).dispatch clock)
  sleep : ∀ seconds, World.OffLine (env.sleep seconds)
  hook : ∀ e, World.OffLine (env.hook e)

variable {env : Surroundings (World α)} {r : RunRequest}

theorem executed_written (node : Node) {answer : Provider.Answer} {response : Provider.Response}
    (read : client.readAnswer answer = .ok response) : (executed node response).Written := by
  refine Event.about_written ?_
  simp [delivered, Json.haveWritable, Json.isWritable, Provider.Client.body_writable read]

section Dispatched
variable {p : Progress (World α)} {w' : World α} {made : Provider.Request}
  (hline : ((perform env context node).runOn p).2.world.line = (p.world.line.send made).2)
  (hsends : SendsTemplate node) (carries : Carries services.client (callOf node) context made)
include hline hsends carries

theorem ending_of_refused {f : Fault}
    (hrun : (env.dispatch node context).runOn p.world = (.error f, w'))
    (answered : ∀ answer, (p.world.line.send made).1 = .ok answer → answer.IsSuccess → services.client.Unread answer) :
    Ending services.client context [node] p ((perform env context node).runOn p) := by
  have hperform : (perform env context node).runOn p = (.error f, acted env node context p) := by
    rw [runOn_perform, hrun]
  refine ⟨[], [], some ⟨node, made, (p.world.line.send made).1⟩, ?_, ?_⟩
  · rw [hperform, List.append_nil]
    rfl
  · rw [hline]
    exact .one_failed hsends carries answered ⟨f, congrArg Prod.fst hperform⟩

theorem ending_of_accepted {answer : Provider.Answer} {response : Provider.Response}
    (hrun : (env.dispatch node context).runOn p.world = (.ok (.obj (delivered name response)), w'))
    (answered : (p.world.line.send made).1 = .ok answer) (success : answer.IsSuccess)
    (read : services.client.readAnswer answer = .ok response) :
    Ending services.client context [node] p ((perform env context node).runOn p) := by
  have hperform : (perform env context node).runOn p =
      (emit env (executed node response)).runOn (acted env node context p) := by
    rw [runOn_perform, hrun]
    rfl
  refine ⟨[executed node response], [⟨node, made, .ok answer⟩], none, ?_, ?_⟩
  · rw [hperform, runOn_emit (executed_written node read)]
    rfl
  · rw [hline]
    exact .one_accepted hsends carries answered success read

end Dispatched

section Runs
variable (h : Standard services env)
include h

theorem line_told (e : Event) (p : Progress (World α)) : (told env e p).world.line = p.world.line :=
  h.hook e p.world

theorem quiet_keeps_line (notAction : node.type ≠ actionType) (p : Progress (World α)) :
    ((runNode env r node).runOn p).2.world.line = p.world.line ∧
      p.events <+: ((runNode env r node).runOn p).2.events := by
  have hstep : StepInvariant env r node fun q => q.world.line = p.world.line ∧ p.events <+: q.events := {
    told := fun e q _ hq => ⟨(line_told h e q).trans hq.1, hq.2.trans (List.prefix_append _ _)⟩
    slept := fun seconds q hq => ⟨(h.sleep seconds q.world).trans hq.1, hq.2⟩
    counted := fun isAction => absurd isAction notAction
    acted := fun isAction => absurd isAction notAction }
  exact hstep.runNode_keeps p ⟨rfl, List.prefix_rfl⟩

theorem line_of_perform (node : Node) (context : RunContext) (p : Progress (World α)) :
    ((perform env context node).runOn p).2.world.line = ((env.dispatch node context).runOn p.world).2.line := by
  rw [runOn_perform]
  rcases ((env.dispatch node context).runOn p.world).1 with f | v
  · rfl
  · cases v with
    | obj result =>
      dsimp only
      rcases runOn_emit_cases env (.about node.id .info .actionExecuted result) (acted env node context p) with
        hemit | hemit <;> rw [hemit]
      · exact line_told h _ _
      · rfl
    | _ => rfl

omit h in
theorem events_of_perform (env : Surroundings (World α)) (node : Node) (context : RunContext) (p : Progress (World α)) :
    p.events <+: ((perform env context node).runOn p).2.events := by
  rw [runOn_perform]
  rcases ((env.dispatch node context).runOn p.world).1 with f | v
  · exact List.prefix_rfl
  · cases v with
    | obj result =>
      dsimp only
      rcases runOn_emit_cases env (.about node.id .info .actionExecuted result) (acted env node context p) with
        hemit | hemit <;> rw [hemit]
      · exact List.prefix_append _ _
      · exact List.prefix_rfl
    | _ => exact List.prefix_rfl

theorem node_ended (node : Node) (context : RunContext) (w : World α) :
    ((env.dispatch node context).runOn w).2.line = w.line ∨
      normalizeName (callOf node).action = name ∧
        Ended services.client { callOf node with action := name } context w.line
          ((env.dispatch node context).runOn w).1 ((env.dispatch node context).runOn w).2.line := by
  obtain ⟨clock, hdispatch⟩ := h.dispatch
  rw [hdispatch]
  rcases actionCall_cases node with hcall | hcall
  · rw [runOn_onNode_called hcall]
    exact dispatch_ended services clock (callOf node) context w
  · -- An action whose name has no text is not called.
    rw [runOn_onNode_uncalled hcall]
    exact .inl rfl

theorem perform_ending (isAction : node.type = actionType) (context : RunContext) (p : Progress (World α)) :
    Ending services.client context [node] p ((perform env context node).runOn p) := by
  have hline := line_of_perform h node context p
  have hevents := events_of_perform env node context p
  rcases node_ended h node context p.world with hsame | ⟨hname, hended⟩
  · exact ending_of_line_eq (hline.trans hsame) hevents
  · -- The line after the dispatch is general, so that the cases of how it ended can say what it is.
    rcases hrun : (env.dispatch node context).runOn p.world with ⟨f | v, w'⟩ <;>
      rw [hrun] at hended hline <;> dsimp only at hended hline <;>
      generalize hlast : w'.line = line' at hended
    · cases hended with
      | silent => exact ending_of_line_eq (hline.trans hlast) hevents
      | refused carries answered =>
        exact ending_of_refused (hline.trans hlast) ⟨isAction, hname⟩ carries hrun answered
    · cases hended with
      | silent => exact ending_of_line_eq (hline.trans hlast) hevents
      | accepted carries answered success read =>
        exact ending_of_accepted (hline.trans hlast) ⟨isAction, hname⟩ carries hrun answered success read

theorem runNode_ending (node : Node) (p : Progress (World α)) :
    Ending services.client r.context [node] p ((runNode env r node).runOn p) := by
  by_cases isAction : node.type = actionType
  · have hentered : (told env (entry node) p).world.line = p.world.line := line_told h _ p
    have hentry : p.events <+: (told env (entry node) p).events := List.prefix_append _ _
    rw [runOn_runNode_action isAction]
    rcases tellingOutcome env (entry node) p.world with f | ⟨⟩
    · exact ending_of_line_eq hentered hentry
    · dsimp only
      by_cases hfull : r.maxActions ≤ p.actions
      · rw [if_pos hfull]
        exact ending_of_line_eq hentered hentry
      · rw [if_neg hfull]
        have hperform := perform_ending h isAction r.context (counted (told env (entry node) p))
        rcases hrun : (perform env r.context node).runOn (counted (told env (entry node) p)) with
          ⟨f | ⟨⟨⟩⟩, q⟩ <;> rw [hrun] at hperform <;> have hbefore := hperform.before hentered hentry
        · exact hbefore.error (List.Sublist.refl _)
        · exact hbefore.ok (List.Sublist.refl _)
  · obtain ⟨hline, hevents⟩ := quiet_keeps_line h isAction p (r := r)
    exact ending_of_line_eq hline hevents

/-! ### Nodes in order -/

theorem runNodes_ending (nodes : List Node) (p : Progress (World α)) :
    Ending services.client r.context nodes p ((runNodes env r nodes).runOn p) := by
  -- The induction is on the nodes; what was sent before the first of them is general.
  induction nodes generalizing p with
  | nil => exact ending_of_line_eq rfl List.prefix_rfl
  | cons node rest ih =>
    have hnode := runNode_ending h node p (r := r)
    have hfirst : [node].Sublist (node :: rest) := List.Sublist.cons_cons _ (List.nil_sublist _)
    rw [runOn_runNodes_cons]
    rcases hrun : (runNode env r node).runOn p with ⟨f | ⟨⟨⟩⟩, q⟩ <;> rw [hrun] at hnode
    · exact hnode.error hfirst
    · exact hnode.append (ih q)
    · exact hnode.ok hfirst

theorem run_ending (p : Progress (World α)) :
    Ending services.client r.context r.workflow.nodes p ((run env r).runOn p) := by
  have hnodes := runNodes_ending h r.workflow.nodes p (r := r)
  rw [runOn_run]
  rcases hrun : (runNodes env r r.workflow.nodes).runOn p with ⟨f | stoppedAt, q⟩ <;> rw [hrun] at hnodes
  · exact hnodes.error (List.Sublist.refl _)
  · exact hnodes.ok (List.Sublist.refl _)

end Runs

end Action.WhatsApp

/-! ### Executions -/

namespace Application

open Action.WhatsApp

variable {α : Type} {services : Services} {app : Application α} {limit : Option Numeral}
  {sleep : Binary64 → Task (World α) Unit} {hook : Event → Task (World α) Unit} {r : RunRequest} {w : World α}

section Standard
variable (hstandard : app.registry = Action.defaults services)
  (hsleep : ∀ seconds, World.OffLine (sleep seconds)) (hhook : ∀ event, World.OffLine (hook event))
include hstandard hsleep hhook

theorem standard_surroundings : Standard services ((app.engineWithin limit sleep).surroundings r hook) where
  dispatch := by
    rw [surroundings_dispatch, hstandard]
    exact ⟨_, rfl⟩
  sleep := hsleep
  hook := offLine_telling hhook

theorem attempted_ending :
    Ending services.client r.context r.workflow.nodes
      { world := ((app.engineWithin limit sleep).opening r w).2 }
      ((app.engineWithin limit sleep).attempted r hook w) := by
  unfold Engine.attempted Engine.attemptRun
  split
  · exact ending_of_line_eq rfl List.prefix_rfl
  · exact run_ending (standard_surroundings hstandard hsleep hhook) _

end Standard

theorem raises_of_throw {β γ : Type} (t : Task (World α) β) (f : Fault) (w : World α) :
    ∃ raised, ((t >>= fun _ => (throw f : Task (World α) γ)).runOn w).1 = .error raised := by
  rw [Task.runOn_bind]
  rcases t.runOn w with ⟨raised | b, w'⟩
  · exact ⟨raised, rfl⟩
  · exact ⟨f, rfl⟩

theorem fail_raises (id : String) (f : Failure) (executed : Nat) (w : World α) :
    ∃ raised, (((app.engineWithin limit sleep).fail id f executed : Task (World α) RunResult).runOn w).1 =
      .error raised := by
  unfold Engine.fail
  cases Engine.clashingField? f.context with
  | some name => exact ⟨_, rfl⟩
  | none => exact raises_of_throw _ _ w

theorem conclude_raises (id : String) (executed : Nat) (fault : Fault) (w : World α) :
    ∃ raised, (((app.engineWithin limit sleep).conclude id executed (.error fault)).runOn w).1 = .error raised := by
  cases fault with
  | failure f => exact fail_raises id f executed w
  | elapsed | timeout _ =>
    rw [runOn_conclude_timeout executed _ rfl]
    exact fail_raises id _ executed w
  | cancelled _ | unreadable _ _ _ => exact ⟨_, rfl⟩
  | _ => exact raises_of_throw _ _ w

theorem execute_raises {fault : Fault} (h : ((app.engineWithin limit sleep).attempted r hook w).1 = .error fault) :
    ∃ raised, (((app.engineWithin limit sleep).execute r hook).runOn w).1 = .error raised := by
  rw [Engine.runOn_execute]
  rcases ((app.engineWithin limit sleep).opening r w).1 with f | ⟨⟩
  · exact ⟨f, rfl⟩
  · dsimp only
    rw [Engine.concluded, h]
    exact conclude_raises _ _ fault _

/-- The requests that an execution over the standard actions makes are those of some of its template nodes, one
for each and in their order, and every request carries what its node asks for. All of them but, perhaps, the last
are accepted, and are told of by the events of their nodes; if the last one fails, so does the execution. -/
theorem templates_sent (services : Services) (app : Application α)
    (hstandard : app.registry = Action.defaults services) (limit : Option Numeral)
    (sleep : Binary64 → Task (World α) Unit) (hook : Event → Task (World α) Unit) (r : RunRequest) (w : World α)
    (hsleep : ∀ seconds, World.OffLine (sleep seconds))
    (hhook : ∀ event, World.OffLine (hook event)) :
    let e := app.engineWithin limit sleep
    let final := (e.execute r hook).runOn w
    let told := (e.attempted r hook w).2.events
    ∃ (accepted : List Sending) (failed : Option Sending),
      let sendings := accepted ++ failed.toList
      Integration.newRequests w final.2 = sendings.map (·.made) ∧
      sendings.map (·.answer) =
        (sendings.map (·.made)).mapIdx (fun i made => w.line.transport (w.line.received.length + i) made) ∧
      (sendings.map (·.node)).Sublist r.workflow.nodes ∧
      (∀ s ∈ sendings, SendsTemplate s.node ∧ Carries services.client (Runtime.callOf s.node) r.context s.made) ∧
      (∃ events, List.Forall₂ (Sending.ToldBy services.client) accepted events ∧ events.Sublist told) ∧
      ∀ s ∈ failed, s.Failed services.client ∧ ∃ fault, final.1 = .error fault := by
  intro e final told
  rcases hopen : (e.opening r w).1 with f | ⟨⟩
  · have hline : final.2.line = w.line := line_of_execute_refused hopen
    refine ⟨[], none, ?_, rfl, List.nil_sublist _, fun _ hs => ?_, ⟨[], .nil, List.nil_sublist _⟩,
      fun _ hs => ?_⟩
    · exact Integration.newRequests_of_line_eq hline
    · cases hs
    · cases hs
  · have hstart : (e.opening r w).2.line = w.line := line_of_opening
    have hlast : final.2.line = (e.attempted r hook w).2.world.line := line_of_execute_opened hopen
    have hending : Ending services.client r.context r.workflow.nodes { world := (e.opening r w).2 }
        (e.attempted r hook w) := attempted_ending hstandard hsleep hhook
    obtain ⟨told', accepted, failed, hevents, hsent⟩ := hending
    have htold : told = told' := hevents
    rw [hstart, ← hlast, ← htold] at hsent
    refine ⟨accepted, failed, ?_, hsent.made.answers, hsent.nodes, fun s hs => ?_, hsent.events,
      fun s hs => ?_⟩
    · rw [Integration.newRequests_of_append hsent.made.received, List.reverse_reverse]
    · have hdue := hsent.due s hs
      exact ⟨hdue.sends, hdue.carries⟩
    · obtain ⟨hfailed, fault, hfault⟩ := hsent.ends s hs
      exact ⟨hfailed, execute_raises hfault⟩

def plainServices : Services := { cipher := ⟨id⟩, client := {}, dryRun := false }

def templateNode (id recipient : String) : Node := ⟨id, actionType, [("action", .str Action.WhatsApp.name),
  ("to", .str recipient), ("template", .str "welcome"), ("phoneNumberId", .str "15550003")]⟩

/-- Three messages, of which the second one is to fail. -/
def campaign : RunRequest where
  workflow := { nodes := [templateNode "first" "+1", templateNode "second" "+2", templateNode "third" "+3"] }
  tenantId := Integration.firstClient.tenantId
  clientId := Integration.firstClient.clientId
  triggerType := "manual"
  executionId := "run"
  maxActions := 5

/-- A client is connected to a provider that accepts one request only. -/
def onceWorld : World Unit :=
  { cipher := ⟨id⟩, client := {} : Integration.Service }.after
    [.call Integration.firstClient (.connect "EAAG" "15550003" none none)]
    { Integration.firstWorld with
      line := { transport := fun n _ => if n = 0 then .ok ⟨200, "\x7b\x7d"⟩ else .ok ⟨503, ""⟩ } }

theorem templates_sent_campaign :
    let app := withActions (Action.defaults plainServices)
    let final := ((app.engineWithin none noWait).execute campaign noHook).runOn onceWorld
    app.registry = Action.defaults plainServices ∧ (∀ seconds, World.OffLine (noWait seconds)) ∧
      (∀ event, World.OffLine (noHook event)) ∧
      (Integration.newRequests onceWorld final.2).length = 2 ∧
      ∃ (accepted : List Sending) (failed : Option Sending) (events : List Event),
        Integration.newRequests onceWorld final.2 = (accepted ++ failed.toList).map (·.made) ∧
        List.Forall₂ (Sending.ToldBy plainServices.client) accepted events := by
  intro app final
  have hsleep : ∀ seconds, World.OffLine (noWait seconds) := fun _ _ => rfl
  have hhook : ∀ event, World.OffLine (noHook event) := fun _ _ => rfl
  obtain ⟨accepted, failed, hrequests, -, -, -, ⟨events, hevents, -⟩, -⟩ :=
    templates_sent plainServices app rfl none noWait noHook campaign onceWorld hsleep hhook
  have hlength : (Integration.newRequests onceWorld final.2).length = 2 := by decide +kernel
  exact ⟨rfl, hsleep, hhook, hlength, accepted, failed, events, hrequests, hevents⟩

end Application

end Cadence
