import Cadence.Proofs.LineUse
import Cadence.Proofs.RunEnding

/-!
# Silent applications

There are two ways to the provider, and a flag guards each: the dry run of executions, and the permission for
live verifications. An application that is built with both on the safe side makes no request, whatever it is
asked for and whatever is stored.
-/

namespace Cadence

open Workflow Storage Integration

/-! ### Calls of the integration -/

namespace Integration

variable {α : Type} {s : Service} {I : World α → Prop}

/-- Without the permission for live verifications, a verification finds out what it does from the database. -/
theorem findings_keeps_disabled (h : s.allowLive = false) (o : Owner) (r : VerifyRequest) :
    Task.Keeps I (s.findings o r) := by
  unfold Service.findings
  refine Task.Keeps.bind (Service.current_keeps _) fun token => ?_
  refine Task.Keeps.bind (Service.current_keeps _) fun phone => ?_
  dsimp only
  split
  · rw [h]
    exact Task.Keeps.pure _
  · exact Task.Keeps.pure _
  · exact Task.Keeps.pure _

theorem line_keptBySaving (o : Owner) (line : Provider.Line) :
    KeptBySaving o (fun w : World α => w.line = line) where
  drawn _ h := h
  saved _ _ _ _ _ _ h := h

theorem perform_offLine (h : s.allowLive = false) (o : Owner) (c : Call) :
    World.OffLine (s.perform o c : Task (World α) Reply) := by
  cases c with
  | verify r =>
    intro w
    have hfindings : ((s.findings o r).runOn w).2.line = w.line :=
      findings_keeps_disabled (I := fun w' => w'.line = w.line) h o r w rfl
    rw [runOn_perform_verify, Service.line_of_verify, hfindings]
  | _ =>
    exact World.offLine_of_keeps fun line =>
      perform_keeps_unverified (line_keptBySaving o line) s _ fun _ => Call.noConfusion

theorem received_of_step (h : s.allowLive = false) (step : Step) (w : World α) :
    (step.run s w).line.received = w.line.received := by
  cases step with
  | call o c => exact congrArg (·.received) (perform_offLine h o c w)
  | clock now => rfl
  | provider answer => rfl

end Integration

/-! ### Executions -/

namespace Application

variable {α : Type} {app : Application α} {limit : Option Numeral} {sleep : Binary64 → Task (World α) Unit}
  {hook : Event → Task (World α) Unit} {r : RunRequest} {w : World α}

section Executions
variable (hdispatch : ∀ call context, World.OffLine (app.registry.dispatch (·.now) call context))
  (hsleep : ∀ seconds, World.OffLine (sleep seconds)) (hhook : ∀ event, World.OffLine (hook event))
include hdispatch hsleep hhook

omit hsleep hhook in
theorem offLine_onNode (node : Node) (context : RunContext) :
    World.OffLine ((app.registry.dispatch (·.now)).onNode node context) := by
  intro w
  rcases Runtime.actionCall_cases node with hcall | hcall
  · rw [Runtime.runOn_onNode_called hcall]
    exact hdispatch _ context w
  · rw [Runtime.runOn_onNode_uncalled hcall]

theorem line_stepInvariant (node : Node) (line : Provider.Line) :
    Runtime.StepInvariant ((app.engineWithin limit sleep).surroundings r hook) r node
      (fun p => p.world.line = line) where
  told e p _ h := by
    have htold : World.OffLine (((app.engineWithin limit sleep).surroundings r hook).hook e) :=
      offLine_telling hhook e
    exact (htold p.world).trans h
  slept seconds p h := (hsleep seconds p.world).trans h
  counted _ _ h := h
  acted _ p h := by
    simp only [Runtime.acted, surroundings_dispatch]
    rw [offLine_onNode hdispatch]
    exact h

theorem line_of_attempted :
    ((app.engineWithin limit sleep).attempted r hook w).2.world.line = w.line := by
  have hstep (node : Node) : Runtime.StepInvariant ((app.engineWithin limit sleep).surroundings r hook) r node
      (fun p => p.world.line = w.line) := line_stepInvariant hdispatch hsleep hhook node w.line
  exact Engine.attempted_keeps (app.engineWithin limit sleep) r hook w hstep line_of_opening

theorem execute_offLine (r : RunRequest) : World.OffLine ((app.engineWithin limit sleep).execute r hook) := by
  intro w
  rcases hopen : ((app.engineWithin limit sleep).opening r w).1 with f | ⟨⟩
  · exact line_of_execute_refused hopen
  · rw [line_of_execute_opened hopen]
    exact line_of_attempted hdispatch hsleep hhook

theorem submit_offLine (s : Submission) : World.OffLine ((app.engine sleep).submit s hook) := by
  have hrequest : World.OffLine ((app.engine sleep).request s) := by
    unfold Engine.request
    by_cases hgiven : s.executionId.isGiven = true
    · rw [if_pos hgiven]
      exact (World.offLine_pure _).bind fun _ => World.offLine_lift _
    · rw [if_neg hgiven]
      have hdrawn : World.OffLine (Json.str <$> (app.engine sleep).freshId) := fun _ => rfl
      exact hdrawn.bind fun _ => World.offLine_lift _
  exact hrequest.bind fun r => execute_offLine hdispatch hsleep hhook r

end Executions

theorem offLine_dispatch_dryRun {services : Action.WhatsApp.Services} (hdry : services.dryRun = true)
    (clock : World α → Instant) (call : ActionCall) (context : RunContext) :
    World.OffLine ((Action.defaults services).dispatch clock call context) := by
  intro w
  rcases Action.dispatch_defaults services clock call context w with hline | ⟨-, hsends⟩
  · exact hline
  · rw [hsends]
    exact Action.WhatsApp.sendTemplate_offLine hdry _ context w

theorem flags_of_build {s : Settings} {now : Instant} (h : build s now = .ok app) :
    (∃ services, app.registry = Action.defaults services ∧ services.dryRun = s.executionDryRun) ∧
      app.integration.allowLive = s.verifyAllowLive := by
  unfold build at h
  cases hcipher : Secret.Cipher.ofKeyMaterial (some s.encryptionKey) now with
  | error f =>
    rw [hcipher] at h
    cases h
  | ok cipher =>
    rw [hcipher] at h
    cases h
    exact ⟨⟨_, rfl, rfl⟩, rfl⟩

/-! ### Histories of an application -/

/-- What happens next to an application: a workflow is executed, or something happens to its integration. -/
inductive Operation (α : Type) where
  | execute (s : Submission) (hook : Event → Task (World α) Unit)
  | integrate (step : Integration.Step)

def Operation.run (app : Application α) (sleep : Binary64 → Task (World α) Unit) (w : World α) :
    Operation α → World α
  | .execute s hook => (((app.engine sleep).submit s hook).runOn w).2
  | .integrate step => step.run app.integration w

def after (app : Application α) (sleep : Binary64 → Task (World α) Unit) (operations : List (Operation α))
    (w : World α) : World α :=
  operations.foldl (Operation.run app sleep) w

/-- The code around the executions, which is no part of the application, makes no requests itself. -/
structure Outside (sleep : Binary64 → Task (World α) Unit) (operations : List (Operation α)) : Prop where
  sleep : ∀ seconds, World.OffLine (sleep seconds)
  hooks : ∀ s hook, .execute s hook ∈ operations → ∀ event, World.OffLine (hook event)

section Histories
variable {operations : List (Operation α)}
  (hdispatch : ∀ call context, World.OffLine (app.registry.dispatch (·.now) call context))
  (hlive : app.integration.allowLive = false)
include hdispatch hlive

theorem received_of_operation {operation : Operation α} (h : Outside sleep [operation]) (w : World α) :
    (operation.run app sleep w).line.received = w.line.received := by
  cases operation with
  | execute s hook =>
    have hhook := h.hooks s hook List.mem_cons_self
    have hline := submit_offLine hdispatch h.sleep hhook s w
    exact congrArg (·.received) hline
  | integrate step => exact received_of_step hlive step w

theorem received_of_after (h : Outside sleep operations) (w : World α) :
    (app.after sleep operations w).line.received = w.line.received := by
  induction operations generalizing w with
  | nil => rfl
  | cons operation rest ih =>
    have hfirst : Outside sleep [operation] := by
      refine ⟨h.sleep, fun s hook hmem => ?_⟩
      rw [List.mem_singleton] at hmem
      exact h.hooks s hook (hmem ▸ List.mem_cons_self)
    have hrest : Outside sleep rest :=
      ⟨h.sleep, fun s hook hmem => h.hooks s hook (List.mem_cons_of_mem _ hmem)⟩
    have hstep := received_of_operation hdispatch hlive hfirst w
    exact (ih hrest _).trans hstep

end Histories

/-- An application that is built for dry runs, without the permission for live verifications, makes no request:
whatever it executes, and whatever its integration is asked for, in any order and from any world, the provider
has received what it had received before. -/
theorem received_of_safe_flags (s : Settings) (now : Instant) (app : Application α)
    (hbuild : build s now = .ok app) (hdry : s.executionDryRun = true) (hlive : s.verifyAllowLive = false)
    (sleep : Binary64 → Task (World α) Unit) (operations : List (Operation α))
    (houtside : Outside sleep operations) (w : World α) :
    (app.after sleep operations w).line.received = w.line.received := by
  obtain ⟨⟨services, hregistry, hservices⟩, hallowed⟩ := flags_of_build hbuild
  have hdispatch (call : ActionCall) (context : RunContext) :
      World.OffLine (app.registry.dispatch (·.now) call context) := by
    rw [hregistry]
    exact offLine_dispatch_dryRun (hservices.trans hdry) _ call context
  exact received_of_after hdispatch (hallowed.trans hlive) houtside w

def safeSettings : Settings := (withActions {}).settings

def welcome : Submission where
  workflow := { nodes := [⟨"welcome", actionType, [("action", .str Action.WhatsApp.name),
    ("to", .str "+15550001111"), ("template", .str "welcome"), ("phoneNumberId", .str "15550003")]⟩] }
  tenantId := .str firstClient.tenantId
  clientId := .str firstClient.clientId
  triggerType := .str "manual"

/-- A client connects, asks for a live verification, and has a template message sent. -/
def connectedAndSent : List (Operation Unit) := [
  .integrate (.call firstClient (.connect "EAAG" "15550003" none none)),
  .integrate (.call firstClient (.verify liveRequest)),
  .execute welcome noHook]

theorem received_of_safe_flags_connected :
    ∃ app : Application Unit, build safeSettings ⟨0⟩ = .ok app ∧
      safeSettings.executionDryRun = true ∧ safeSettings.verifyAllowLive = false ∧
      Outside noWait connectedAndSent ∧
      (app.after noWait connectedAndSent firstWorld).line.received = [] := by
  have houtside : Outside noWait connectedAndSent := by
    refine ⟨fun _ _ => rfl, fun s hook hmem event => ?_⟩
    simp only [connectedAndSent, List.mem_cons, List.not_mem_nil, or_false, reduceCtorEq, false_or,
      Operation.execute.injEq] at hmem
    rw [hmem.2]
    exact fun _ => rfl
  refine ⟨_, rfl, rfl, rfl, houtside, ?_⟩
  exact received_of_safe_flags safeSettings ⟨0⟩ _ rfl rfl rfl noWait connectedAndSent houtside firstWorld

end Application

end Cadence
