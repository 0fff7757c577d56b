import Cadence.Proofs.SecretDelivery
import Cadence.Proofs.TrimmedTexts

/-!
# The use of the line

Of all that an execution does, only its actions use the line to the provider: recording, drawing an id, and
reading a credential leave it as it is. Of the standard actions, only the one that sends a template message
makes a request. It makes none in a dry run and one at most otherwise, and it succeeds after a request if and
only if the provider accepted that.
-/

namespace Cadence

open Workflow Storage

namespace World

variable {α β γ : Type}

/-- A task leaves the line to the provider as it is. -/
def OffLine (t : Task (World α) β) : Prop := ∀ w, (t.runOn w).2.line = w.line

theorem OffLine.keeps {t : Task (World α) β} (h : OffLine t) (line : Provider.Line) :
    Task.Keeps (fun w => w.line = line) t := fun w hw => (h w).trans hw

theorem OffLine.leads {t : Task (World α) β} (h : OffLine t) {line : Provider.Line}
    {lost : Fault → World α → Prop} (hlost : ∀ f w, w.line = line → lost f w) :
    Task.Leads (fun w => w.line = line) t (fun _ w => w.line = line) lost := by
  intro w hw
  have hline := h w
  rcases hrun : t.runOn w with ⟨f | b, w'⟩ <;> rw [hrun] at hline
  · exact hlost f w' (hline.trans hw)
  · exact hline.trans hw

theorem offLine_of_keeps {t : Task (World α) β} (h : ∀ line, Task.Keeps (fun w => w.line = line) t) :
    OffLine t := fun w => h w.line w rfl

theorem OffLine.bind {t : Task (World α) β} {f : β → Task (World α) γ} (ht : OffLine t)
    (hf : ∀ b, OffLine (f b)) : OffLine (t >>= f) :=
  offLine_of_keeps fun line => Task.Keeps.bind (ht.keeps line) fun b => (hf b).keeps line

theorem OffLine.attempt {t : Task (World α) β} (h : OffLine t) : OffLine t.attempt := h

theorem offLine_pure (b : β) : OffLine (pure b : Task (World α) β) := fun _ => rfl

theorem offLine_throw (f : Fault) : OffLine (throw f : Task (World α) β) := fun _ => rfl

theorem offLine_get : OffLine (get : Task (World α) (World α)) := fun _ => rfl

theorem offLine_lift (o : Outcome β) : OffLine (liftM o : Task (World α) β) := fun _ => rfl

theorem offLine_store (t : Instant → Task Database β) : OffLine (store t : Task (World α) β) := by
  intro w
  rw [runOn_store]

theorem offLine_decrypt (cipher : Secret.Cipher) (token : String) :
    OffLine (decrypt cipher token : Task (World α) String) :=
  offLine_get.bind fun _ => offLine_lift _

end World

/-! ### The engine -/

namespace Application

variable {α : Type} (app : Application α) (limit : Option Numeral) (sleep : Binary64 → Task (World α) Unit)
  (id : String) (executed : Nat)

theorem offLine_recordFailure (code message : String) :
    World.OffLine ((app.engineWithin limit sleep).recordFailure id code message executed) := by
  have hrecording := (World.offLine_store (α := α) (RunLog.record id .error EventKind.failed.label
    [("errorCode", .str code), ("message", .str message)])).bind fun _ =>
      World.offLine_store (RunLog.finish id ⟨.failed, executed, some code, some message⟩)
  refine hrecording.attempt.bind fun outcome => ?_
  rcases outcome with fault | ⟨⟩
  · cases fault <;> exact fun _ => rfl
  · exact World.offLine_pure _

theorem offLine_fail (f : Failure) :
    World.OffLine ((app.engineWithin limit sleep).fail id f executed : Task (World α) RunResult) := by
  unfold Engine.fail
  cases Engine.clashingField? f.context with
  | some name => exact World.offLine_throw _
  | none => exact (offLine_recordFailure app limit sleep id executed _ _).bind fun _ => World.offLine_throw _

theorem offLine_conclude (outcome : Outcome RunResult) :
    World.OffLine ((app.engineWithin limit sleep).conclude id executed outcome) := by
  have hplain (fault : Fault) := (offLine_recordFailure app limit sleep id executed "internal_error"
    fault.message).bind fun _ => World.offLine_throw (β := RunResult) fault
  rcases outcome with fault | result
  · cases fault with
    | failure f => exact offLine_fail app limit sleep id executed f
    | elapsed | timeout _ => exact World.offLine_get.bind fun _ => offLine_fail app limit sleep id executed _
    | cancelled _ => exact World.offLine_throw _
    | unreadable _ _ _ => exact World.offLine_throw _
    | _ => exact hplain _
  · exact (World.offLine_store _).bind fun _ => World.offLine_pure _

variable {app limit sleep} {hook : Event → Task (World α) Unit} {r : RunRequest} {w : World α}

theorem line_of_opening : ((app.engineWithin limit sleep).opening r w).2.line = w.line := by
  obtain ⟨fields, hrun⟩ := runOn_opening app limit sleep r w
  rw [hrun]

theorem line_of_execute_opened (hopen : ((app.engineWithin limit sleep).opening r w).1 = .ok ()) :
    (((app.engineWithin limit sleep).execute r hook).runOn w).2.line =
      ((app.engineWithin limit sleep).attempted r hook w).2.world.line := by
  rw [Engine.runOn_execute, hopen]
  exact offLine_conclude app limit sleep r.executionId _ _ _

theorem line_of_execute_refused {f : Fault}
    (hopen : ((app.engineWithin limit sleep).opening r w).1 = .error f) :
    (((app.engineWithin limit sleep).execute r hook).runOn w).2.line = w.line := by
  have hline : ((app.engineWithin limit sleep).opening r w).2.line = w.line := line_of_opening
  rw [Engine.runOn_execute, hopen]
  exact hline

theorem offLine_telling (hhook : ∀ event, World.OffLine (hook event)) (event : Event) :
    World.OffLine (((app.engineWithin limit sleep).surroundings r hook).hook event) :=
  (World.offLine_store _).bind fun _ => hhook event

end Application

/-! ### The standard actions -/

namespace Action

variable {α : Type} {services : WhatsApp.Services} {call : ActionCall} {context : RunContext} {w : World α}

theorem offLine_updateStatus (call : ActionCall) (context : RunContext) :
    World.OffLine (Crm.updateStatus call context : Task (World α) Json) := by
  unfold Crm.updateStatus
  refine (World.offLine_lift _).bind fun status => ?_
  by_cases hstatus : status = ""
  · simp only [hstatus, if_true]
    exact fun _ => rfl
  · simp only [hstatus, if_false]
    exact World.offLine_pure _

theorem offLine_sendEmail (dryRun : Bool) (call : ActionCall) (context : RunContext) :
    World.OffLine (Email.send dryRun call context : Task (World α) Json) := by
  unfold Email.send
  refine (World.offLine_lift _).bind fun recipient => (World.offLine_lift _).bind fun template => ?_
  by_cases hlacking : recipient = "" ∨ template = ""
  · simp only [hlacking, if_true]
    exact fun _ => rfl
  · simp only [hlacking, if_false]
    exact World.offLine_pure _

namespace WhatsApp

theorem offLine_accessToken (s : Services) (call : ActionCall) (context : RunContext) :
    World.OffLine (accessToken s call context : Task (World α) String) := by
  unfold accessToken
  refine (World.offLine_store _).bind fun row? => ?_
  cases row? with
  | some row => exact World.offLine_decrypt _ _
  | none => exact World.offLine_get.bind fun _ => World.offLine_throw _

/-- The request asks for the template of a call, for its recipient and in its language, or else in that of the
client. -/
def Carries (client : Provider.Client) (call : ActionCall) (context : RunContext)
    (made : Provider.Request) : Prop :=
  ∃ recipient template language, settingOrPayload call context "to" "lead.phone" = .ok recipient ∧
    settingText call "template" = .ok template ∧ settingText call "language" = .ok language ∧
    recipient ≠ "" ∧ template ≠ "" ∧
    made.body = Provider.templateBody recipient template (if language = "" then client.defaultLanguage else language)

def delivered (action : String) (response : Provider.Response) : Members := [
  ("action", .str action), ("delivered", .bool true), ("provider", .str resultProvider),
  ("response", .obj response.body)]

theorem strip_settingText {name text : String} (h : settingText call name = .ok text) : Text.strip text = text := by
  unfold settingText at h
  rw [Json.firstText] at h
  split at h
  · cases hshown : ((Members.get? call.config name).getD .null).shown with
    | error f =>
      rw [hshown] at h
      cases h
    | ok shown =>
      rw [hshown] at h
      cases h
      exact Text.strip_strip shown
  · cases h
    rfl

theorem carries_of_request {token phone recipient template language : String} {made : Provider.Request}
    (hrecipient : settingOrPayload call context "to" "lead.phone" = .ok recipient)
    (htemplate : settingText call "template" = .ok template) (hlanguage : settingText call "language" = .ok language)
    (hgiven : ¬(recipient = "" ∨ template = ""))
    (hmade : services.client.request token phone ⟨recipient, template, some language⟩ = .ok made) :
    Carries services.client call context made := by
  obtain ⟨hto, hnamed⟩ := not_or.mp hgiven
  refine ⟨recipient, template, language, hrecipient, htemplate, hlanguage, hto, hnamed, ?_⟩
  by_cases hwritable : services.client.Unwritable token phone
  · obtain ⟨f, hrefused, -⟩ := Provider.Client.request_of_unwritable hwritable ⟨recipient, template, some language⟩
    cases hrefused.symm.trans hmade
  · rw [Provider.Client.request_of_writable hwritable] at hmade
    have hspoken : services.client.languageOf ⟨recipient, template, some language⟩ =
        if language = "" then services.client.defaultLanguage else language := by
      unfold Provider.Client.languageOf
      rw [Option.getD_some, strip_settingText hlanguage]
    rw [← Except.ok.inj hmade, hspoken]

/-- An action leaves the line as it is, or it makes one request, and succeeds if and only if the provider
accepts that with a body that can be read. -/
inductive Ended (client : Provider.Client) (call : ActionCall) (context : RunContext) (line : Provider.Line) :
    Outcome Json → Provider.Line → Prop where
  | silent {o : Outcome Json} : Ended client call context line o line
  | accepted {made : Provider.Request} {answer : Provider.Answer} {response : Provider.Response}
      (carries : Carries client call context made) (answered : (line.send made).1 = .ok answer)
      (success : answer.IsSuccess) (read : client.readAnswer answer = .ok response) :
      Ended client call context line (.ok (.obj (delivered call.action response))) (line.send made).2
  | refused {made : Provider.Request} {f : Fault} (carries : Carries client call context made)
      (answered : ∀ answer, (line.send made).1 = .ok answer → answer.IsSuccess → client.Unread answer) :
      Ended client call context line (.error f) (line.send made).2

/-- How asking for one request turns out on a line, and the line after it. -/
inductive Asked (client : Provider.Client) (call : ActionCall) (context : RunContext) (line : Provider.Line) :
    Outcome Provider.Response → Provider.Line → Prop where
  | unwritten {f : Fault} : Asked client call context line (.error f) line
  | made {made : Provider.Request} (carries : Carries client call context made) :
      Asked client call context line ((line.send made).1.bind client.readAnswer) (line.send made).2

section Asked
variable {client : Provider.Client} {line line' : Provider.Line} {fault : Fault} {response : Provider.Response}

theorem Asked.ended_error (h : Asked client call context line (.error fault) line') (f : Fault) :
    Ended client call context line (.error f) line' := by
  generalize houtcome : (.error fault : Outcome Provider.Response) = outcome at h
  cases h with
  | unwritten => exact .silent
  | made carries =>
    refine .refused carries fun answer hanswer _ => ?_
    rw [hanswer] at houtcome
    exact Provider.Client.unread_of_error houtcome.symm

theorem Asked.answered (h : Asked client call context line (.ok response) line') :
    ∃ made answer, Carries client call context made ∧ (line.send made).1 = .ok answer ∧
      client.readAnswer answer = .ok response ∧ line' = (line.send made).2 := by
  generalize houtcome : (.ok response : Outcome Provider.Response) = outcome at h
  cases h with
  | unwritten => cases houtcome
  | @made made carries =>
    cases hanswer : (line.send made).1 with
    | error fault =>
      rw [hanswer] at houtcome
      cases houtcome
    | ok answer => exact ⟨made, answer, carries, hanswer, rfl, rfl⟩

theorem Asked.ended_accepted (h : Asked client call context line (.ok response) line')
    (hok : response.isOk = true) :
    Ended client call context line (.ok (.obj [("action", .str call.action), ("delivered", .bool true),
      ("provider", .str resultProvider), ("response", .obj response.body)])) line' := by
  obtain ⟨made, answer, carries, hanswer, hread, rfl⟩ := h.answered
  exact .accepted carries hanswer ((Provider.Client.isOk_iff hread).mp hok) hread

theorem Asked.ended_refused (h : Asked client call context line (.ok response) line')
    (hbad : ¬response.isOk = true) (f : Fault) : Ended client call context line (.error f) line' := by
  obtain ⟨made, answer, carries, hanswer, hread, rfl⟩ := h.answered
  refine .refused carries fun other hother hsuccess => ?_
  obtain rfl := Except.ok.inj (hanswer.symm.trans hother)
  exact absurd ((Provider.Client.isOk_iff hread).mpr hsuccess) hbad

end Asked

theorem request_asked {token phone recipient template language : String}
    (hrecipient : settingOrPayload call context "to" "lead.phone" = .ok recipient)
    (htemplate : settingText call "template" = .ok template) (hlanguage : settingText call "language" = .ok language)
    (hgiven : ¬(recipient = "" ∨ template = "")) (line : Provider.Line) (lost : Fault → World α → Prop) :
    Task.Leads (fun w : World α => w.line = line)
      (request services token phone ⟨recipient, template, some language⟩)
      (fun outcome w => Asked services.client call context line outcome w.line) lost := by
  rintro w rfl
  rw [runOn_request_eq]
  cases hmade : services.client.request token phone ⟨recipient, template, some language⟩ with
  | error f => exact .unwritten
  | ok made => exact .made (carries_of_request hrecipient htemplate hlanguage hgiven hmade)

theorem sendTemplate_ended (services : Services) (call : ActionCall) (context : RunContext)
    (line : Provider.Line) :
    Task.Leads (fun w : World α => w.line = line) (sendTemplate services call context)
      (fun v w => Ended services.client call context line (.ok v) w.line)
      (fun f w => Ended services.client call context line (.error f) w.line) := by
  have hsilent {o : Outcome Json} {w : World α} (h : w.line = line) :
      Ended services.client call context line o w.line := by
    rw [h]
    exact .silent
  have hread (text : Outcome String) : Task.Leads (fun w : World α => w.line = line)
      (liftM text : Task (World α) String) (fun read w => text = .ok read ∧ w.line = line)
      (fun f w => Ended services.client call context line (.error f) w.line) :=
    Task.Leads.lift (fun _ _ hread hw => ⟨hread, hw⟩) fun _ _ _ hw => hsilent hw
  unfold sendTemplate
  -- Up to the request the line stays as it was, and what is asked for on it decides how the action ends.
  refine Task.Leads.bind (World.offLine_get.leads fun _ _ => hsilent) fun now => (hread _).bind fun recipient =>
    Task.Leads.of_and fun hrecipient => (hread _).bind fun template => Task.Leads.of_and fun htemplate => ?_
  by_cases hgiven : recipient = "" ∨ template = ""
  · dsimp only
    rw [if_pos hgiven]
    exact Task.Leads.throw fun _ hw => hsilent hw
  · dsimp only
    rw [if_neg hgiven]
    split
    · exact Task.Leads.pure fun _ hw => hsilent hw
    · have htoken := offLine_accessToken (α := α) services call context
      refine (htoken.leads fun _ _ => hsilent).bind fun token => (hread _).bind fun phone =>
        Task.Leads.of_and fun _ => ?_
      split
      · exact Task.Leads.throw fun _ => hsilent
      · refine (hread _).bind fun language => Task.Leads.of_and fun hlanguage => ?_
        refine Task.Leads.bind (request_asked hrecipient htemplate hlanguage hgiven line _) fun outcome => ?_
        rcases outcome with fault | response
        · cases fault <;> exact Task.Leads.throw fun _ hw => hw.ended_error _
        · dsimp only
          split
          · rename_i hok
            exact Task.Leads.pure fun _ hw => hw.ended_accepted hok
          · rename_i hbad
            exact Task.Leads.throw fun _ hw => hw.ended_refused hbad _

theorem sendTemplate_offLine (hdry : services.dryRun = true) (call : ActionCall) (context : RunContext) :
    World.OffLine (sendTemplate services call context : Task (World α) Json) := by
  unfold sendTemplate
  refine World.offLine_get.bind fun now => (World.offLine_lift _).bind fun recipient =>
    (World.offLine_lift _).bind fun template => ?_
  by_cases hgiven : recipient = "" ∨ template = ""
  · dsimp only
    rw [if_pos hgiven]
    exact World.offLine_throw _
  · -- A dry run answers here, before the token is read.
    dsimp only
    rw [if_neg hgiven, if_pos hdry]
    exact World.offLine_pure _

end WhatsApp

theorem dispatch_defaults (services : WhatsApp.Services) (clock : World α → Instant) (call : ActionCall)
    (context : RunContext) (w : World α) :
    (((defaults services).dispatch clock call context).runOn w).2.line = w.line ∨
      normalizeName call.action = WhatsApp.name ∧
        ((defaults services).dispatch clock call context).runOn w =
          (WhatsApp.sendTemplate services { call with action := WhatsApp.name } context).runOn w := by
  unfold Registry.dispatch
  rw [Task.runOn_bind_ok (Task.runOn_get w)]
  by_cases hempty : normalizeName call.action = ""
  · rw [if_pos hempty]
    exact .inl rfl
  · rw [if_neg hempty]
    cases hfind : (defaults services : Registry (World α)).find? (normalizeName call.action) with
    | none => exact .inl rfl
    | some entry =>
      have hsome := List.find?_some hfind
      have hname : entry.name = normalizeName call.action := of_decide_eq_true hsome
      have hentry := List.mem_of_find?_eq_some hfind
      simp only [defaults, List.mem_cons, List.not_mem_nil, or_false] at hentry
      rcases hentry with rfl | rfl | rfl
      · have hnamed : normalizeName call.action = WhatsApp.name := hname.symm
        refine .inr ⟨hnamed, ?_⟩
        rw [hnamed]
      · exact .inl (offLine_sendEmail services.dryRun _ context w)
      · exact .inl (offLine_updateStatus _ context w)

/-- The line after a standard action is as it was, or the action sends a template message. -/
theorem dispatch_ended (services : WhatsApp.Services) (clock : World α → Instant) (call : ActionCall)
    (context : RunContext) (w : World α) :
    (((defaults services).dispatch clock call context).runOn w).2.line = w.line ∨
      normalizeName call.action = WhatsApp.name ∧
        WhatsApp.Ended services.client { call with action := WhatsApp.name } context w.line
          (((defaults services).dispatch clock call context).runOn w).1
          (((defaults services).dispatch clock call context).runOn w).2.line := by
  rcases dispatch_defaults services clock call context w with hsame | ⟨hname, hsends⟩
  · exact .inl hsame
  · have hended := WhatsApp.sendTemplate_ended services { call with action := WhatsApp.name } context w.line w rfl
    refine .inr ⟨hname, ?_⟩
    rw [hsends]
    rcases hrun : (WhatsApp.sendTemplate services { call with action := WhatsApp.name } context).runOn w with
      ⟨f | v, w'⟩ <;> rw [hrun] at hended <;> exact hended

end Action

end Cadence
