import Cadence.Proofs.EchoedBodies
import Cadence.Proofs.EqualityConditions

/-!
# Faults that become responses

The envelope of a request makes a response of a fault of the handler, and leaves the logging context empty in any
case. A failure is told with its details and its context, as the server tells the failures of its routes, and any
other fault without anything of its own. What is told of a failure has to be written as JSON, and this is not tried
under the envelope again: a failure that holds something that JSON has no form for, in a place where it is told, is
answered by nothing.
-/

namespace Cadence

namespace Members

variable {β : Type}

theorem nodup_setAll {members : Members β} (h : (members.map Prod.fst).Nodup) (more : Members β) :
    ((members.setAll more).map Prod.fst).Nodup := by
  induction more generalizing members with
  | nil => exact h
  | cons member rest ih => exact ih (nodup_set h member.1 member.2)

theorem mem_of_last? {members : Members β} {name : String} {v : β} (h : members.last? name = some v) :
    (name, v) ∈ members := by
  induction members with
  | nil => cases h
  | cons member rest ih =>
    rcases Option.or_eq_some_iff.mp h with hrest | ⟨-, hfirst⟩
    · exact List.mem_cons_of_mem _ (ih hrest)
    · split at hfirst
      · rename_i hname
        exact Option.some.inj hfirst ▸ hname ▸ List.mem_cons_self
      · cases hfirst

/-- Where names are distinct, no member hides behind another one of its name. -/
theorem forall_mem_iff {members : Members β} (P : β → Prop) (hnames : (members.map Prod.fst).Nodup) :
    (∀ m ∈ members, P m.2) ↔ ∀ name v, members.get? name = some v → P v :=
  ⟨fun h name v hv => h (name, v) (mem_of_get? hv), fun h m hm => h m.1 m.2 (get?_of_mem hnames hm)⟩

end Members

namespace Http

variable {α : Type} {r : Request} {w : World α}

/-! ### What is told of a failure -/

def ownNames : List String := ["severity", "category", "recoverable", "timestamp"]

/-- All that is told of a failure can be written. What its own details replace is not told. -/
structure Tellable (f : Failure) : Prop where
  details : ∀ name detail, f.details.get? name = some detail → name ∉ ownNames → detail.obstacle? = none
  context : ∀ name detail, f.context.get? name = some detail → detail.obstacle? = none

theorem last?_ownDetails (f : Failure) (name : String) :
    f.ownDetails.last? name = none ↔ name ∉ ownNames := by
  rw [Members.last?_eq_none_iff, Members.get?_eq_none_iff]
  rfl

theorem ownDetails_written (f : Failure) : ∀ m ∈ f.ownDetails, m.2.obstacle? = none := by
  simp [Failure.ownDetails, Detail.obstacle?, Json.obstacle?]

theorem toldDetails_written_iff {f : Failure} (hnames : (f.details.map Prod.fst).Nodup) :
    (∀ m ∈ f.toldDetails, m.2.obstacle? = none) ↔
      ∀ name detail, f.details.get? name = some detail → name ∉ ownNames → detail.obstacle? = none := by
  refine (Members.forall_mem_iff (·.obstacle? = none) (Members.nodup_setAll hnames f.ownDetails)).trans ?_
  simp only [Members.get?_setAll, ← last?_ownDetails f]
  refine ⟨fun h name detail hdetail hown => h name detail ?_, fun h name detail hdetail => ?_⟩
  · rw [hown, Option.none_or, hdetail]
  · cases hown : f.ownDetails.last? name with
    | some own =>
      rw [hown, Option.some_or] at hdetail
      exact Option.some.inj hdetail ▸ ownDetails_written f (name, own) (Members.mem_of_last? hown)
    | none =>
      rw [hown, Option.none_or] at hdetail
      exact h name detail hdetail hown

theorem firstObstacle?_eq_none_iff_tellable {f : Failure} (hdetails : (f.details.map Prod.fst).Nodup)
    (hcontext : (f.context.map Prod.fst).Nodup) :
    firstObstacle? (f.toldDetails ++ f.context) = none ↔ Tellable f := by
  rw [firstObstacle?_eq_none_iff, List.forall_mem_append, toldDetails_written_iff hdetails]
  refine (and_congr_right fun _ => Members.forall_mem_iff (·.obstacle? = none) hcontext).trans ?_
  exact ⟨fun h => ⟨h.1, h.2⟩, fun h => ⟨h.details, h.context⟩⟩

/-! ### The envelope -/

/-- The id under which a request is handled: its own one, or the next fresh one. -/
def Request.idIn (r : Request) (w : World α) : String :=
  r.ownId?.getD (w.sources.identifier w.identifiersDrawn)

/-- The world that the handler of a request finds. -/
def Request.entered (r : Request) (w : World α) : World α :=
  { w with
    identifiersDrawn := if r.ownId?.isSome then w.identifiersDrawn else w.identifiersDrawn + 1
    logContext := w.logContext.setAll (r.logFields (r.idIn w)) }

theorem envelop_of_handler {handler : String → Task (World α) Response} {outcome : Outcome Response} {w' : World α}
    (h : (handler (r.idIn w)).runOn (r.entered w) = (outcome, w')) :
    (envelop r handler).runOn w =
      ((respondTo (r.idIn w) outcome).map fun response => { response with requestId := some (r.idIn w) },
        { w' with logContext := [] }) := by
  have hidentify : ∃ w₁ : World α, (identify r).runOn w = (.ok (r.idIn w), w₁) ∧
      { w₁ with logContext := w₁.logContext.setAll (r.logFields (r.idIn w)) } = r.entered w := by
    unfold identify Request.entered Request.idIn
    cases r.ownId? <;> exact ⟨_, rfl, rfl⟩
  obtain ⟨w₁, hidentify, hentered⟩ := hidentify
  unfold envelop
  rw [Task.runOn_bind_ok hidentify, Task.runOn_bind_ok (Task.runOn_modify ..), hentered, Task.runOn_attempt_bind h,
    Task.runOn_bind_ok (Task.runOn_modify ..), Task.runOn_bind_pure]
  rfl

theorem respondTo_other {fault : Fault} (hnone : ∀ f, fault ≠ .failure f) (hexception : fault.isCancellation = false)
    {requestId : String} : respondTo requestId (.error fault) = .ok (internalError requestId) := by
  cases fault with
  | failure f => exact absurd rfl (hnone f)
  | cancelled _ | elapsed => cases hexception
  | _ => rfl

/-- The answer to a failure is decided by the first of its details and its context that cannot be written. -/
theorem respondTo_failure (f : Failure) (requestId : String) :
    (respondTo requestId (.error (.failure f))).map (fun response => { response with requestId := some requestId }) =
      match firstObstacle? (f.toldDetails ++ f.context) with
      | some other => .error other
      | none => .ok ⟨f.kind.httpStatus, .json (toldBody f requestId), some requestId⟩ := by
  rw [show respondTo requestId (.error (.failure f)) = failureResponse f requestId from rfl, failureResponse,
    failureBody_eq]
  cases firstObstacle? (f.toldDetails ++ f.context) <;> rfl

/-- An answer that carries an id, in its header and in its body. -/
def Carries (requestId : String) (response : Response) : Prop :=
  response.requestId = some requestId ∧
    ∃ body, response.content = .json body ∧ body.member? "request_id" = some (.str requestId)

theorem carries_toldBody (f : Failure) (status : Nat) (requestId : String) :
    Carries requestId ⟨status, .json (toldBody f requestId), some requestId⟩ :=
  ⟨rfl, _, rfl, rfl⟩

/-- A handler that ends in a fault, other than an order to stop. The logging context is empty afterwards. A failure is
answered with its own status and all its details and context, as the server answers it for one of its routes, exactly if
all that is told of it can be written, and the first of its details and its context that cannot decides the fault
otherwise. Every other fault has one answer. All answers carry the id of the request, its own one or a fresh one. -/
theorem envelop_answers (r : Request) (handler : String → Task (World α) Response) (w : World α) (fault : Fault)
    (hfault : ((handler (r.idIn w)).runOn (r.entered w)).1 = .error fault) (hexception : fault.isCancellation = false) :
    let id := r.idIn w
    let run := (envelop r handler).runOn w
    run.2.logContext = [] ∧
    (∀ response, run.1 = .ok response → Carries id response) ∧
    ((∀ f, fault ≠ .failure f) → run.1 = .ok ⟨500, (internalError id).content, some id⟩) ∧
    ∀ f, fault = .failure f →
      (run.1 =
        match firstObstacle? (f.toldDetails ++ f.context) with
        | some other => .error other
        | none => .ok ⟨f.kind.httpStatus, .json (toldBody f id), some id⟩) ∧
      (firstObstacle? (f.toldDetails ++ f.context) = none →
        asDetails (valuesOf f.toldDetails) = f.toldDetails ∧ asDetails (valuesOf f.context) = f.context) ∧
      ((f.details.map Prod.fst).Nodup → (f.context.map Prod.fst).Nodup →
        (firstObstacle? (f.toldDetails ++ f.context) = none ↔ Tellable f)) ∧
      ∀ (s : Server α) (other : Request) (w' : World α), ((s.route other).runOn w').1 = .error (.failure f) →
        ((s.handle other id).runOn w').1.map (fun answer => { answer with requestId := some id }) = run.1 := by
  intro id run
  have hrun : run = ((respondTo id (.error fault)).map fun response => { response with requestId := some id },
      { ((handler id).runOn (r.entered w)).2 with logContext := [] }) :=
    envelop_of_handler (Prod.ext hfault rfl)
  have hother : (∀ f, fault ≠ .failure f) → run.1 = .ok ⟨500, (internalError id).content, some id⟩ := by
    intro hnone
    rw [hrun, respondTo_other hnone hexception]
    rfl
  have hfailure (f : Failure) (hf : fault = .failure f) :
      run.1 =
        match firstObstacle? (f.toldDetails ++ f.context) with
        | some other => .error other
        | none => .ok ⟨f.kind.httpStatus, .json (toldBody f id), some id⟩ := by
    rw [hrun, hf]
    exact respondTo_failure f id
  refine ⟨by rw [hrun], fun response hresponse => ?_, hother, ?_⟩
  · by_cases hnone : ∀ f, fault ≠ .failure f
    · rw [hother hnone] at hresponse
      exact Except.ok.inj hresponse ▸ ⟨rfl, _, rfl, rfl⟩
    · obtain ⟨f, hf⟩ := not_forall_not.mp hnone
      rw [hfailure f hf] at hresponse
      split at hresponse
      · cases hresponse
      · exact Except.ok.inj hresponse ▸ carries_toldBody f _ id
  · rintro f rfl
    refine ⟨hfailure f rfl, fun hnone => ?_, firstObstacle?_eq_none_iff_tellable, ?_⟩
    · rw [firstObstacle?_append, Option.or_eq_none_iff] at hnone
      exact ⟨asDetails_valuesOf hnone.1, asDetails_valuesOf hnone.2⟩
    · intro s other w' hroute
      rw [hrun, Server.handle, Task.runOn_attempt_bind (Prod.ext hroute rfl)]
      rfl

def taggedRequest : Request where
  path := "/x"
  headers := [(requestIdHeader, "req-1")]

/-- A failure with one detail of its own. -/
def detailedFailure (detail : Detail) : Failure :=
  .engine "provider is down" .medium .execution { details := [("reading", detail)] } ⟨0⟩

theorem idIn_tagged (w : World α) : taggedRequest.idIn w = "req-1" := by
  have hown : taggedRequest.ownId? = some "req-1" := by decide
  rw [Request.idIn, hown, Option.getD_some]

theorem envelop_answers_detailed :
    let f := detailedFailure (.known (.float (.zero false)))
    ((envelop taggedRequest fun _ => throw (.failure f)).runOn Application.emptyWorld).1 =
      .ok ⟨500, .json (toldBody f "req-1"), some "req-1"⟩ := by
  intro f
  obtain ⟨-, -, -, hfailure⟩ := envelop_answers taggedRequest (fun _ => throw (.failure f)) Application.emptyWorld
    (.failure f) rfl rfl
  obtain ⟨hanswer, -⟩ := hfailure f rfl
  rw [idIn_tagged] at hanswer
  exact hanswer

/-- A failure with an infinite number among its details, or with something that is no value at all, is answered by
nothing, while the error that this causes is answered if it comes from the handler. -/
theorem envelop_unwritten_detail :
    let infinite := detailedFailure (.known (.float (.infinite false)))
    let typeError := Fault.other "TypeError" "Object of type datetime is not JSON serializable"
    let foreign := detailedFailure (.unwritable typeError.label typeError.message)
    let answer (fault : Fault) := ((envelop taggedRequest fun _ => throw fault).runOn Application.emptyWorld).1
    let internal : Response := ⟨500, (internalError "req-1").content, some "req-1"⟩
    (answer (.failure infinite) = .error .numberNotFinite ∧ answer .numberNotFinite = .ok internal) ∧
      answer (.failure foreign) = .error typeError ∧ answer typeError = .ok internal := by
  intro infinite typeError foreign answer internal
  have hraise (fault : Fault) : answer fault =
      (respondTo "req-1" (.error fault)).map fun response => { response with requestId := some "req-1" } := by
    rw [show answer fault = _ from congrArg Prod.fst (envelop_of_handler (Task.runOn_throw fault _)), idIn_tagged]
  exact ⟨⟨hraise (.failure infinite), hraise .numberNotFinite⟩, hraise (.failure foreign), hraise typeError⟩

end Http

end Cadence
