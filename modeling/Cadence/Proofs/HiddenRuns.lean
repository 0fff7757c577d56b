import Cadence.Http.Server
import Cadence.Proofs.RunHistory
import Cadence.Proofs.WrittenFailures

/-!
# Runs of other tenants

A tenant cannot see the runs of others. A run that does not exist is a failure of the engine, which the
envelope of the request writes down, and a run of another tenant is refused by the endpoint itself. Both answers
say that the run is not found, but not with the same words.
-/

namespace Cadence

open Storage

namespace Http

variable {α : Type} {s : Server α} {app : Application α} {r : Request} {tenant id requestId : String}
  {w w' : World α}

/-- A tenant asks for the run of an id. -/
structure Asks (r : Request) (tenant id : String) : Prop where
  method : r.method = "GET"
  route : Route.find? r.path = some ⟨"GET", .run id⟩
  asker : Text.strip ((r.header? tenantHeader).getD "") = tenant
  named : tenant ≠ ""

/-- The tables are there, and no run of the tenant is recorded under the id. -/
def HiddenFrom (db : Database) (tenant id : String) : Prop :=
  ∃ t, db.tables = some t ∧ ∀ row ∈ t.runs, row.id = id → row.tenantId ≠ tenant

/-- The answer where nothing is recorded under the id. -/
def missingRun (id : String) (now : Instant) (requestId : String) : Response :=
  ⟨404, .json (toldBody (.executionNotFound (.str id) now) requestId), some requestId⟩

theorem failureResponse_missing (id : String) (now : Instant) (requestId : String) :
    failureResponse (.executionNotFound (.str id) now) requestId =
      .ok ⟨404, .json (toldBody (.executionNotFound (.str id) now) requestId), none⟩ := rfl

/-- The answer where another tenant has a run of the id. -/
def foreignRun (id requestId : String) : Response :=
  ⟨404, .json (.obj [("detail", .str ("Execution " ++ id ++ " not found"))]), some requestId⟩

/-- The name of the first member of an object. -/
def firstName : Json → String
  | .obj ((name, _) :: _) => name
  | _ => ""

theorem missingRun_ne_foreignRun (id : String) (now : Instant) (requestId : String) :
    missingRun id now requestId ≠ foreignRun id requestId := by
  intro heq
  have hbody : toldBody (.executionNotFound (.str id) now) requestId =
      .obj [("detail", .str ("Execution " ++ id ++ " not found"))] :=
    Content.json.inj (Response.mk.inj heq).2.1
  have hfirst : "error" = "detail" := congrArg firstName hbody
  exact absurd hfirst (by decide)

/-! ### The endpoint -/

theorem runOn_load_hidden (hhidden : HiddenFrom w.database tenant id) :
    (¬w.database.Records id →
      (Application.loadRun id).runOn w = (.error (.failure (.executionNotFound (.str id) w.now)), w)) ∧
    (w.database.Records id →
      ∃ record, (Application.loadRun id).runOn w = (.ok record, w) ∧ record.row.tenantId ≠ tenant) := by
  obtain ⟨t, ht, hothers⟩ := hhidden
  have hload : (RunLog.load id w.now).runOn w.database =
      (t.runs.find? (·.id = id)).elim (.error (.failure (.executionNotFound (.str id) w.now)), w.database)
        fun row => (.ok ⟨row, RunLog.eventsOf id t.events⟩, w.database) := by
    rw [RunLog.load, Task.runOn_bind_ok (runOn_tablesOr_some ht)]
    cases t.runs.find? (·.id = id) <;> rfl
  rw [Application.loadRun, World.runOn_store, hload]
  cases hfind : t.runs.find? (·.id = id) with
  | none =>
    refine ⟨fun _ => rfl, ?_⟩
    rintro ⟨t', ht', row, hrow, hid⟩
    obtain rfl : t' = t := Option.some.inj (ht'.symm.trans ht)
    exact absurd (decide_eq_true hid) (List.find?_eq_none.mp hfind row hrow)
  | some row =>
    have hid : row.id = id := by simpa using List.find?_some hfind
    have hmem : row ∈ t.runs := List.mem_of_find?_eq_some hfind
    exact ⟨fun hnone => absurd ⟨t, ht, row, hmem, hid⟩ hnone, fun _ => ⟨_, rfl, hothers row hmem hid⟩⟩

theorem runOn_run_hidden (hhidden : HiddenFrom w.database tenant id) :
    (¬w.database.Records id →
      (Server.run tenant id).runOn w = (.error (.failure (.executionNotFound (.str id) w.now)), w)) ∧
    (w.database.Records id →
      (Server.run tenant id).runOn w = (.ok (.refusal 404 ("Execution " ++ id ++ " not found")), w)) := by
  obtain ⟨hmissing, hforeign⟩ := runOn_load_hidden hhidden
  refine ⟨fun hnone => Task.runOn_bind_error (hmissing hnone), fun hrecords => ?_⟩
  obtain ⟨record, hload, hother⟩ := hforeign hrecords
  rw [Server.run, Task.runOn_bind_ok hload]
  simp only [hother, ne_eq, not_false_eq_true, if_true]
  rfl

theorem preflight?_of_method (settings : Settings) (hmethod : r.method ≠ "OPTIONS") :
    Server.preflight? settings r = none := by
  unfold Server.preflight?
  cases r.header? "Origin" with
  | none => rfl
  | some origin =>
    cases r.header? "Access-Control-Request-Method" with
    | none => rfl
    | some method => exact if_pos (.inl hmethod)

theorem route_of_asks (h : Asks r tenant id) (hstarted : s.application = some app) :
    s.route r = Server.run tenant id := by
  have hmethod : r.method ≠ "OPTIONS" := by
    rw [h.method]
    decide
  rw [Server.route, preflight?_of_method s.settings hmethod, h.route]
  simp only [h.method, if_true, Server.answer, Server.withTenant, h.asker, if_neg h.named,
    Server.withApplication, hstarted]

/-! ### The envelope -/

theorem identify_keeps (hid : ((identify r).runOn w).1 = .ok requestId) :
    ∃ w₁ : World α, (identify r).runOn w = (.ok requestId, w₁) ∧ w₁.database = w.database ∧
      w₁.now = w.now := by
  unfold identify at hid ⊢
  cases hown : r.ownId? with
  | some own =>
    rw [hown] at hid
    obtain rfl : own = requestId := Except.ok.inj hid
    exact ⟨w, rfl, rfl, rfl⟩
  | none =>
    rw [hown] at hid
    exact ⟨_, Prod.ext hid rfl, rfl, rfl⟩

theorem runOn_envelop {handler : String → Task (World α) Response} {w₁ w₂ : World α}
    {outcome : Outcome Response} {response : Response}
    (hidentify : (identify r).runOn w = (.ok requestId, w₁))
    (hhandler : (handler requestId).runOn
      { w₁ with logContext := Members.setAll w₁.logContext (r.logFields requestId) } = (outcome, w₂))
    (hresponse : respondTo requestId outcome = .ok response) :
    ((envelop r handler).runOn w).1 = .ok { response with requestId := some requestId } := by
  unfold envelop
  rw [Task.runOn_bind_ok hidentify, Task.runOn_bind_ok (Task.runOn_modify ..),
    Task.runOn_attempt_bind hhandler, Task.runOn_bind_ok (Task.runOn_modify ..), hresponse]
  rfl

theorem serve_of_envelop {response : Response} (hmethod : r.method ≠ "HEAD")
    (henvelop : ((envelop r (s.handle r)).runOn w).1 = .ok response) :
    ((s.serve r).runOn w).1 = .ok response := by
  have hunder : response.under r.method = response := if_neg hmethod
  rw [Server.serve, Task.runOn_bind]
  rcases hrun : (envelop r (s.handle r)).runOn w with ⟨f | answer, w'⟩ <;> rw [hrun] at henvelop
  · cases henvelop
  · obtain rfl : answer = response := Except.ok.inj henvelop
    exact congrArg Except.ok hunder

/-- Where a tenant has no run, it is answered in one way if there is none at all, and in another one if someone
else has one. -/
theorem serve_hidden (h : Asks r tenant id) (hstarted : s.application = some app)
    (hid : ((identify r).runOn w).1 = .ok requestId) (hhidden : HiddenFrom w.database tenant id) :
    (¬w.database.Records id → ((s.serve r).runOn w).1 = .ok (missingRun id w.now requestId)) ∧
    (w.database.Records id → ((s.serve r).runOn w).1 = .ok (foreignRun id requestId)) := by
  obtain ⟨w₁, hidentify, hdatabase, hnow⟩ := identify_keeps hid
  let entered : World α := { w₁ with logContext := Members.setAll w₁.logContext (r.logFields requestId) }
  have hentered : entered.database = w.database := hdatabase
  have hclock : entered.now = w.now := hnow
  obtain ⟨hmissing, hforeign⟩ := runOn_run_hidden (w := entered) (hentered ▸ hhidden)
  rw [hentered] at hmissing hforeign
  rw [hclock] at hmissing
  have hmethod : r.method ≠ "HEAD" := by
    rw [h.method]
    decide
  refine ⟨fun hnone => serve_of_envelop hmethod ?_, fun hrecords => serve_of_envelop hmethod ?_⟩
  · have hhandle : (s.handle r requestId).runOn entered =
        (.ok ⟨404, .json (toldBody (.executionNotFound (.str id) w.now) requestId), none⟩, entered) := by
      rw [Server.handle, route_of_asks h hstarted, Task.runOn_attempt_bind (hmissing hnone)]
      exact congrArg (·, entered) (failureResponse_missing id w.now requestId)
    exact runOn_envelop hidentify hhandle rfl
  · have hhandle : (s.handle r requestId).runOn entered =
        (.ok (.refusal 404 ("Execution " ++ id ++ " not found")), entered) := by
      rw [Server.handle, route_of_asks h hstarted, Task.runOn_attempt_bind (hforeign hrecords)]
      rfl
    exact runOn_envelop hidentify hhandle rfl

theorem missingRun_or_foreignRun (h : Asks r tenant id) (hstarted : s.application = some app)
    (hid : ((identify r).runOn w).1 = .ok requestId) (hhidden : HiddenFrom w.database tenant id) :
    ∃ answer, ((s.serve r).runOn w).1 = .ok answer ∧ answer.status = 404 ∧
      answer.requestId = some requestId := by
  obtain ⟨hmissing, hforeign⟩ := serve_hidden h hstarted hid hhidden
  by_cases hrecords : w.database.Records id
  · exact ⟨_, hforeign hrecords, rfl, rfl⟩
  · exact ⟨_, hmissing hrecords, rfl, rfl⟩

/-- A tenant that has no run under an id is told that there is none, with one status. But the whole answers in
two worlds with the same clock, to a request of the same id, are equal exactly if both of the worlds or none of
them has a run of some other tenant there. -/
theorem hidden_answers_eq_iff (s : Server α) (app : Application α) (hstarted : s.application = some app)
    (r : Request) (tenant id requestId : String) (h : Asks r tenant id) (w w' : World α)
    (hnow : w'.now = w.now) (hid : ((identify r).runOn w).1 = .ok requestId)
    (hid' : ((identify r).runOn w').1 = .ok requestId) (hhidden : HiddenFrom w.database tenant id)
    (hhidden' : HiddenFrom w'.database tenant id) :
    (∃ answer answer', ((s.serve r).runOn w).1 = .ok answer ∧ ((s.serve r).runOn w').1 = .ok answer' ∧
      answer.status = 404 ∧ answer'.status = 404) ∧
    (((s.serve r).runOn w).1 = ((s.serve r).runOn w').1 ↔
      (w.database.Records id ↔ w'.database.Records id)) := by
  obtain ⟨answer, hanswer, hstatus, -⟩ := missingRun_or_foreignRun h hstarted hid hhidden
  obtain ⟨answer', hanswer', hstatus', -⟩ := missingRun_or_foreignRun h hstarted hid' hhidden'
  refine ⟨⟨answer, answer', hanswer, hanswer', hstatus, hstatus'⟩, ?_⟩
  obtain ⟨hmissing, hforeign⟩ := serve_hidden h hstarted hid hhidden
  obtain ⟨hmissing', hforeign'⟩ := serve_hidden h hstarted hid' hhidden'
  rw [hnow] at hmissing'
  by_cases hrecords : w.database.Records id <;> by_cases hrecords' : w'.database.Records id
  · rw [hforeign hrecords, hforeign' hrecords']
    exact iff_of_true rfl (iff_of_true hrecords hrecords')
  · rw [hforeign hrecords, hmissing' hrecords']
    refine iff_of_false (fun heq => ?_) fun hsame => hrecords' (hsame.mp hrecords)
    exact missingRun_ne_foreignRun id w.now requestId (Except.ok.inj heq).symm
  · rw [hmissing hrecords, hforeign' hrecords']
    refine iff_of_false (fun heq => ?_) fun hsame => hrecords (hsame.mpr hrecords')
    exact missingRun_ne_foreignRun id w.now requestId (Except.ok.inj heq)
  · rw [hmissing hrecords, hmissing' hrecords']
    exact iff_of_true rfl (iff_of_false hrecords hrecords')

def startedServer : Server Unit where
  settings := Application.standard.settings
  application := some Application.standard

/-- A tenant without runs asks for the run of the id that the trials use. -/
def outsiderRequest : Request where
  path := "/api/v1/executions/run"
  headers := [(tenantHeader, "outsider"), (requestIdHeader, "request")]

theorem outsiderRequest_asks : Asks outsiderRequest "outsider" "run" where
  method := rfl
  route := by decide
  asker := by decide
  named := by decide

theorem identify_outsider (w : World Unit) : ((identify outsiderRequest).runOn w).1 = .ok "request" := by
  have hown : outsiderRequest.ownId? = some "request" := by decide
  rw [identify, hown]
  rfl

/-- The world after a run of a tenant. -/
def ranFor (tenantId : String) : World Unit :=
  (((Application.standard.engineWithin none Application.noWait).execute
    { Application.updateRequest with tenantId } Application.noHook).runOn Application.emptyWorld).2

theorem now_ranFor (tenantId : String) : (ranFor tenantId).now = ⟨0⟩ := rfl

theorem hiddenFrom_outsider {tenantId : String} (h : tenantId ≠ "outsider") :
    HiddenFrom (ranFor tenantId).database "outsider" "run" := by
  refine ⟨_, rfl, fun row hrow _ => ?_⟩
  rw [List.mem_singleton.mp hrow]
  exact h

theorem records_ranFor (tenantId : String) : (ranFor tenantId).database.Records "run" :=
  ⟨_, rfl, _, List.mem_cons_self, rfl⟩

/-- It makes no difference to the outsider whose run it is. -/
theorem hidden_answers_eq_ranFor :
    startedServer.application = some Application.standard ∧ Asks outsiderRequest "outsider" "run" ∧
      (ranFor "second").now = (ranFor "first").now ∧
      HiddenFrom (ranFor "first").database "outsider" "run" ∧
      HiddenFrom (ranFor "second").database "outsider" "run" ∧
      ((startedServer.serve outsiderRequest).runOn (ranFor "first")).1 =
        ((startedServer.serve outsiderRequest).runOn (ranFor "second")).1 := by
  have hfirst : HiddenFrom (ranFor "first").database "outsider" "run" := hiddenFrom_outsider (by decide)
  have hsecond : HiddenFrom (ranFor "second").database "outsider" "run" := hiddenFrom_outsider (by decide)
  have hnow : (ranFor "second").now = (ranFor "first").now := (now_ranFor _).trans (now_ranFor _).symm
  obtain ⟨-, hsame⟩ := hidden_answers_eq_iff startedServer Application.standard rfl outsiderRequest "outsider"
    "run" "request" outsiderRequest_asks (ranFor "first") (ranFor "second") hnow (identify_outsider _)
    (identify_outsider _) hfirst hsecond
  exact ⟨rfl, outsiderRequest_asks, hnow, hfirst, hsecond,
    hsame.mpr (iff_of_true (records_ranFor "first") (records_ranFor "second"))⟩

/-- The outsider can tell from the answer that someone else has used the id. -/
theorem foreign_run_revealed :
    ((startedServer.serve outsiderRequest).runOn Application.emptyWorld).1 =
        .ok (missingRun "run" ⟨0⟩ "request") ∧
      ((startedServer.serve outsiderRequest).runOn (ranFor "first")).1 = .ok (foreignRun "run" "request") ∧
      missingRun "run" ⟨0⟩ "request" ≠ foreignRun "run" "request" := by
  have hempty : HiddenFrom Application.emptyWorld.database "outsider" "run" := ⟨{}, rfl, nofun⟩
  have hnone : ¬Application.emptyWorld.database.Records "run" := by
    rintro ⟨t, ht, row, hrow, -⟩
    cases ht
    cases hrow
  have hforeign : HiddenFrom (ranFor "first").database "outsider" "run" := hiddenFrom_outsider (by decide)
  exact ⟨(serve_hidden outsiderRequest_asks rfl (identify_outsider _) hempty).1 hnone,
    (serve_hidden outsiderRequest_asks rfl (identify_outsider _) hforeign).2 (records_ranFor "first"),
    missingRun_ne_foreignRun "run" ⟨0⟩ "request"⟩

end Http

end Cadence
