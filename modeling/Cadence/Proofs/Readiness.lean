import Cadence.Proofs.ClientLog

/-!
# Readiness after a history

The contract of a client goes by its credentials and the newest record of its log. Since records go by the
time of the clock, a clock that is set back can leave an old record the newest.
-/

namespace Cadence

open Storage Integration

namespace Integration

/-! ### How long a verification stays fresh -/

/-- The whole days for which a verification stays fresh. -/
def freshDays (days : Int) : Int := max 1 (if days = 0 then defaultMaxAgeDays else days)

theorem daysToMicros_whole (days : Int) : daysToMicros (.whole days) = days * Calendar.microsPerDay :=
  Calendar.durationMicros_whole days Calendar.microsPerDay

theorem greatest_whole (i j : Int) : (Numeral.whole i).greatest (.whole j) = .whole (max i j) := by
  have hless : (Numeral.whole i).isLess (.whole j) = decide (i < j) := by
    simp only [Numeral.isLess, Numeral.compare?, Option.some.injEq]
    exact decide_eq_decide.mpr Std.compare_eq_lt
  simp only [Numeral.greatest, hless, decide_eq_true_eq]
  split
  · rw [Int.max_eq_right (by omega)]
  · rw [Int.max_eq_left (by omega)]

theorem maxAgeMicros_whole (days : Int) :
    maxAgeMicros (some (.whole days)) =
      if freshDays days ≥ Int.pow 2 31 then .error .daysTooMany
      else if freshDays days > maxDurationDays then .error (.durationTooLong (freshDays days))
      else .ok (freshDays days * Calendar.microsPerDay) := by
  have hgiven : (if (Numeral.whole days).isZero then .whole defaultMaxAgeDays else Numeral.whole days) =
      .whole (if days = 0 then defaultMaxAgeDays else days) := by
    simp only [Numeral.isZero, decide_eq_true_eq]
    split <;> rfl
  have hmicros : daysToMicros ((Numeral.whole 1).greatest
      (if (Numeral.whole days).isZero then .whole defaultMaxAgeDays else Numeral.whole days)) =
      freshDays days * Calendar.microsPerDay := by
    rw [hgiven, greatest_whole, daysToMicros_whole, freshDays]
  have hwhole : freshDays days * Calendar.microsPerDay / Calendar.microsPerDay = freshDays days :=
    Int.mul_ediv_cancel _ (by decide)
  unfold maxAgeMicros
  dsimp only
  rw [hmicros, hwhole]

/-! ### The contract and the status -/

variable {α : Type} {s : Service} {o : Owner} {w : World α} {t : Tables} {opened : Openings}
  {log : List Appended}

/-- The contract of a client that has some credentials and a newest record. -/
def contractOf (hasToken hasPhone : Bool) (newest : Option Appended) (maxAge : Int) (now : Instant) :
    Contract :=
  let evidence : Evidence := {
    hasAccessToken := hasToken
    hasPhoneNumberId := hasPhone
    latestOk := (newest.map fun a => decide (a.record.status = .passed)).getD false
    latestAt := .absent }
  .judge evidence (newest.map (·.time)) maxAge now

/-- What a client is told about its status. -/
def report (contract : Contract) (newest : Option Appended) : Json :=
  .obj [("provider", .str provider), ("contract", contract.toJson),
    ("latest_verification", (newest.map fun a => Service.summary a.record).getD .null)]

theorem ready_contractOf {hasToken hasPhone : Bool} {newest : Option Appended} {maxAge : Int}
    {now : Instant} :
    (contractOf hasToken hasPhone newest maxAge now).ready = true ↔ hasToken = true ∧ hasPhone = true ∧
      ∃ a, newest = some a ∧ a.record.status = .passed ∧ now.micros - a.time.micros ≤ maxAge := by
  cases newest with
  | none =>
    simp only [contractOf, Contract.judge, Option.map_none, Option.getD_none, Bool.false_and, Bool.and_false,
      Bool.false_eq_true, reduceCtorEq, false_and, exists_false, and_false]
  | some a =>
    simp only [contractOf, Contract.judge, Option.map_some, Option.getD_some, Bool.and_eq_true,
      decide_eq_true_eq, Bool.not_eq_true', decide_eq_false_iff_not, Int.not_lt, gt_iff_lt,
      Option.some.injEq, exists_eq_left', and_assoc]

theorem runOn_latest (ht : w.database.tables = some t) :
    (Service.latest o).runOn w = (.ok (historyOf o.verificationKey t.verifications).head?, w) := by
  have hstore : (VerificationLog.latest o.verificationKey w.now).runOn w.database =
      (.ok (historyOf o.verificationKey t.verifications).head?, w.database) :=
    Task.runOn_bind_ok (runOn_tablesOr_some ht)
  rw [Service.latest, World.runOn_store, hstore]

theorem evaluate_stamped (hasToken hasPhone : Bool) (newest : Option Appended) (maxAgeDays : Numeral)
    (now : Instant) (hstamped : ∀ a, newest = some a → a.record.createdAt = some a.time.toNaive) :
    Contract.evaluate {
        hasAccessToken := hasToken
        hasPhoneNumberId := hasPhone
        latestOk := ((newest.map (·.record)).map fun r => decide (r.status = .passed)).getD false
        latestAt := (((newest.map (·.record)).bind (·.createdAt)).map TimeSource.stamp).getD .absent }
        (some maxAgeDays) .absent now =
      (maxAgeMicros (some maxAgeDays)).map fun maxAge => contractOf hasToken hasPhone newest maxAge now := by
  cases newest with
  | none =>
    cases hage : maxAgeMicros (some maxAgeDays) <;> simp only [Contract.evaluate, hage] <;> rfl
  | some a =>
    have htime : parseTimestamp (((some a.record).bind (·.createdAt)).map TimeSource.stamp |>.getD .absent) =
        .ok (some a.time) := by
      rw [Option.bind_some, hstamped a rfl]
      rfl
    cases hage : maxAgeMicros (some maxAgeDays) <;>
      simp only [Contract.evaluate, Option.map_some, htime, hage] <;> rfl

theorem runOn_evaluate (ht : w.database.tables = some t) (newest : Option Appended)
    (hstamped : ∀ a, newest = some a → a.record.createdAt = some a.time.toNaive) :
    (s.evaluate o (newest.map (·.record))).runOn w =
      ((maxAgeMicros (some s.maxAgeDays)).map fun maxAge =>
        contractOf (openings s.cipher o t .accessToken).isSome (openings s.cipher o t .phoneNumberId).isSome
          newest maxAge w.now, w) := by
  rw [← evaluate_stamped _ _ _ _ _ hstamped, openings, openings, Option.isSome_map, Option.isSome_map]
  unfold Service.evaluate
  rw [Task.runOn_bind_ok (Service.runOn_current ht _), Task.runOn_bind_ok (Service.runOn_current ht _),
    Task.runOn_bind_ok (Task.runOn_get w)]
  rfl

/-- The contract and the status of a client, by its credentials and the newest record of its log. -/
theorem Tracks.contract (h : Tracks s o opened log w) : ∃ newest, Newest log newest ∧
    let held := (maxAgeMicros (some s.maxAgeDays)).map fun maxAge =>
      contractOf (opened .accessToken).isSome (opened .phoneNumberId).isSome newest maxAge w.now
    (s.contract o).runOn w = (held, w) ∧
      (s.status o).runOn w = (held.map fun contract => report contract newest, w) := by
  obtain ⟨t, ht, hopened⟩ := h.vault.tables
  obtain ⟨newest, hnewest, t', ht', hhead⟩ := h.newest
  obtain rfl : t' = t := Option.some.inj (ht'.symm.trans ht)
  have hlatest := runOn_latest (o := o) ht
  rw [hhead] at hlatest
  have hstamped : ∀ a, newest = some a → a.record.createdAt = some a.time.toNaive := by
    rintro a rfl
    exact h.stamped a hnewest.mem
  have hevaluate := runOn_evaluate (s := s) (o := o) ht newest hstamped
  rw [hopened] at hevaluate
  refine ⟨newest, hnewest, ?_, ?_⟩
  · rw [Service.contract, Task.runOn_bind_ok hlatest, hevaluate]
  · rw [Service.status, Task.runOn_bind_ok hlatest, Task.runOn_bind, hevaluate]
    rcases maxAgeMicros (some s.maxAgeDays) with f | maxAge
    · rfl
    · simp only [Except.map, report, Option.map_map]
      rfl

/-- The storage works, and nothing of any client is in it yet. -/
structure Untouched (w : World α) : Prop extends Fresh w where
  verifications : ∀ t, w.database.tables = some t → t.verifications = []

theorem tracks_start (s : Service) (o : Owner) (h : Untouched w) : Tracks s o (fun _ => none) [] w := by
  obtain ⟨t, ht, hcredentials⟩ := h.tables
  have hopened : openings s.cipher o t = fun _ => none := by
    funext field
    rw [openings, hcredentials]
    rfl
  have hnone : historyOf o.verificationKey t.verifications = [] := by
    rw [h.verifications t ht, historyOf, List.reverse_nil, List.filter_nil, List.mergeSort_nil]
  exact {
    vault := ⟨h.nonces, t, ht, hopened⟩
    sure := fun _ _ hf => absurd hf (Option.some_ne_none _).symm
    newest := ⟨none, rfl, t, ht, congrArg List.head? hnone⟩
    stamped := fun _ ha => absurd ha List.not_mem_nil }

theorem isSome_openings_kept (field : CredentialField) (steps : List Step) :
    (Openings.update (fun _ => none) (steps.flatMap (Step.keptOf o)) field).isSome =
      (lastKept o field steps).isSome := by
  rw [Openings.update, Option.or_none, Option.isSome_map]
  rfl

theorem maxAgeMicros_of_le {days : Int} (h : freshDays days ≤ maxDurationDays) :
    maxAgeMicros (some (.whole days)) = .ok (freshDays days * Calendar.microsPerDay) := by
  have hsmall : ¬freshDays days ≥ Int.pow 2 31 := Int.not_le.mpr (Int.lt_of_le_of_lt h (by decide))
  rw [maxAgeMicros_whole, if_neg hsmall, if_neg (Int.not_lt.mpr h)]

theorem maxAgeMicros_of_lt {days : Int} (h : maxDurationDays < freshDays days) :
    ∃ f, maxAgeMicros (some (.whole days)) = .error f := by
  by_cases hhuge : freshDays days ≥ Int.pow 2 31
  · exact ⟨_, (maxAgeMicros_whole days).trans (if_pos hhuge)⟩
  · exact ⟨_, (maxAgeMicros_whole days).trans ((if_neg hhuge).trans (if_pos h))⟩

/-! ### Live verifications that are answered -/

theorem runOn_sendTest_answered {r : VerifyRequest} {m : Provider.Message} (hmessage : s.testMessage r = .ok m)
    {token phone : String} {request : Provider.Request} (hrequest : s.client.request token phone m = .ok request)
    {answer : Provider.Answer} {response : Provider.Response} (hanswer : (w.line.send request).1 = .ok answer)
    (hread : s.client.readAnswer answer = .ok response) (checks : List Check) (evidence : Members) :
    ∃ f, (s.sendTest token phone r checks evidence).runOn w = (.ok f, w.sent request) ∧
      (f.status = .passed ↔ answer.IsSuccess) ∧ (f.status = .failed ↔ ¬answer.IsSuccess) := by
  have hbound : (w.line.send request).1.bind s.client.readAnswer = .ok response := by rw [hanswer]; exact hread
  rw [Service.runOn_sendTest hmessage hrequest, hbound]
  refine ⟨_, rfl, ?_⟩
  rw [← Provider.Client.isOk_iff hread]
  cases response.isOk <;> simp

theorem Tracks.appended?_live (h : Tracks s o opened log w) {r : VerifyRequest} (hreadable : r.Readable)
    {token phone : String} (htoken : opened .accessToken = some fun _ => .ok token)
    (hphone : opened .phoneNumberId = some fun _ => .ok phone) (hwritable : ¬s.client.Unwritable token phone)
    (hlive : r.mode = .live) (hallowed : s.allowLive = true) {answer : Provider.Answer}
    {response : Provider.Response} (hanswer : ∀ n request, w.line.transport n request = .ok answer)
    (hread : s.client.readAnswer answer = .ok response) :
    ∃ row, (Step.call o (.verify r)).appended? s o w = some ⟨w.now, row⟩ ∧
      (row.status = .passed ↔ answer.IsSuccess) ∧ (row.status = .failed ↔ ¬answer.IsSuccess) := by
  obtain ⟨t, ht, hopened⟩ := h.vault.tables
  have hmessage := s.testMessage_of_readable hreadable
  obtain ⟨checks, evidence, hfindings⟩ := Service.runOn_findings_live ht (hopened ▸ htoken) (hopened ▸ hphone)
    hlive hallowed
  obtain ⟨f, hsend, hpassed, hfailed⟩ := runOn_sendTest_answered hmessage
    (Provider.Client.request_of_writable hwritable _) (hanswer _ _) hread checks evidence
  obtain ⟨row, hreply, hrow, -⟩ := h.appended (hfindings.trans hsend) rfl rfl
  refine ⟨row, ?_, hrow ▸ hpassed, hrow ▸ hfailed⟩
  rw [Step.appended?, if_pos rfl, hreply]

theorem now_of_call (c : Call) : ((Step.call o c).run s w).now = w.now := by
  have hsaving : KeptBySaving o (fun w' : World α => w'.now = w.now) := ⟨fun _ h => h, fun _ _ _ _ _ _ h => h⟩
  have hverifying : KeptByVerifying o (fun w' : World α => w'.now = w.now) :=
    ⟨fun _ _ h => h, fun _ _ _ _ _ h => h⟩
  exact perform_keeps hsaving hverifying s c w rfl

theorem firstWorld_untouched : Untouched firstWorld where
  toFresh := firstWorld_fresh
  verifications t ht := by
    cases ht
    rfl

theorem now_after_call (steps : List Step) (c : Call) :
    (s.after (steps ++ [.call o c]) w).now = (s.after steps w).now := by
  rw [Service.after_append]
  exact now_of_call c

def connectedLive : List Step :=
  [.call firstClient (.connect "token" "PNID" none none), .call firstClient (.verify liveRequest)]

theorem connectedLive_appended (h : Tracks liveService firstClient opened log w)
    (hanswer : ∀ n request, w.line.transport n request = .ok ⟨200, "\x7b\x7d"⟩) :
    ∃ row, row.status = .passed ∧ liveService.appended firstClient connectedLive w = [⟨w.now, row⟩] := by
  let connect : Step := .call firstClient (.connect "token" "PNID" none none)
  have hline : (connect.run liveService w).line = w.line := line_of_connect ..
  have hnow : (connect.run liveService w).now = w.now := now_of_call _
  have hsent : ∀ n request, (connect.run liveService w).line.transport n request = .ok ⟨200, "\x7b\x7d"⟩ := by
    rw [hline]
    exact hanswer
  have hread : liveService.client.readAnswer ⟨200, "\x7b\x7d"⟩ = .ok ⟨200, []⟩ := rfl
  obtain ⟨row, hrow, hpassed, -⟩ := (step_tracks connect h).appended?_live liveRequest_readable rfl rfl
    liveService_writable rfl rfl hsent hread
  refine ⟨row, hpassed.mpr (by decide), ?_⟩
  rw [connectedLive, Service.appended, Service.appended, Service.appended, hrow, hnow]
  rfl

theorem now_after_connectedLive : (liveService.after connectedLive w).now = w.now :=
  (now_of_call _).trans (now_of_call _)

/-! ### Readiness -/

/-- After every history, the status of a client reports its newest record, and the client is ready exactly if
both credentials were saved and that record passed and is fresh. Where no record of the client was put there
at a later time than the last one, the newest record is the last one. An age that no duration can hold is a
fault. -/
theorem readiness_of_history (s : Service) (days : Int) (hdays : s.maxAgeDays = .whole days)
    (steps : List Step) (w : World α) (o : Owner) (hstart : Untouched w) :
    let final := s.after steps w
    let log := s.appended o steps w
    (freshDays days ≤ maxDurationDays → ∃ newest contract, Newest log newest ∧
      (s.status o).runOn final = (.ok (report contract newest), final) ∧
      (contract.ready = true ↔
        (lastKept o .accessToken steps).isSome ∧ (lastKept o .phoneNumberId steps).isSome ∧
        ∃ a, newest = some a ∧ a.record.status = .passed ∧
          final.now.micros - a.time.micros ≤ freshDays days * Calendar.microsPerDay) ∧
      ((∀ last, log.getLast? = some last → ∀ a ∈ log, a.time.micros ≤ last.time.micros) →
        newest = log.getLast?)) ∧
    (maxDurationDays < freshDays days → ∃ f, (s.status o).runOn final = (.error f, final)) := by
  intro final log
  have htracks : Tracks s o _ ([] ++ log) final := after_tracks steps (tracks_start s o hstart)
  obtain ⟨newest, hnewest, -, hstatus⟩ := htracks.contract
  rw [List.nil_append] at hnewest
  rw [hdays] at hstatus
  refine ⟨fun hlimit => ?_, fun hover => ?_⟩
  · rw [maxAgeMicros_of_le hlimit] at hstatus
    refine ⟨newest, _, hnewest, hstatus, ?_, hnewest.eq_getLast?⟩
    rw [ready_contractOf, isSome_openings_kept, isSome_openings_kept]
  · obtain ⟨f, hage⟩ := maxAgeMicros_of_lt hover
    rw [hage] at hstatus
    exact ⟨f, hstatus⟩

theorem readiness_connectedLive :
    liveService.maxAgeDays = .whole 30 ∧ Untouched firstWorld ∧ freshDays 30 ≤ maxDurationDays ∧
      ∃ newest contract,
        ((liveService.status firstClient).runOn (liveService.after connectedLive firstWorld)).1 =
          .ok (report contract newest) ∧ contract.ready = true := by
  have hlimit : freshDays 30 ≤ maxDurationDays := by decide
  obtain ⟨row, hpassed, hlog⟩ := connectedLive_appended
    (tracks_start liveService firstClient firstWorld_untouched) fun _ _ => rfl
  obtain ⟨hstatus, -⟩ := readiness_of_history liveService 30 rfl connectedLive firstWorld firstClient
    firstWorld_untouched
  obtain ⟨newest, contract, -, hreport, hready, hlast⟩ := hstatus hlimit
  rw [hlog] at hlast
  have hnewest : newest = some ⟨firstWorld.now, row⟩ := hlast fun last hlast a ha => by
    rw [List.mem_singleton.mp ha, ← Option.some.inj hlast]
    exact Int.le_refl _
  have hfresh : (liveService.after connectedLive firstWorld).now.micros - firstWorld.now.micros ≤
      freshDays 30 * Calendar.microsPerDay := by
    rw [now_after_connectedLive]
    decide
  exact ⟨rfl, firstWorld_untouched, hlimit, newest, contract, congrArg Prod.fst hreport,
    hready.mpr ⟨rfl, rfl, _, hnewest, hpassed, hfresh⟩⟩

def setBack : List Step :=
  .clock ⟨Calendar.microsPerDay⟩ :: connectedLive ++
    [.clock ⟨0⟩, .provider fun _ => .ok ⟨500, "\x7b\x7d"⟩]

/-- A live verification passes, the clock is set back, and another one fails. -/
def failedEarlier : List Step := setBack ++ [.call firstClient (.verify liveRequest)]

/-- The client stays ready, and its status goes on reporting the record that passed. -/
theorem ready_when_set_back :
    ∃ passed failed contract,
      liveService.appended firstClient failedEarlier firstWorld = [passed, failed] ∧
      passed.record.status = .passed ∧ failed.record.status = .failed ∧
      ((liveService.status firstClient).runOn (liveService.after failedEarlier firstWorld)).1 =
        .ok (report contract (some passed)) ∧ contract.ready = true := by
  have hstart := tracks_start liveService firstClient firstWorld_untouched
  have hclock := step_tracks (.clock ⟨Calendar.microsPerDay⟩) hstart
  obtain ⟨row, hpassed, hlog⟩ := connectedLive_appended hclock fun _ _ => rfl
  have hread : liveService.client.readAnswer ⟨500, "\x7b\x7d"⟩ = .ok ⟨500, []⟩ := rfl
  obtain ⟨row', hrow', -, hfailed⟩ := (after_tracks setBack hstart).appended?_live liveRequest_readable rfl rfl
    liveService_writable rfl rfl (fun _ _ => rfl) hread
  let passed : Appended := ⟨⟨Calendar.microsPerDay⟩, row⟩
  let failed : Appended := ⟨⟨0⟩, row'⟩
  have hboth : liveService.appended firstClient failedEarlier firstWorld = [passed, failed] := by
    have hpast : liveService.appended firstClient setBack firstWorld = [passed] := by
      rw [setBack, List.cons_append, Service.appended, Service.appended_append, hlog]
      rfl
    rw [failedEarlier, Service.appended_append, hpast, Service.appended, hrow']
    rfl
  obtain ⟨newest, hnewest, -, hstatus⟩ := (after_tracks failedEarlier hstart).contract
  rw [List.nil_append, hboth] at hnewest
  have hsince : ∀ a ∈ [failed], a.time.micros < passed.time.micros := by
    intro a ha
    rw [List.mem_singleton.mp ha]
    exact (by decide : (0 : Int) < Calendar.microsPerDay)
  obtain rfl : newest = some passed :=
    hnewest.unique ⟨[], [failed], rfl, fun _ hb => absurd hb List.not_mem_nil, hsince⟩
  have hlimit : freshDays 30 ≤ maxDurationDays := by decide
  have hage : maxAgeMicros (some liveService.maxAgeDays) = .ok _ := maxAgeMicros_of_le hlimit
  rw [hage] at hstatus
  have hnow : (liveService.after failedEarlier firstWorld).now = ⟨0⟩ := by
    rw [failedEarlier, now_after_call]
    rfl
  have hfresh : (liveService.after failedEarlier firstWorld).now.micros - passed.time.micros ≤
      freshDays 30 * Calendar.microsPerDay := by
    rw [hnow]
    exact (by decide : (0 : Int) - Calendar.microsPerDay ≤ freshDays 30 * Calendar.microsPerDay)
  exact ⟨passed, failed, _, hboth, hpassed, hfailed.mpr (by decide), congrArg Prod.fst hstatus,
    ready_contractOf.mpr ⟨rfl, rfl, passed, rfl, hpassed, hfresh⟩⟩

end Integration

end Cadence
