import Cadence.Proofs.Readiness

/-!
# Dry runs of verifications

A dry run never passes, but its record counts as any other. Unless the clock is behind an older record, it is
the newest record of the client from then on, and takes the place of a live verification that passed.
-/

namespace Cadence

open Storage Integration

namespace Integration

variable {α : Type} {s : Service} {o p : Owner} {w w' : World α} {t : Tables} {opened : Openings}
  {log : List Appended} {r : VerifyRequest} {maxAge : Int} {newest : Option Appended}

/-- The contract of a client whose newest verification is of this moment, and did not pass. -/
def Contract.untested (c : Contract) : Contract :=
  { c with testSendPassed := false, stale := false, ready := false }

/-- A record was put on the log when the clock showed a later time than now. -/
def Predated (log : List Appended) (now : Instant) : Prop := ∃ a ∈ log, now.micros < a.time.micros

/-! ### The record of a dry run -/

theorem runOn_findings_dryRun (ht : w.database.tables = some t) (hdry : r.mode = .dryRun) :
    ∃ f, (s.findings o r).runOn w = (.ok f, w) ∧ f.status ≠ .passed := by
  unfold Service.findings
  rw [Task.runOn_bind_ok (Service.runOn_current ht _), Task.runOn_bind_ok (Service.runOn_current ht _), hdry]
  dsimp only
  split
  · rename_i hlive
    cases hlive
  · exact ⟨_, rfl, VerificationStatus.noConfusion⟩
  · exact ⟨_, rfl, VerificationStatus.noConfusion⟩

theorem now_of_verify (r : VerifyRequest) : ((s.verify o r).runOn w).2.now = w.now := by
  rw [← runOn_perform_verify r]
  exact now_of_call (.verify r)

theorem Tracks.dryRun (h : Tracks s o opened log w) (hdry : r.mode = .dryRun) :
    ∃ row, row.status ≠ .passed ∧
      Tracks s o opened (log ++ [⟨w.now, row⟩]) ((s.verify o r).runOn w).2 := by
  obtain ⟨t, ht, -⟩ := h.vault.tables
  obtain ⟨f, hfindings, hfailed⟩ := runOn_findings_dryRun (s := s) (o := o) ht hdry
  obtain ⟨row, -, hrow, htracks⟩ := h.appended hfindings rfl rfl
  exact ⟨row, hrow ▸ hfailed, htracks⟩

theorem Tracks.verified_other (h : Tracks s p opened log w) (hp : p ≠ o) (r : VerifyRequest) :
    Tracks s p opened log ((s.verify o r).runOn w).2 := by
  have hother : ¬o = p := fun heq => hp heq.symm
  have hkept : (Step.call o (.verify r)).keptOf p = [] := if_neg hother
  have hnone : (Step.call o (.verify r)).appended? s p w = none := if_neg hother
  have hstep := step_tracks (.call o (.verify r)) h
  rw [hkept, Openings.update_nil, hnone, Option.toList_none, List.append_nil] at hstep
  rw [← runOn_perform_verify r]
  exact hstep

/-! ### The contract before and after -/

theorem Tracks.contract_eq (h : Tracks s p opened log w) (h' : Tracks s p opened log w')
    (hnow : w'.now = w.now) : ((s.contract p).runOn w').1 = ((s.contract p).runOn w).1 := by
  obtain ⟨newest, hnewest, hcontract, -⟩ := h.contract
  obtain ⟨newest', hnewest', hcontract', -⟩ := h'.contract
  obtain rfl : newest' = newest := hnewest'.unique hnewest
  rw [hcontract, hcontract', hnow]

theorem maxAgeMicros_nonneg {days : Int} (h : maxAgeMicros (some (.whole days)) = .ok maxAge) :
    0 ≤ maxAge := by
  have hdays : 0 ≤ freshDays days := Int.le_trans (by decide) (Int.le_max_left ..)
  rw [maxAgeMicros_whole] at h
  split at h
  · cases h
  · split at h
    · cases h
    · cases h
      exact Int.mul_nonneg hdays (by decide)

theorem contractOf_untested {hasToken hasPhone : Bool} {now : Instant} {row : Verification}
    (hfailed : row.status ≠ .passed) (hage : 0 ≤ maxAge) :
    contractOf hasToken hasPhone (some ⟨now, row⟩) maxAge now =
      (contractOf hasToken hasPhone newest maxAge now).untested := by
  have hfresh : ¬now.micros - now.micros > maxAge := by omega
  simp only [contractOf, Contract.judge, Contract.untested, Option.map_some, Option.getD_some, hfailed,
    hfresh, decide_false, Bool.false_and, Bool.and_false]

theorem Newest.predated_iff (h : Newest log newest) {now : Instant} :
    Predated log now ↔ ∃ a, newest = some a ∧ now.micros < a.time.micros := by
  constructor
  · rintro ⟨b, hb, hlater⟩
    cases newest with
    | none =>
      obtain rfl : log = [] := h
      cases hb
    | some a =>
      obtain ⟨earlier, later, rfl, hearlier, hafter⟩ := h
      refine ⟨a, rfl, ?_⟩
      rcases List.mem_append.mp hb with hb | hb
      · have hle := hearlier b hb
        omega
      · rcases List.mem_cons.mp hb with rfl | hb
        · exact hlater
        · have hlt := hafter b hb
          omega
  · rintro ⟨a, rfl, hlater⟩
    exact ⟨a, h.mem, hlater⟩

/-- A dry run leaves the contract of its client alone if some record is of a later time than now. Otherwise
the contract is one of a client whose verification did not pass. -/
theorem Tracks.dryRun_contract (h : Tracks s o opened log w) (hdry : r.mode = .dryRun) {days : Int}
    (hdays : s.maxAgeDays = .whole days) :
    let before := ((s.contract o).runOn w).1
    let after := ((s.contract o).runOn ((s.verify o r).runOn w).2).1
    (Predated log w.now → after = before) ∧ (¬Predated log w.now → after = before.map Contract.untested) := by
  intro before after
  obtain ⟨newest, hnewest, hbefore, -⟩ := h.contract
  obtain ⟨row, hfailed, htracks⟩ := h.dryRun hdry
  obtain ⟨newest', hnewest', hafter, -⟩ := htracks.contract
  obtain rfl : newest' = some (latestOf ⟨w.now, row⟩ newest) := hnewest'.unique (hnewest.append _)
  rw [now_of_verify] at hafter
  have hbefore' : before = _ := congrArg Prod.fst hbefore
  have hafter' : after = _ := congrArg Prod.fst hafter
  rw [hbefore', hafter', hdays]
  refine ⟨fun hpredated => ?_, fun hpredated => ?_⟩
  · obtain ⟨a, rfl, hlater⟩ := hnewest.predated_iff.mp hpredated
    rw [latestOf, if_pos hlater]
  · have hlast : latestOf ⟨w.now, row⟩ newest = ⟨w.now, row⟩ := by
      cases newest with
      | none => rfl
      | some a => exact if_neg fun hlater => hpredated (hnewest.predated_iff.mpr ⟨a, rfl, hlater⟩)
    rw [hlast]
    cases hage : maxAgeMicros (some (.whole days)) with
    | error f => rfl
    | ok maxAge => exact congrArg Except.ok (contractOf_untested hfailed (maxAgeMicros_nonneg hage))

theorem Contract.eq_untested {c : Contract} (hpassed : c.testSendPassed = false) (hstale : c.stale = false)
    (hready : c.ready = false) : c = c.untested := by
  obtain ⟨connected, verified, passed, stale, ready⟩ := c
  obtain rfl : passed = false := hpassed
  obtain rfl : stale = false := hstale
  obtain rfl : ready = false := hready
  rfl

theorem Tracks.contract_eq_untested_iff (h : Tracks s o opened log w) :
    ((s.contract o).runOn w).1 = ((s.contract o).runOn w).1.map Contract.untested ↔
      ∀ c, ((s.contract o).runOn w).1 = .ok c → c.testSendPassed = false ∧ c.stale = false := by
  obtain ⟨newest, -, hcontract, -⟩ := h.contract
  rw [hcontract]
  rcases maxAgeMicros (some s.maxAgeDays) with f | maxAge
  · exact iff_of_true rfl nofun
  · let held := contractOf (opened .accessToken).isSome (opened .phoneNumberId).isSome newest maxAge w.now
    constructor
    · intro heq c hc
      have hsame : held = held.untested := Except.ok.inj heq
      obtain rfl : held = c := Except.ok.inj hc
      exact ⟨congrArg Contract.testSendPassed hsame, congrArg Contract.stale hsame⟩
    · intro hflags
      obtain ⟨hpassed, hstale⟩ := hflags held rfl
      have hready : held.ready = false := by
        have hgated : held.ready = (held.connected && held.verified && held.testSendPassed) := rfl
        rw [hgated, hpassed, Bool.and_false]
      exact congrArg Except.ok (Contract.eq_untested hpassed hstale hready)

/-- After every history, a dry run leaves the contracts of all other clients alone. It leaves the contract of
its own client alone exactly if a record of that client is of a later time than now, or the client was neither
stale nor tested with success. Otherwise the client is not ready any more, and not stale either. -/
theorem contract_after_dryRun (s : Service) (days : Int) (hdays : s.maxAgeDays = .whole days)
    (steps : List Step) (w : World α) (o : Owner) (r : VerifyRequest) (hdry : r.mode = .dryRun)
    (hstart : Untouched w) :
    let before := s.after steps w
    let after := ((s.verify o r).runOn before).2
    (∀ p, p ≠ o → ((s.contract p).runOn after).1 = ((s.contract p).runOn before).1) ∧
    (((s.contract o).runOn after).1 = ((s.contract o).runOn before).1 ↔
      Predated (s.appended o steps w) before.now ∨
        ∀ c, ((s.contract o).runOn before).1 = .ok c → c.testSendPassed = false ∧ c.stale = false) ∧
    (¬Predated (s.appended o steps w) before.now →
      ((s.contract o).runOn after).1 = ((s.contract o).runOn before).1.map Contract.untested) := by
  intro before after
  have htracks (p : Owner) : Tracks s p _ ([] ++ s.appended p steps w) before :=
    after_tracks steps (tracks_start s p hstart)
  obtain ⟨hkept, hchanged⟩ := (htracks o).dryRun_contract hdry hdays
  rw [List.nil_append] at hkept hchanged
  refine ⟨fun p hp => ?_, ?_, hchanged⟩
  · exact (htracks p).contract_eq ((htracks p).verified_other hp r) (now_of_verify r)
  · by_cases hpredated : Predated (s.appended o steps w) before.now
    · exact iff_of_true (hkept hpredated) (.inl hpredated)
    · have hafter := hchanged hpredated
      have hflags := (htracks o).contract_eq_untested_iff
      refine ⟨fun hsame => .inr (hflags.mp (hsame.symm.trans hafter)), fun hcases => ?_⟩
      exact hafter.trans (hflags.mpr (hcases.resolve_left hpredated)).symm

def dryRequest : VerifyRequest where
  recipient := .str "+15550001111"

def unverified : List Step := [.call firstClient (.connect "token" "PNID" none none)]

theorem contract_after_dryRun_unverified :
    liveService.maxAgeDays = .whole 30 ∧ dryRequest.mode = .dryRun ∧ Untouched firstWorld ∧
      let after := ((liveService.verify firstClient dryRequest).runOn
        (liveService.after unverified firstWorld)).2
      ((liveService.contract secondClient).runOn after).1 =
          ((liveService.contract secondClient).runOn (liveService.after unverified firstWorld)).1 ∧
        ((liveService.contract firstClient).runOn after).1 =
          ((liveService.contract firstClient).runOn (liveService.after unverified firstWorld)).1.map
            Contract.untested := by
  obtain ⟨hothers, -, hown⟩ := contract_after_dryRun liveService 30 rfl unverified firstWorld firstClient
    dryRequest rfl firstWorld_untouched
  have hother : secondClient ≠ firstClient := by decide
  have hnone : ¬Predated [] (liveService.after unverified firstWorld).now := fun ⟨_, ha, _⟩ => nomatch ha
  exact ⟨rfl, rfl, firstWorld_untouched, hothers secondClient hother, hown hnone⟩

/-- A client that is ready by a live verification is not ready any more after a dry run at the same time. -/
theorem ready_until_dryRun :
    ∃ held left,
      ((liveService.contract firstClient).runOn (liveService.after connectedLive firstWorld)).1 = .ok held ∧
      held.ready = true ∧
      ((liveService.contract firstClient).runOn ((liveService.verify firstClient dryRequest).runOn
        (liveService.after connectedLive firstWorld)).2).1 = .ok left ∧
      left.ready = false := by
  have hstart := tracks_start liveService firstClient firstWorld_untouched
  obtain ⟨row, hpassed, hlog⟩ := connectedLive_appended hstart fun _ _ => rfl
  have htracks := after_tracks connectedLive hstart
  rw [List.nil_append, hlog] at htracks
  obtain ⟨newest, hnewest, hcontract, -⟩ := htracks.contract
  obtain rfl : newest = some ⟨firstWorld.now, row⟩ := hnewest.unique ⟨[], [], rfl, nofun, nofun⟩
  have hlimit : freshDays 30 ≤ maxDurationDays := by decide
  have hage : maxAgeMicros (some liveService.maxAgeDays) = .ok _ := maxAgeMicros_of_le hlimit
  rw [hage, now_after_connectedLive] at hcontract
  have hnow : ¬Predated [⟨firstWorld.now, row⟩] (liveService.after connectedLive firstWorld).now := by
    rintro ⟨a, ha, hlater⟩
    rw [now_after_connectedLive, List.mem_singleton.mp ha] at hlater
    exact Int.lt_irrefl _ hlater
  have hafter := (htracks.dryRun_contract (r := dryRequest) rfl rfl).2 hnow
  rw [hcontract] at hafter
  have hheld := congrArg Prod.fst hcontract
  refine ⟨_, _, hheld, ready_contractOf.mpr ⟨rfl, rfl, _, rfl, hpassed, ?_⟩, hafter, rfl⟩
  rw [Int.sub_self]
  decide

end Integration

end Cadence
