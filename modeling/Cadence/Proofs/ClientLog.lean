import Cadence.Proofs.ClientIsolation
import Cadence.Proofs.RecordOrder
import Cadence.Proofs.VerificationRecords

/-!
# The log of a client

The verifications of a client put records in the tables, each with the time that the clock shows then. The
newest record is the one with the latest time, and among records of one time the one that was put on record
last. A history tells the log of a client, and the tables agree with it on which record is the newest.
-/

namespace Cadence

open Storage Integration

namespace Storage

variable {key : VerificationKey} {rows : List Verification} {row : Verification}

/-- The newest record after a row is appended: the row, unless it was created before the newest one so far. -/
def newerOf (row : Verification) : Option Verification → Verification
  | some r => if createdWall row < createdWall r then r else row
  | none => row

theorem newest_append (h : VerificationKey.of row = key) :
    (historyOf key (rows ++ [row])).head? = some (newerOf row (historyOf key rows).head?) := by
  obtain ⟨front, back, hbefore, hafter, hlater, hearlier⟩ := historyOf_append rows h
  rw [hafter, hbefore]
  cases front with
  | nil =>
    cases back with
    | nil => rfl
    | cons r back =>
      have hle := hearlier r List.mem_cons_self
      simp only [List.nil_append, List.head?_cons, newerOf, if_neg (Int.not_lt.mpr hle)]
  | cons r front =>
    have hlt := hlater r List.mem_cons_self
    simp only [List.cons_append, List.head?_cons, newerOf, if_pos hlt]

end Storage

namespace Integration

/-! ### The newest record of a history -/

variable {α : Type} {s : Service} {o p : Owner} {w : World α} {t : Tables}

/-- A record, and what the clock showed when it was put on record. -/
structure Appended where
  time : Instant
  record : Verification

def Step.appended? (s : Service) (o : Owner) (w : World α) : Step → Option Appended
  | .call p (.verify r) =>
    if p = o then
      match ((s.verify o r).runOn w).1 with
      | .ok (_, record) => some ⟨w.now, record⟩
      | .error _ => none
    else none
  | _ => none

/-- The records that the verifications of a client put on record in the course of a history. -/
def Service.appended (s : Service) (o : Owner) : List Step → World α → List Appended
  | [], _ => []
  | step :: rest, w => (step.appended? s o w).toList ++ s.appended o rest (step.run s w)

/-- The newest record of a log: none was put on record at a later time, and none after it at the same time. -/
def Newest (log : List Appended) : Option Appended → Prop
  | none => log = []
  | some a => ∃ earlier later, log = earlier ++ a :: later ∧
      (∀ b ∈ earlier, b.time.micros ≤ a.time.micros) ∧ ∀ b ∈ later, b.time.micros < a.time.micros

def latestOf (a : Appended) : Option Appended → Appended
  | some b => if a.time.micros < b.time.micros then b else a
  | none => a

theorem Service.appended_append (s : Service) (o : Owner) (steps rest : List Step) (w : World α) :
    s.appended o (steps ++ rest) w = s.appended o steps w ++ s.appended o rest (s.after steps w) := by
  induction steps generalizing w with
  | nil => rfl
  | cons step steps ih =>
    rw [List.cons_append, appended, appended, ih, List.append_assoc]
    rfl

theorem Newest.append {log : List Appended} {newest : Option Appended} (h : Newest log newest)
    (a : Appended) : Newest (log ++ [a]) (some (latestOf a newest)) := by
  cases newest with
  | none =>
    obtain rfl : log = [] := h
    exact ⟨[], [], rfl, nofun, nofun⟩
  | some b =>
    obtain ⟨earlier, later, rfl, hearlier, hlater⟩ := h
    by_cases hbefore : a.time.micros < b.time.micros
    · rw [latestOf, if_pos hbefore]
      have hlog : earlier ++ b :: later ++ [a] = earlier ++ b :: (later ++ [a]) := List.append_assoc ..
      refine ⟨earlier, later ++ [a], hlog, hearlier, fun c hc => ?_⟩
      rcases List.mem_append.mp hc with hc | hc
      · exact hlater c hc
      · rw [List.mem_singleton.mp hc]
        exact hbefore
    · rw [latestOf, if_neg hbefore]
      refine ⟨_, [], rfl, fun c hc => ?_, nofun⟩
      rcases List.mem_append.mp hc with hc | hc
      · have hle := hearlier c hc
        omega
      · rcases List.mem_cons.mp hc with rfl | hc
        · omega
        · have hlt := hlater c hc
          omega

theorem Newest.eq_of_split {a b : Appended} {earlier later between back : List Appended}
    (hearlier : ∀ c ∈ earlier ++ between, c.time.micros ≤ b.time.micros)
    (hlater : ∀ c ∈ later, c.time.micros < a.time.micros) (hsplit : a :: later = between ++ b :: back) :
    a = b := by
  cases between with
  | nil => exact (List.cons.inj hsplit).1
  | cons c between =>
    obtain ⟨rfl, rfl⟩ := List.cons.inj hsplit
    have hle := hearlier a (List.mem_append_right _ List.mem_cons_self)
    have hlt := hlater b (List.mem_append_right _ List.mem_cons_self)
    omega

/-- A log has only one newest record. -/
theorem Newest.unique {log : List Appended} {first second : Option Appended} (h : Newest log first)
    (h' : Newest log second) : first = second := by
  cases first with
  | none =>
    obtain rfl : log = [] := h
    cases second with
    | none => rfl
    | some b =>
      obtain ⟨earlier, later, hlog, -⟩ := h'
      cases earlier <;> cases hlog
  | some a =>
    obtain ⟨earlier, later, rfl, hearlier, hlater⟩ := h
    cases second with
    | none =>
      have hlog : earlier ++ a :: later = [] := h'
      cases earlier <;> cases hlog
    | some b =>
      obtain ⟨earlier', later', hlog, hearlier', hlater'⟩ := h'
      rcases List.append_eq_append_iff.mp hlog with ⟨between, rfl, hsplit⟩ | ⟨between, rfl, hsplit⟩
      · exact congrArg some (Newest.eq_of_split hearlier' hlater hsplit)
      · exact congrArg some (Newest.eq_of_split hearlier hlater' hsplit).symm

/-- Where the last record is also one of the latest, it is the newest. -/
theorem Newest.eq_getLast? {log : List Appended} {newest : Option Appended} (h : Newest log newest)
    (hforward : ∀ last, log.getLast? = some last → ∀ a ∈ log, a.time.micros ≤ last.time.micros) :
    newest = log.getLast? := by
  cases newest with
  | none =>
    obtain rfl : log = [] := h
    rfl
  | some a =>
    obtain ⟨earlier, later, rfl, -, hlater⟩ := h
    cases hlast : later.getLast? with
    | none =>
      rw [List.getLast?_eq_none_iff.mp hlast, List.getLast?_concat]
    | some b =>
      have hend : (earlier ++ a :: later).getLast? = some b := by
        rw [List.getLast?_append, List.getLast?_cons, hlast]
        rfl
      have hle := hforward b hend a (by simp only [List.mem_append, List.mem_cons_self, or_true])
      have hlt := hlater b (List.mem_of_getLast? hlast)
      omega

/-! ### Verifications over credentials that open -/

/-- Every credential that is there opens, at any time. -/
def Openings.Sure (opened : Openings) : Prop :=
  ∀ field f, opened field = some f → ∃ secret, f = fun _ => .ok secret

theorem Openings.Sure.update {opened : Openings} (h : opened.Sure) (saves : List (CredentialField × String)) :
    (opened.update saves).Sure := by
  intro field f hf
  rw [Openings.update] at hf
  cases hlast : lastOf field saves with
  | some secret =>
    rw [hlast] at hf
    exact ⟨secret, (Option.some.inj hf).symm⟩
  | none =>
    rw [hlast] at hf
    exact h field f hf

/-- What a verification finds out leaves the database and the clock alone. -/
theorem findings_keeps_database (ht : w.database.tables = some t) (hsure : (openings s.cipher o t).Sure)
    (r : VerifyRequest) :
    ((s.findings o r).runOn w).2.database = w.database ∧ ((s.findings o r).runOn w).2.now = w.now := by
  by_cases hsends : r.mode = .live ∧ s.allowLive = true ∧
      (openings s.cipher o t .accessToken).isSome ∧ (openings s.cipher o t .phoneNumberId).isSome
  · obtain ⟨hlive, hallowed, htoken, hphone⟩ := hsends
    obtain ⟨f, hf⟩ := Option.isSome_iff_exists.mp htoken
    obtain ⟨token, rfl⟩ := hsure _ f hf
    obtain ⟨g, hg⟩ := Option.isSome_iff_exists.mp hphone
    obtain ⟨phone, rfl⟩ := hsure _ g hg
    obtain ⟨checks, evidence, hfindings⟩ := Service.runOn_findings_live ht hf hg hlive hallowed
    rw [hfindings]
    rcases Service.world_of_sendTest checks evidence w with hsend | ⟨request, hsend⟩ <;> rw [hsend] <;> exact ⟨rfl, rfl⟩
  · have hidle : r.mode = .live → s.allowLive = true →
        openings s.cipher o t .accessToken = none ∨ openings s.cipher o t .phoneNumberId = none := by
      intro hlive hallowed
      by_contra hboth
      obtain ⟨htoken, hphone⟩ := not_or.mp hboth
      exact hsends
        ⟨hlive, hallowed, Option.isSome_iff_ne_none.mpr htoken, Option.isSome_iff_ne_none.mpr hphone⟩
    obtain ⟨f, hfindings⟩ := Service.runOn_findings_idle ht hidle
    rw [hfindings]
    exact ⟨rfl, rfl⟩

/-! ### What a history leaves -/

/-- The newest record of a client in the tables, and what the clock showed when it was put there. -/
def NewestIn (o : Owner) (newest : Option Appended) (w : World α) : Prop :=
  ∃ t, w.database.tables = some t ∧
    (historyOf o.verificationKey t.verifications).head? = newest.map (·.record)

/-- The credentials and the log of a client at some time in a history. -/
structure Tracks (s : Service) (o : Owner) (opened : Openings) (log : List Appended) (w : World α) :
    Prop where
  vault : Vault s.cipher o opened w
  sure : opened.Sure
  newest : ∃ newest, Newest log newest ∧ NewestIn o newest w
  stamped : ∀ a ∈ log, a.record.createdAt = some a.time.toNaive

theorem newestIn_keptBySaving (newest : Option Appended) (p : Owner) :
    KeptBySaving p (NewestIn (α := α) o newest) where
  drawn _ h := h
  saved w t field token userId ht h := by
    obtain ⟨t', ht', hnewest⟩ := h
    obtain rfl : t' = t := Option.some.inj (ht'.symm.trans ht)
    exact ⟨_, rfl, hnewest⟩

theorem newestIn_keptByVerifying (newest : Option Appended) (h : p ≠ o) :
    KeptByVerifying p (NewestIn (α := α) o newest) where
  sent _ _ h := h
  recorded w t record ht hrecord hw := by
    obtain ⟨t', ht', hnewest⟩ := hw
    obtain rfl : t' = t := Option.some.inj (ht'.symm.trans ht)
    have hother : VerificationKey.of (t'.verificationRow record w.now) ≠ o.verificationKey :=
      fun heq => h (Owner.verificationKey_inj (hrecord.symm.trans heq))
    refine ⟨_, rfl, ?_⟩
    rw [Tables.addVerification, historyOf_append_other hother]
    exact hnewest

theorem Newest.mem {log : List Appended} {a : Appended} (h : Newest log (some a)) : a ∈ log := by
  obtain ⟨earlier, later, rfl, -, -⟩ := h
  exact List.mem_append_right _ List.mem_cons_self

theorem createdWall_of_stamped {a : Appended} (h : a.record.createdAt = some a.time.toNaive) :
    createdWall a.record = a.time.micros := by
  rw [createdWall, h]
  rfl

theorem newerOf_record {a : Appended} {newest : Option Appended}
    (ha : a.record.createdAt = some a.time.toNaive)
    (hnewest : ∀ b, newest = some b → b.record.createdAt = some b.time.toNaive) :
    newerOf a.record (newest.map (·.record)) = (latestOf a newest).record := by
  cases newest with
  | none => rfl
  | some b =>
    simp only [Option.map_some, newerOf, latestOf, createdWall_of_stamped ha,
      createdWall_of_stamped (hnewest b rfl)]
    split <;> rfl

variable {opened : Openings} {log : List Appended}

theorem Tracks.verify_vault (h : Tracks s o opened log w) (r : VerifyRequest) :
    Vault s.cipher o opened ((s.verify o r).runOn w).2 :=
  Service.verify_keeps (vault_keptByVerifying opened o) s r w h.vault

theorem Tracks.appended (h : Tracks s o opened log w) {f : Findings} {w' : World α} {r : VerifyRequest}
    (hfindings : (s.findings o r).runOn w = (.ok f, w')) (hdatabase : w'.database = w.database)
    (hnow : w'.now = w.now) :
    ∃ row, ((s.verify o r).runOn w).1 = .ok (decide (f.status = .passed), row) ∧ row.status = f.status ∧
      Tracks s o opened (log ++ [⟨w.now, row⟩]) ((s.verify o r).runOn w).2 := by
  obtain ⟨newest, hnewest, t, ht, hhead⟩ := h.newest
  have hrun := Service.runOn_verify_found hfindings (hdatabase ▸ ht)
  rw [hnow] at hrun
  dsimp only at hrun
  let row : Verification := t.verificationRow (Service.recordOf o r.initiatedBy f) w.now
  have hstamped : ∀ a ∈ log ++ [⟨w.now, row⟩], a.record.createdAt = some a.time.toNaive := by
    intro a ha
    rcases List.mem_append.mp ha with ha | ha
    · exact h.stamped a ha
    · rw [List.mem_singleton.mp ha]
      rfl
  have hlast : newerOf row (newest.map (·.record)) = (latestOf ⟨w.now, row⟩ newest).record :=
    newerOf_record (hstamped _ (List.mem_append_right _ List.mem_cons_self)) fun b hb =>
      h.stamped b (Newest.mem (hb ▸ hnewest))
  refine ⟨row, congrArg Prod.fst hrun, rfl, h.verify_vault r, h.sure, ⟨_, hnewest.append _, ?_⟩, hstamped⟩
  have hkey : VerificationKey.of row = o.verificationKey := rfl
  have hnext : (historyOf o.verificationKey (t.addVerification row).verifications).head? =
      some (latestOf ⟨w.now, row⟩ newest).record := by
    rw [Tables.addVerification, newest_append hkey, hhead, hlast]
  rw [hrun]
  exact ⟨_, rfl, hnext⟩

theorem Tracks.unrecorded (h : Tracks s o opened log w) {w' : World α}
    (hvault : Vault s.cipher o opened w') (hdatabase : w'.database = w.database) :
    Tracks s o opened log w' := by
  obtain ⟨newest, hnewest, t, ht, hhead⟩ := h.newest
  exact ⟨hvault, h.sure, ⟨newest, hnewest, t, hdatabase ▸ ht, hhead⟩, h.stamped⟩

theorem verify_tracks (h : Tracks s o opened log w) (r : VerifyRequest) :
    Tracks s o opened (log ++ ((Step.call o (.verify r)).appended? s o w).toList)
      ((s.verify o r).runOn w).2 := by
  obtain ⟨t, ht, hopened⟩ := h.vault.tables
  have hvault := h.verify_vault r
  obtain ⟨hdatabase, hnow⟩ := findings_keeps_database ht (hopened ▸ h.sure) r
  rw [Step.appended?, if_pos rfl]
  rcases hfindings : (s.findings o r).runOn w with ⟨f | f, w'⟩ <;> rw [hfindings] at hdatabase hnow
  · rw [Service.runOn_verify_lost hfindings] at hvault ⊢
    rw [Option.toList_none, List.append_nil]
    exact h.unrecorded hvault hdatabase
  · obtain ⟨row, hreply, -, htracks⟩ := h.appended hfindings hdatabase hnow
    rw [hreply]
    exact htracks

theorem step_tracks (step : Step) (h : Tracks s o opened log w) :
    Tracks s o (opened.update (step.keptOf o)) (log ++ (step.appended? s o w).toList) (step.run s w) := by
  have hvault := step_vault step h.vault
  have hsure := h.sure.update (step.keptOf o)
  obtain ⟨newest, hnewest, hin⟩ := h.newest
  have hsaving := newestIn_keptBySaving (α := α) (o := o) newest
  -- Only a verification of the client itself adds to its log.
  have hquiet (hnone : step.appended? s o w = none) (hkept : NewestIn o newest (step.run s w)) :
      Tracks s o (opened.update (step.keptOf o)) (log ++ (step.appended? s o w).toList) (step.run s w) := by
    rw [hnone, Option.toList_none, List.append_nil]
    exact ⟨hvault, hsure, ⟨newest, hnewest, hkept⟩, h.stamped⟩
  cases step with
  | call p c =>
    by_cases hp : p = o
    · subst hp
      cases c with
      | verify r =>
        have hrun : (Step.call p (.verify r)).run s w = ((s.verify p r).runOn w).2 := runOn_perform_verify r
        rw [hrun, Step.keptOf, if_pos rfl]
        exact verify_tracks h r
      | _ => exact hquiet rfl (perform_keeps_unverified (hsaving p) s _ (fun _ => Call.noConfusion) w hin)
    · have hverifying := newestIn_keptByVerifying (α := α) newest hp
      refine hquiet ?_ (perform_keeps (hsaving p) hverifying s c w hin)
      cases c with
      | verify r => exact if_neg hp
      | _ => rfl
  | clock now => exact hquiet rfl hin
  | provider answer => exact hquiet rfl hin

theorem after_tracks (steps : List Step) (h : Tracks s o opened log w) :
    Tracks s o (opened.update (steps.flatMap (Step.keptOf o))) (log ++ s.appended o steps w)
      (s.after steps w) := by
  induction steps generalizing opened log w with
  | nil =>
    rw [Service.appended, List.append_nil]
    exact h
  | cons step rest ih =>
    rw [List.flatMap_cons, Openings.update_append, Service.appended, ← List.append_assoc]
    exact ih (step_tracks step h)

end Integration

end Cadence
