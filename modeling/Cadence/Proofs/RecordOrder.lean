import Cadence.Proofs.AppendedRows
import Cadence.Storage.Unchecked
import Mathlib.Data.List.Induction

/-!
# The order of verification records

The records of a key are read in one order, the newest first: by the time of their creation, and among records of one
time by their number, the one that was appended last before the others. A record that is appended takes its place in
that order and moves no other one. What is listed is as much of the order as the limit says. No limit can be beyond
the numbers that a column can hold.
-/

namespace Cadence.Storage

open Integration

variable {key : VerificationKey} {rows : List Verification} {row : Verification}

/-! ### The order of rows -/

def recordNumber (r : Verification) : Int := r.id.getD 0

/-- The first record comes before the second one: it was created later, or at the same time and appended later. -/
def Newer (a b : Verification) : Prop :=
  createdWall b < createdWall a ∨ createdWall b = createdWall a ∧ recordNumber b < recordNumber a

theorem historyOf_perm (key : VerificationKey) (rows : List Verification) :
    (historyOf key rows).Perm (rows.filter fun r => VerificationKey.of r = key) := by
  refine (List.mergeSort_perm _ _).trans ?_
  rw [List.filter_reverse]
  exact List.reverse_perm _

theorem historyOf_append_other (h : VerificationKey.of row ≠ key) :
    historyOf key (rows ++ [row]) = historyOf key rows := by
  simp only [historyOf, List.reverse_append, List.reverse_singleton, List.singleton_append, List.filter_cons,
    h, decide_false, Bool.false_eq_true, if_false]

/-- A row that is appended is put in front of the rows that were not created after it. -/
theorem historyOf_append (rows : List Verification) (h : VerificationKey.of row = key) :
    ∃ front back, historyOf key rows = front ++ back ∧ historyOf key (rows ++ [row]) = front ++ row :: back ∧
      (∀ r ∈ front, createdWall row < createdWall r) ∧ ∀ r ∈ back, createdWall r ≤ createdWall row := by
  let le (a b : Verification) : Bool := decide (createdWall b ≤ createdWall a)
  have htrans : ∀ a b c, le a b → le b c → le a c := fun a b c hab hbc =>
    decide_eq_true (Int.le_trans (of_decide_eq_true hbc) (of_decide_eq_true hab))
  have htotal : ∀ a b, (le a b || le b a) = true := fun a b => by
    simp only [le, Bool.or_eq_true, decide_eq_true_eq]
    exact Int.le_total _ _
  have hcons : historyOf key (rows ++ [row]) =
      (row :: rows.reverse.filter fun r => VerificationKey.of r = key).mergeSort le := by
    simp only [historyOf, List.reverse_append, List.reverse_singleton, List.singleton_append,
      List.filter_cons, h, decide_true, if_true, le]
  obtain ⟨front, back, hnew, hold, hfront⟩ := List.mergeSort_cons htrans htotal row
    (rows.reverse.filter fun r => VerificationKey.of r = key)
  have hsorted : (front ++ row :: back).Pairwise (le · ·) := hnew ▸ List.pairwise_mergeSort htrans htotal _
  refine ⟨front, back, hold, hcons.trans hnew, fun r hr => ?_, fun r hr => ?_⟩
  · have hbefore : le row r = false := by simpa using hfront r hr
    exact Int.lt_of_not_ge (of_decide_eq_false hbefore)
  · have hafter := (List.pairwise_cons.mp (List.pairwise_append.mp hsorted).2.1).1 r hr
    exact of_decide_eq_true hafter

theorem pairwise_newer (hnumbers : rows.Pairwise fun a b => recordNumber a < recordNumber b) :
    (historyOf key rows).Pairwise Newer := by
  -- The last row has the greatest number, so among the rows of its time it belongs before the others.
  induction rows using List.reverseRecOn with
  | nil => simp [historyOf]
  | append_singleton rows row ih =>
    obtain ⟨hrows, -, hlast⟩ := List.pairwise_append.mp hnumbers
    have hold := ih hrows
    by_cases hkey : VerificationKey.of row = key
    · obtain ⟨front, back, hbefore, hafter, hlater, hearlier⟩ := historyOf_append rows hkey
      rw [hbefore] at hold
      obtain ⟨hfront, hback, hacross⟩ := List.pairwise_append.mp hold
      rw [hafter, List.pairwise_append, List.pairwise_cons]
      refine ⟨hfront, ⟨fun r hr => ?_, hback⟩, fun r hr r' hr' => ?_⟩
      · have hmem : r ∈ rows := by
          have hhistory : r ∈ historyOf key rows := hbefore ▸ List.mem_append_right front hr
          exact (List.mem_filter.mp ((historyOf_perm key rows).mem_iff.mp hhistory)).1
        have hnumber := hlast r hmem row (List.mem_singleton.mpr rfl)
        have htime := hearlier r hr
        unfold Newer
        omega
      · rcases List.mem_cons.mp hr' with rfl | hr'
        · exact .inl (hlater r hr)
        · exact hacross r hr r' hr'
    · rwa [historyOf_append_other hkey]

/-! ### What is read -/

/-- All that can be read of a key is as much of a list as a limit says, and its head. -/
structure Tells (db : Database) (key : VerificationKey) (log : List Verification) : Prop where
  listed : ∀ (limit : Nat) (later : Instant),
    (Unchecked.verificationHistory (.str key.tenantId) (.str key.clientId) (.str key.provider) (.str key.checkType)
      (.int limit) later).runOn db =
        (if limit < Nat.pow 2 63 then .ok (log.take limit) else .error .integerTooWide, db)
  latest : ∀ later : Instant,
    (Unchecked.latestVerification (.str key.tenantId) (.str key.clientId) (.str key.provider) (.str key.checkType)
      later).runOn db = (.ok log.head?, db)

theorem fitsColumn_nat (n : Nat) : fitsColumn n = decide (n < Nat.pow 2 63) := by
  have hint : Int.pow 2 63 = 9223372036854775808 := rfl
  have hnat : Nat.pow 2 63 = 9223372036854775808 := rfl
  simp only [fitsColumn, hint, hnat]
  by_cases h : n < 9223372036854775808
  · simp only [h, decide_true, Bool.and_eq_true, decide_eq_true_eq]
    omega
  · simp only [h, decide_false, Bool.and_eq_false_iff, decide_eq_false_iff_not]
    omega

theorem VerificationLog.runOn_history {db : Database} {t : Tables} (key : VerificationKey) (limit : Nat)
    (now : Instant) (ht : db.tables = some t) :
    (history key limit now).runOn db = (.ok ((historyOf key t.verifications).take limit), db) :=
  Task.runOn_bind_ok (runOn_tablesOr_some ht)

theorem Unchecked.verificationHistory_int (key : VerificationKey) (limit : Int) (now : Instant) :
    verificationHistory (.str key.tenantId) (.str key.clientId) (.str key.provider) (.str key.checkType) (.int limit)
        now = (do
      if !fitsColumn limit then
        refuse (refused "Failed to list verifications" "list_history" "integration_verifications" now) .tooWide
      VerificationLog.history key limit now) :=
  rfl

theorem tells_historyOf {db : Database} {t : Tables} (key : VerificationKey) (ht : db.tables = some t) :
    Tells db key (historyOf key t.verifications) where
  listed limit later := by
    rw [Unchecked.verificationHistory_int, fitsColumn_nat]
    by_cases hlimit : limit < Nat.pow 2 63
    · rw [if_pos hlimit, decide_eq_true hlimit]
      exact VerificationLog.runOn_history key limit later ht
    · rw [if_neg hlimit, decide_eq_false hlimit]
      exact Task.runOn_bind_error (Task.runOn_bind_ok (runOn_tablesOr_some ht))
  latest later := Task.runOn_bind_ok (runOn_tablesOr_some ht)

/-! ### Appended records -/

/-- The row of a number that an append commits: the record, but for its number and its time. -/
structure Logs (number : Nat) (m : Made Verification Verification) : Prop where
  row : m.row = { m.call with id := some (number + 1 : Nat), createdAt := some m.time.toNaive }

namespace VerificationLog

/-- The log as a store: what an append commits, and how its row is read back. -/
def store : Store Verification Verification where
  commit := insert
  reload := reload

theorem perform_eq (record : Verification) (now : Instant) : store.perform record now = append record now := rfl

theorem appends : Appends store (·.verifications) appendRefused Logs where
  committed record now db t ht :=
    .inr ⟨t.verificationRow record now, t.addVerification (t.verificationRow record now),
      runOn_insert record ht, rfl, fun _ => ⟨rfl⟩⟩
  reloaded _ _ _ _ _ ht hrow := runOn_reload ht hrow
  dropped record now db ht := ⟨_, by rw [store, runOn_insert_none ht]⟩
  unread _ _ _ ht := runOn_reload_none ht

theorem rows_of_key {key : VerificationKey} {made : List (Made Verification Verification)}
    (hlogs : ∀ m ∈ made, ∃ n, Logs n m) :
    (made.map (·.row)).filter (fun r => VerificationKey.of r = key) =
      (made.filter fun m => VerificationKey.of m.call = key).map (·.row) := by
  rw [List.filter_map]
  refine congrArg _ (List.filter_congr fun m hm => ?_)
  obtain ⟨n, hn⟩ := hlogs m hm
  rw [Function.comp_apply, hn.row]
  rfl

/-- What can be read of a key after a history of appends, and after one more, is a list of the records that the
history committed for the key, each of them once. Their order is by time and then by number, the newest first. An
append that committed has returned its row, or was refused since it could not read the row back. -/
theorem history_after_appends (now : Instant) (t : Tables) (sequences : List (String × Nat))
    (steps : List (StoreStep Verification)) (key : VerificationKey) :
    let start : Clocked := ⟨now, { tables := some { t with verifications := [] }, sequences := sequences }⟩
    let appends := start.made store steps
    let after := start.after store steps
    (∀ m ∈ appends, m.row = { m.call with id := m.row.id, createdAt := some m.time.toNaive } ∧
      (m.ending = .ok m.row ∨ m.ending = .error (appendRefused m.time))) ∧
    (appends.Pairwise fun a b => recordNumber a.row < recordNumber b.row) ∧
    ∃ log, Tells after.database key log ∧
      log.Perm ((appends.filter fun m => VerificationKey.of m.call = key).map (·.row)) ∧ log.Pairwise Newer ∧
      ∀ record, ∃ row database, (append record after.now).runOn after.database = (.ok row, database) ∧
        if VerificationKey.of record = key then
          ∃ front back, log = front ++ back ∧ Tells database key (front ++ row :: back)
        else Tells database key log := by
  intro start appends after
  have ht : start.database.tables = some { t with verifications := [] } := rfl
  obtain ⟨hlogs, hordered⟩ := VerificationLog.appends.made steps ht
  obtain ⟨t', ht', hrows, -⟩ := VerificationLog.appends.after steps ht
  have hrows : t'.verifications = appends.map (·.row) := by simpa using hrows
  have hrowsLogged : ∀ m ∈ appends, ∃ n, Logs n m := fun m hm => (hlogs m hm).1
  have hnumbers : appends.Pairwise fun a b => recordNumber a.row < recordNumber b.row := by
    refine hordered.imp ?_
    rintro a b ⟨i, j, hij, ha, hb⟩
    rw [ha.row, hb.row]
    simp only [recordNumber, Option.getD_some]
    omega
  refine ⟨fun m hm => ?_, hnumbers, historyOf key t'.verifications, tells_historyOf key ht', ?_, ?_, fun record => ?_⟩
  · obtain ⟨⟨n, hn⟩, hending⟩ := hlogs m hm
    exact ⟨by rw [hn.row], hending⟩
  · rw [← rows_of_key hrowsLogged, ← hrows]
    exact historyOf_perm key t'.verifications
  · refine pairwise_newer ?_
    rw [hrows, List.pairwise_map]
    exact hnumbers
  · let row := t'.verificationRow record after.now
    have hrow : VerificationKey.of row = VerificationKey.of record := rfl
    have hnext : Tells { after.database with tables := some (t'.addVerification row) } key _ := tells_historyOf key rfl
    refine ⟨row, _, runOn_append record ht', ?_⟩
    by_cases hkey : VerificationKey.of record = key
    · obtain ⟨front, back, hbefore, hafter, -⟩ := historyOf_append t'.verifications (hrow.trans hkey)
      rw [if_pos hkey]
      exact ⟨front, back, hbefore, hafter ▸ hnext⟩
    · rw [if_neg hkey]
      have hother : historyOf key (t'.addVerification row).verifications = historyOf key t'.verifications :=
        historyOf_append_other (hrow ▸ hkey)
      exact hother ▸ hnext

def liveKey : VerificationKey := ⟨"tenant-1", "client-1", "whatsapp", "test_send_live"⟩

def liveRecord (status : VerificationStatus) : Verification where
  tenantId := "tenant-1"
  clientId := "client-1"
  provider := "whatsapp"
  checkType := "test_send_live"
  status := status

/-- Two records of a key with the clock set back in between, of which the second is not read back, a record of another
client, and one that is lost. -/
def mixedAppends : List (StoreStep Verification) := [
  .call (liveRecord .passed) .throughout, .clock ⟨0⟩,
  .call { liveRecord .passed with clientId := "client-2" } .throughout, .call (liveRecord .failed) .untilCommitted,
  .call (liveRecord .incomplete) .never]

/-- The record that was appended last is not the newest one. -/
theorem history_after_appends_mixed :
    ∃ log, Tells (Clocked.after store ⟨⟨1000⟩, {}⟩ mixedAppends).database liveKey log ∧
      log.map (fun r => (recordNumber r, r.status)) = [(1, .passed), (3, .failed)] := by
  obtain ⟨-, -, log, htells, hperm, hnewer, -⟩ := history_after_appends ⟨1000⟩ {} [] mixedAppends liveKey
  let first : Verification := { liveRecord .passed with id := some 1, createdAt := some ⟨1000, none⟩ }
  let second : Verification := { liveRecord .failed with id := some 3, createdAt := some ⟨0, none⟩ }
  have hrows : ((Clocked.made store ⟨⟨1000⟩, {}⟩ mixedAppends).filter fun m =>
      VerificationKey.of m.call = liveKey).map (·.row) = [first, second] := rfl
  have hpair : [first, second].Pairwise Newer := List.pairwise_pair.mpr (.inl (by decide))
  have hlog : log = [first, second] :=
    (hperm.trans (.of_eq hrows)).eq_of_pairwise
      (fun a b _ _ hab hba => by unfold Newer at hab hba; omega) hnewer hpair
  refine ⟨log, htells, ?_⟩
  rw [hlog]
  rfl

/-- A record that is the latest of its key is not listed under the first limit that no column can hold. -/
theorem history_limit_too_wide :
    let after := (Clocked.after store ⟨⟨0⟩, {}⟩ [.call (liveRecord .passed) .throughout]).database
    ((Unchecked.latestVerification (.str "tenant-1") (.str "client-1") (.str "whatsapp") (.str "test_send_live")
        ⟨0⟩).runOn after).1 = .ok (some { liveRecord .passed with id := some 1, createdAt := some ⟨0, none⟩ }) ∧
      ((Unchecked.verificationHistory (.str "tenant-1") (.str "client-1") (.str "whatsapp") (.str "test_send_live")
        (.int (Nat.pow 2 63)) ⟨0⟩).runOn after).1 = .error .integerTooWide := by
  intro after
  let row : Verification := { liveRecord .passed with id := some 1, createdAt := some ⟨0, none⟩ }
  have hrow : historyOf liveKey [row] = [row] := List.mergeSort_singleton row
  have htells : Tells after liveKey [row] := hrow ▸ tells_historyOf (t := { verifications := [row] }) liveKey rfl
  have hlisted := congrArg Prod.fst (htells.listed (Nat.pow 2 63) ⟨0⟩)
  rw [if_neg (Nat.lt_irrefl _)] at hlisted
  exact ⟨congrArg Prod.fst (htells.latest ⟨0⟩), hlisted⟩

end VerificationLog

end Cadence.Storage
