import Cadence.Proofs.IsoTexts
import Cadence.Proofs.Readiness

/-!
# How the evaluation of a contract ends

A time that cannot be read makes the contract stale. A time that is read, but that universal time cannot show, is a
fault instead, and so is an age that is too long for a duration.
-/

namespace Cadence.Integration

open Calendar

/-- The stamp of the source is read, but in universal time it lies outside of the calendar. -/
def TimeSource.Unplaced (source : TimeSource) : Prop :=
  ∃ wall offset, source.stamp? = some ⟨wall, some offset⟩ ∧ inRange (wall - offset) = false

/-- A stamp shows a reading that a wall clock can show. -/
def TimeSource.IsReal (source : TimeSource) : Prop := ∀ s, source = .stamp s → inRange s.wall = true

theorem stamp?_inRange {source : TimeSource} (hreal : source.IsReal) {s : Stamp} (h : source.stamp? = some s) :
    inRange s.wall = true := by
  cases source with
  | absent => cases h
  | stamp s' => exact Option.some.inj h ▸ hreal s' rfl
  | text text =>
    rw [TimeSource.stamp?] at h
    split at h
    · cases h
    · split at h <;> exact Calendar.stamp?_inRange h

/-- The ways in which the reading of a time ends. -/
inductive ParseEnding (source : TimeSource) : Outcome (Option Instant) → Prop
  | unread : source.stamp? = none → ParseEnding source (.ok none)
  | placed {s : Stamp} {t : Instant} : source.stamp? = some s → s.toInstant? = some t →
      (source.IsReal → inRange t.micros = true) → ParseEnding source (.ok (some t))
  | unplaced : source.Unplaced → ParseEnding source (.error .instantOutOfRange)

theorem parseTimestamp_ending (source : TimeSource) : ParseEnding source (parseTimestamp source) := by
  rw [parseTimestamp]
  cases hstamp : source.stamp? with
  | none => exact .unread hstamp
  | some s =>
    obtain ⟨wall, offset⟩ := s
    cases offset with
    | none => exact .placed hstamp rfl fun hreal => stamp?_inRange hreal hstamp
    | some offset =>
      dsimp only
      rw [Stamp.toInstant?]
      dsimp only
      by_cases hplaced : inRange (wall - offset) = true
      · rw [if_pos hplaced]
        refine .placed hstamp ?_ fun _ => hplaced
        rw [Stamp.toInstant?]
        exact if_pos hplaced
      · rw [if_neg hplaced]
        exact .unplaced ⟨wall, offset, hstamp, Bool.eq_false_iff.mpr hplaced⟩

theorem parseTimestamp_error_iff {source : TimeSource} :
    parseTimestamp source = .error .instantOutOfRange ↔ source.Unplaced := by
  have hending := parseTimestamp_ending source
  constructor
  · intro h
    rw [h] at hending
    cases hending
    assumption
  · rintro ⟨wall, offset, hstamp, hout⟩
    have hnone : (Stamp.mk wall (some offset)).toInstant? = none := if_neg (Bool.eq_false_iff.mp hout)
    rw [parseTimestamp, hstamp]
    dsimp only
    rw [hnone]

/-- A time that is no fault is read as an instant or not at all. -/
theorem parseTimestamp_ok {source : TimeSource} (h : ¬source.Unplaced) : ∃ t, parseTimestamp source = .ok t := by
  have hending := parseTimestamp_ending source
  cases hparse : parseTimestamp source with
  | ok t => exact ⟨t, rfl⟩
  | error f =>
    rw [hparse] at hending
    cases hending
    contradiction

theorem maxAgeMicros_map (days : Option Int) :
    maxAgeMicros (days.map .whole) = maxAgeMicros (some (.whole (days.getD 0))) := by
  cases days with
  | none => rfl
  | some d => rfl

theorem freshDays_le_iff {days : Option Int} :
    freshDays (days.getD 0) ≤ maxDurationDays ↔ ∀ d ∈ days, d ≤ maxDurationDays := by
  cases days with
  | none => exact ⟨fun _ _ hd => absurd hd (Option.not_mem_none _), fun _ => by decide⟩
  | some d =>
    have hfresh : freshDays d ≤ maxDurationDays ↔ d ≤ maxDurationDays := by
      simp only [freshDays, defaultMaxAgeDays, maxDurationDays]
      split <;> omega
    exact hfresh.trans ⟨fun h d' hd' => Option.some.inj hd' ▸ h, fun h => h d rfl⟩

theorem maxAgeMicros_days_of_le {days : Option Int} (h : ∀ d ∈ days, d ≤ maxDurationDays) :
    maxAgeMicros (days.map .whole) = .ok (freshDays (days.getD 0) * microsPerDay) := by
  rw [maxAgeMicros_map, maxAgeMicros_of_le (freshDays_le_iff.mpr h)]

theorem maxAgeMicros_days_of_lt {days : Option Int} (h : ¬∀ d ∈ days, d ≤ maxDurationDays) :
    ∃ d ∈ days, maxDurationDays < d ∧
      (maxAgeMicros (days.map .whole) = .error .daysTooMany ∨
        maxAgeMicros (days.map .whole) = .error (.durationTooLong d)) := by
  obtain ⟨d, hd, hlong⟩ : ∃ d ∈ days, maxDurationDays < d := by
    simpa only [not_forall, Int.not_le, exists_prop] using h
  obtain rfl : days = some d := hd
  have hfresh : freshDays d = d := by
    simp only [freshDays, defaultMaxAgeDays, maxDurationDays] at hlong ⊢
    split <;> omega
  refine ⟨d, rfl, hlong, ?_⟩
  rw [Option.map_some, maxAgeMicros_whole, hfresh, if_pos hlong]
  split
  · exact .inl rfl
  · exact .inr rfl

section

variable {e : Evidence} {days : Option Int} {now : TimeSource}

theorem evaluate_of_unplaced (h : e.latestAt.Unplaced) (maxAgeDays : Option Numeral) (clock : Instant) :
    Contract.evaluate e maxAgeDays now clock = .error .instantOutOfRange := by
  rw [Contract.evaluate, parseTimestamp_error_iff.mpr h]
  rfl

theorem evaluate_of_long {verified : Option Instant} (hverified : parseTimestamp e.latestAt = .ok verified)
    {maxAgeDays : Option Numeral} {f : Fault} (hage : maxAgeMicros maxAgeDays = .error f) (clock : Instant) :
    Contract.evaluate e maxAgeDays now clock = .error f := by
  rw [Contract.evaluate, hverified, hage]
  rfl

theorem evaluate_of_age {verified : Option Instant} (hverified : parseTimestamp e.latestAt = .ok verified)
    {maxAgeDays : Option Numeral} {maxAge : Int} (hage : maxAgeMicros maxAgeDays = .ok maxAge) (clock : Instant) :
    Contract.evaluate e maxAgeDays now clock =
      (parseTimestamp now).map fun current => .judge e verified maxAge (current.getD clock) := by
  rw [Contract.evaluate, hverified, hage]
  rfl

/-- An evaluation fails for one of the reasons that there are, or it judges by what it has read. -/
theorem evaluate_cases (e : Evidence) (days : Option Int) (now : TimeSource) (clock : Instant) :
    let evaluated := Contract.evaluate e (days.map .whole) now clock
    (∃ f, evaluated = .error f ∧
      ((f = .instantOutOfRange ∧ (e.latestAt.Unplaced ∨ now.Unplaced)) ∨
        ∃ d ∈ days, maxDurationDays < d ∧ (f = .daysTooMany ∨ f = .durationTooLong d))) ∨
    ((¬e.latestAt.Unplaced ∧ (∀ d ∈ days, d ≤ maxDurationDays) ∧ ¬now.Unplaced) ∧
      ∃ verified maxAge current, parseTimestamp e.latestAt = .ok verified ∧
        evaluated = .ok (.judge e verified maxAge current)) := by
  intro evaluated
  -- What goes wrong first decides: the time of the verification, then the age, then the present time.
  by_cases hat : e.latestAt.Unplaced
  · exact .inl ⟨_, evaluate_of_unplaced hat _ clock, .inl ⟨rfl, .inl hat⟩⟩
  obtain ⟨verified, hverified⟩ := parseTimestamp_ok hat
  by_cases hdays : ∀ d ∈ days, d ≤ maxDurationDays
  · have hage := maxAgeMicros_days_of_le hdays
    have hevaluated : evaluated = _ := evaluate_of_age hverified hage clock
    by_cases hnow : now.Unplaced
    · rw [parseTimestamp_error_iff.mpr hnow] at hevaluated
      exact .inl ⟨_, hevaluated, .inl ⟨rfl, .inr hnow⟩⟩
    · obtain ⟨current, hcurrent⟩ := parseTimestamp_ok hnow
      rw [hcurrent] at hevaluated
      exact .inr ⟨⟨hat, hdays, hnow⟩, verified, _, _, hverified, hevaluated⟩
  · obtain ⟨d, hd, hlong, hage | hage⟩ := maxAgeMicros_days_of_lt hdays
    · exact .inl ⟨_, evaluate_of_long hverified hage clock, .inr ⟨d, hd, hlong, .inl rfl⟩⟩
    · exact .inl ⟨_, evaluate_of_long hverified hage clock, .inr ⟨d, hd, hlong, .inr rfl⟩⟩

end

theorem judge_none (e : Evidence) (maxAge : Int) (now : Instant) :
    let contract := Contract.judge e none maxAge now
    contract.stale = true ∧ contract.testSendPassed = false ∧ contract.ready = false := by
  simp only [Contract.judge, Bool.not_true, Bool.and_false, and_self]

/-- The reading of a time ends in one of three ways, and it is a fault exactly if the time is read, but lies outside of
the calendar in universal time. A contract comes out unless the time of the verification or the present one is such a
time, or the age is longer than a duration can be; those are its only faults. It is not ready if the time of the
verification is not read. -/
theorem evaluate_endings (e : Evidence) (days : Option Int) (now : TimeSource) (clock : Instant) :
    let evaluated := Contract.evaluate e (days.map .whole) now clock
    (∀ source, ParseEnding source (parseTimestamp source) ∧
      (parseTimestamp source = .error .instantOutOfRange ↔ source.Unplaced)) ∧
    ((∃ contract, evaluated = .ok contract) ↔
      ¬e.latestAt.Unplaced ∧ (∀ d ∈ days, d ≤ maxDurationDays) ∧ ¬now.Unplaced) ∧
    (∀ f, evaluated = .error f →
      (f = .instantOutOfRange ∧ (e.latestAt.Unplaced ∨ now.Unplaced)) ∨
      ∃ d ∈ days, maxDurationDays < d ∧ (f = .daysTooMany ∨ f = .durationTooLong d)) ∧
    ∀ contract, evaluated = .ok contract → e.latestAt.stamp? = none →
      contract.stale = true ∧ contract.testSendPassed = false ∧ contract.ready = false := by
  intro evaluated
  refine ⟨fun source => ⟨parseTimestamp_ending source, parseTimestamp_error_iff⟩, ?_⟩
  rcases evaluate_cases e days now clock with ⟨f, hfault, hwhy⟩ |
    ⟨hclear, verified, maxAge, current, hverified, hjudged⟩
  · have hnone : ∀ contract, evaluated ≠ .ok contract := fun _ h => nomatch hfault.symm.trans h
    refine ⟨⟨fun ⟨contract, h⟩ => absurd h (hnone contract), ?_⟩, fun f' hf' => ?_,
      fun contract h => absurd h (hnone contract)⟩
    · rintro ⟨hat, hdays, hnow⟩
      rcases hwhy with ⟨-, hunplaced⟩ | ⟨d, hd, hlong, -⟩
      · exact absurd hunplaced (not_or.mpr ⟨hat, hnow⟩)
      · exact absurd (hdays d hd) (Int.not_le.mpr hlong)
    · rw [← Except.error.inj (hfault.symm.trans hf')]
      exact hwhy
  · refine ⟨⟨fun _ => hclear, fun _ => ⟨_, hjudged⟩⟩, fun f hf => (nomatch hjudged.symm.trans hf), ?_⟩
    intro contract hcontract hunread
    have hread : parseTimestamp e.latestAt = .ok none := by rw [parseTimestamp, hunread]
    obtain rfl : verified = none := Except.ok.inj (hverified.symm.trans hread)
    rw [Except.ok.inj (hcontract.symm.trans hjudged)]
    exact judge_none e maxAge current

/-- Midnight of the first day, at a place where it comes an hour earlier. -/
def beforeTheFirstDay : TimeSource := .text "0001-01-01T00:00:00+01:00"

/-- The time is read, and neither does it count as absent nor does it make the contract stale. An age that the settings
accept is a fault as well. -/
theorem unplaced_time_raises :
    let evidence (latestAt : TimeSource) : Evidence :=
      { hasAccessToken := true, hasPhoneNumberId := true, latestOk := true, latestAt }
    let now : TimeSource := .text "2026-03-01T12:00:00+00:00"
    parseTimestamp beforeTheFirstDay = .error .instantOutOfRange ∧
      Contract.evaluate (evidence beforeTheFirstDay) (some (.whole 30)) now default = .error .instantOutOfRange ∧
      Contract.evaluate (evidence now) (some (.whole 1000000000)) now default =
        .error (.durationTooLong 1000000000) := by
  have hunplaced : beforeTheFirstDay.Unplaced := ⟨0, 3600000000, by decide +kernel, by decide⟩
  have hlong : maxAgeMicros (some (.whole 1000000000)) = .error (.durationTooLong 1000000000) := by
    rw [maxAgeMicros_whole, if_neg (by decide), if_pos (by decide)]
    rfl
  exact ⟨parseTimestamp_error_iff.mpr hunplaced, evaluate_of_unplaced hunplaced _ _, evaluate_of_long rfl hlong _⟩

end Cadence.Integration
