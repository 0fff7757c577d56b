import Cadence.Proofs.ContractEndings
import Cadence.Proofs.TrimmedTexts

/-!
# Instants and how they are told

An instant may be told by a stamp or by a text, in universal time or at a distance from it. The contract goes by the
instants, and not by the way in which they are told.
-/

namespace Cadence

namespace Calendar

theorem isBlank_digitChar {d : Nat} (h : d < 10) : Text.isBlank (Nat.digitChar d) = false := by
  revert d
  decide

/-- A reading with something that is no blank at its end is trimmed. -/
theorem WallText.isTrimmed {wall : Int} {text rest init : List Char} {last : Char} (h : WallText wall text)
    (hlast : text ++ rest = init ++ [last]) (hblank : Text.isBlank last = false) : Text.IsTrimmed (text ++ rest) := by
  obtain ⟨n, tail, rfl⟩ := h.first
  refine ⟨fun c hc => ?_, fun c hc => ?_⟩
  · obtain rfl : Nat.digitChar (n % 10) = c := Option.some.inj hc
    exact isBlank_digitChar (Nat.mod_lt n (by decide))
  · rw [hlast, List.getLast?_concat] at hc
    exact Option.some.inj hc ▸ hblank

theorem zoneText_zero : ZoneText 0 ['+', '0', '0', ':', '0', '0'] := by
  have hclock : ClockText true _ _ := .minutes (by decide : 0 < 24) (by decide : 0 < 60)
  rw [Nat.mul_zero, Nat.add_zero] at hclock
  have hzone := ZoneText.ahead hclock
  rw [Nat.zero_mul] at hzone
  exact hzone

end Calendar

namespace Integration

open Calendar

/-- The ways to tell an instant. -/
inductive Tells (t : Instant) : TimeSource → Prop
  | aware (offset : Int) : Tells t (.stamp ⟨t.micros + offset, some offset⟩)
  | naive : Tells t (.stamp t.toNaive)
  | zoned {before text after : String} {offset : Int} {wall zone : List Char} :
      Text.isBlankText before = true → Text.isBlankText after = true →
      WallText (t.micros + offset) wall → ZoneText offset zone → text.toList = wall ++ zone →
      Tells t (.text (before ++ text ++ after))
  | universal {before text after : String} {wall : List Char} {z : Char} :
      Text.isBlankText before = true → Text.isBlankText after = true →
      WallText t.micros wall → z = 'Z' ∨ z = 'z' → text.toList = wall ++ [z] →
      Tells t (.text (before ++ text ++ after))

/-- A text goes by its last character once the blanks around it are gone. -/
theorem stamp?_text {before text after : String} {wall : Int} {reading rest init : List Char} {last : Char}
    (hbefore : Text.isBlankText before = true) (hafter : Text.isBlankText after = true)
    (hreading : WallText wall reading) (htext : text.toList = reading ++ rest)
    (hlast : reading ++ rest = init ++ [last])
    (hblank : Text.isBlank last = false) :
    (TimeSource.text (before ++ text ++ after)).stamp? =
      if last = 'Z' ∨ last = 'z' then Iso.stamp? (init ++ ['+', '0', '0', ':', '0', '0'])
      else Iso.stamp? (reading ++ rest) := by
  have hne : reading ++ rest ≠ [] := by
    rw [hlast]
    exact List.append_ne_nil_of_right_ne_nil _ (List.cons_ne_nil _ _)
  have hchars : Text.stripChars (before ++ text ++ after).toList = reading ++ rest := by
    rw [String.toList_append, String.toList_append, htext, List.append_assoc]
    exact (hreading.isTrimmed hlast hblank).stripChars_blanks hne (List.all_eq_true.mp hbefore)
      (List.all_eq_true.mp hafter)
  rw [TimeSource.stamp?, hchars, hlast, List.reverse_concat]
  dsimp only
  rw [List.reverse_reverse]

theorem Tells.stamp? {t : Instant} {source : TimeSource} (h : Tells t source) :
    ∃ offset : Option Int, source.stamp? = some ⟨t.micros + offset.getD 0, offset⟩ := by
  cases h with
  | aware offset => exact ⟨some offset, rfl⟩
  | naive => exact ⟨none, by rw [Option.getD_none, Int.add_zero]; rfl⟩
  | @zoned before text after offset wall zone hbefore hafter hwall hzone htext =>
    -- The text ends with a digit of its zone, so it is not one that ends with the letter.
    obtain ⟨init, n, hinit⟩ := hzone.last
    have hdigit : n % 10 < 10 := Nat.mod_lt n (by decide)
    have hlast : wall ++ zone = (wall ++ init) ++ [Nat.digitChar (n % 10)] := by rw [hinit, List.append_assoc]
    have hother : ¬(Nat.digitChar (n % 10) = 'Z' ∨ Nat.digitChar (n % 10) = 'z') :=
      not_or.mpr ⟨digit_ne rfl, digit_ne rfl⟩
    refine ⟨some offset, ?_⟩
    rw [stamp?_text hbefore hafter hwall htext hlast (isBlank_digitChar hdigit), if_neg hother]
    exact hwall.read (hzone.read false) hzone.head?
  | @universal before text after wall z hbefore hafter hwall hz htext =>
    have hblank : Text.isBlank z = false := by
      rcases hz with rfl | rfl <;> rfl
    refine ⟨some 0, ?_⟩
    rw [stamp?_text hbefore hafter hwall htext rfl hblank, if_pos hz, Option.getD_some, Int.add_zero]
    exact hwall.read (zoneText_zero.read false) zoneText_zero.head?

theorem parseTimestamp_of_tells {t : Instant} {source : TimeSource} (ht : inRange t.micros = true)
    (h : Tells t source) : parseTimestamp source = .ok (some t) := by
  obtain ⟨offset, hstamp⟩ := h.stamp?
  have hinstant : (Stamp.mk (t.micros + offset.getD 0) offset).toInstant? = some t := by
    cases offset with
    | none => rw [Stamp.toInstant?, Option.getD_none, Int.add_zero]
    | some offset =>
      rw [Stamp.toInstant?]
      dsimp only
      rw [Option.getD_some, Int.add_sub_cancel, if_pos ht]
  rw [parseTimestamp, hstamp]
  dsimp only
  rw [hinstant]

/-! ### Printed instants -/

/-- What a wall clock shows that is so many minutes ahead of universal time. -/
def inZone (t : Instant) (minutes : Int) : Stamp :=
  ⟨t.micros + minutes * 60 * microsPerSecond, some (minutes * 60 * microsPerSecond)⟩

theorem tells_inZone_text {t : Instant} {minutes : Int} (hminutes : minutes.natAbs < 1440)
    (hlocal : inRange (inZone t minutes).wall = true) {before after : String}
    (hbefore : Text.isBlankText before = true) (hafter : Text.isBlankText after = true) :
    Tells t (.text (before ++ (inZone t minutes).text ++ after)) := by
  obtain ⟨wall, hwall, htext⟩ := text_wallText hlocal
  exact .zoned hbefore hafter hwall (offsetText_zoneText hminutes) htext

theorem tells_toNaive_text {t : Instant} (ht : inRange t.micros = true) {z : Char} (hz : z = 'Z' ∨ z = 'z')
    {before after : String} (hbefore : Text.isBlankText before = true) (hafter : Text.isBlankText after = true) :
    Tells t (.text (before ++ t.toNaive.text.push z ++ after)) := by
  obtain ⟨wall, hwall, htext⟩ := text_wallText (s := t.toNaive) ht
  refine .universal hbefore hafter hwall hz ?_
  rw [String.toList_push, htext]
  exact congrArg (· ++ [z]) (List.append_nil wall)

/-! ### Contracts -/

/-- The contract goes by the instant of the verification and the instant at which it is evaluated, whichever way these
are told, and it is stale if and only if the time between them is longer than a verification stays fresh. So it stays
stale. Among the ways to tell an instant are the printed stamps of all zones, with blanks around them. -/
theorem contract_of_instants (e : Evidence) (days : Option Int) (hdays : ∀ d ∈ days, d ≤ maxDurationDays)
    {verified : Instant} (hverified : inRange verified.micros = true) (clock : Instant) :
    let maxAge := freshDays (days.getD 0) * microsPerDay
    let contract (now : Instant) : Contract := .judge e (some verified) maxAge now
    (∀ now source current, inRange now.micros = true → Tells verified source → Tells now current →
      Contract.evaluate { e with latestAt := source } (days.map .whole) current clock = .ok (contract now)) ∧
    (∀ now, (contract now).stale = true ↔ now.micros - verified.micros > maxAge) ∧
    (∀ now later : Instant, now.micros ≤ later.micros → (contract now).stale = true →
      (contract later).stale = true) ∧
    ∀ (t : Instant) (before after : String), inRange t.micros = true → Text.isBlankText before = true →
      Text.isBlankText after = true →
      (∀ minutes, minutes.natAbs < 1440 → inRange (inZone t minutes).wall = true →
        Tells t (.stamp (inZone t minutes)) ∧ Tells t (.text (before ++ (inZone t minutes).text ++ after))) ∧
      ∀ z, z = 'Z' ∨ z = 'z' → Tells t (.text (before ++ t.toNaive.text.push z ++ after)) := by
  intro maxAge contract
  have hstale : ∀ now, (contract now).stale = true ↔ now.micros - verified.micros > maxAge := fun _ =>
    decide_eq_true_iff
  refine ⟨?_, hstale, ?_, ?_⟩
  · intro now source current hnow hsource hcurrent
    rw [evaluate_of_age (parseTimestamp_of_tells hverified hsource) (maxAgeMicros_days_of_le hdays),
      parseTimestamp_of_tells hnow hcurrent]
    rfl
  · intro now later hlater hnow
    rw [hstale] at hnow ⊢
    omega
  · intro t before after ht hbefore hafter
    refine ⟨fun minutes hminutes hlocal => ⟨.aware _, tells_inZone_text hminutes hlocal hbefore hafter⟩, fun z hz => ?_⟩
    exact tells_toNaive_text ht hz hbefore hafter

/-- Half an hour before the end of a leap day. -/
def leapNight : Instant := ⟨(Date.toDays ⟨2024, 2, 29⟩ * microsPerDay + 84600 * microsPerSecond : Nat)⟩

def thirtyDaysLater : Instant := ⟨leapNight.micros + 30 * microsPerDay⟩

def provenAt (source : TimeSource) : Evidence :=
  { hasAccessToken := true, hasPhoneNumberId := true, latestOk := true, latestAt := source }

/-- The time of the verification is told where it is the next month already. It is fresh for thirty days exactly. -/
theorem contract_of_leapNight :
    (∀ d ∈ some (30 : Int), d ≤ maxDurationDays) ∧ inRange leapNight.micros = true ∧
      Contract.evaluate (provenAt (.text "2024-03-01T05:00:00+05:30")) (some (.whole 30))
        (.text " 2024-03-30T23:30:00z\n") leapNight = .ok ⟨true, true, true, false, true⟩ ∧
      Contract.evaluate (provenAt (.text "2024-03-01T05:00:00+05:30")) (some (.whole 30))
        (.stamp ⟨thirtyDaysLater.micros + 1, none⟩) leapNight = .ok ⟨true, true, false, true, false⟩ := by
  have hdays : ∀ d ∈ some (30 : Int), d ≤ maxDurationDays := by
    rintro d ⟨⟩
    decide
  have hleap : inRange leapNight.micros = true := by decide
  have hlater : inRange thirtyDaysLater.micros = true := by decide
  have hnext : inRange (thirtyDaysLater.micros + 1) = true := by decide
  obtain ⟨hevaluate, -, -, htold⟩ := contract_of_instants (provenAt .absent) (some 30) hdays hleap leapNight
  have hsource : Tells leapNight (.text "2024-03-01T05:00:00+05:30") := by
    have h := ((htold leapNight "" "" hleap rfl rfl).1 330 (by decide) (by decide)).2
    rwa [show "" ++ (inZone leapNight 330).text ++ "" = "2024-03-01T05:00:00+05:30" from rfl] at h
  have hcurrent : Tells thirtyDaysLater (.text " 2024-03-30T23:30:00z\n") := by
    have h := (htold thirtyDaysLater " " "\n" hlater rfl rfl).2 'z' (.inr rfl)
    rwa [show " " ++ thirtyDaysLater.toNaive.text.push 'z' ++ "\n" = " 2024-03-30T23:30:00z\n" from rfl] at h
  exact ⟨hdays, hleap, (hevaluate _ _ _ hlater hsource hcurrent).trans (congrArg Except.ok (by decide)),
    (hevaluate ⟨thirtyDaysLater.micros + 1⟩ _ _ hnext hsource .naive).trans (congrArg Except.ok (by decide))⟩

end Integration

end Cadence
