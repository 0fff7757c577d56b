import Cadence.Calendar.Iso
import Cadence.Proofs.CalendarDays
import Cadence.Proofs.WrittenNumbers
import Mathlib.Algebra.Group.Nat.Defs

/-!
# Texts of stamps

Which texts tell a wall-clock reading: a date, any character, a time of day that may be written less precisely where
nothing is lost, and a distance from universal time in whole minutes. Every such text is read as what it tells, the
text of a stamp is one of them, and nothing that is read lies outside of the calendar.
-/

namespace Cadence.Calendar

/-! ### Digits -/

/-- The last `width` digits of a number. -/
def digitRow : Nat → Nat → List Char
  | 0, _ => []
  | width + 1, n => digitRow width (n / 10) ++ [Nat.digitChar (n % 10)]

theorem digitRow_zero (width : Nat) : digitRow width 0 = List.replicate width '0' := by
  induction width with
  | zero => rfl
  | succ width ih =>
    rw [digitRow, Nat.zero_div, ih, List.replicate_succ']
    rfl

theorem length_digitRow (width n : Nat) : (digitRow width n).length = width := by
  induction width generalizing n with
  | zero => rfl
  | succ width ih => rw [digitRow, List.length_append, ih, List.length_singleton]

theorem padded_toList {width n : Nat} (hwidth : 0 < width) (h : n < 10 ^ width) :
    (padded width n).toList = digitRow width n := by
  unfold padded
  rw [String.toList_ofList]
  induction width generalizing n with
  | zero => exact absurd hwidth (Nat.lt_irrefl 0)
  | succ width ih =>
    rw [digitRow]
    -- A number of one digit has zeros before it; any other ends with the last digit of the row.
    by_cases hsmall : n < 10
    · rw [Nat.toDigits_of_lt_base hsmall, Nat.div_eq_of_lt hsmall, Nat.mod_eq_of_lt hsmall, digitRow_zero]
      rfl
    · have hlarge : 10 ≤ n := Nat.not_lt.mp hsmall
      have hwidth' : 0 < width := by
        refine Nat.pos_of_ne_zero ?_
        rintro rfl
        exact hsmall (by simpa using h)
      have hquotient : n / 10 < 10 ^ width := by
        rw [Nat.pow_succ] at h
        omega
      rw [Nat.toDigits_of_base_le (by decide) hlarge, ← ih hwidth' hquotient, List.length_append,
        List.length_singleton, Nat.add_sub_add_right, List.append_assoc]

theorem asciiDigit?_digitChar {d : Nat} (h : d < 10) : Text.asciiDigit? (Nat.digitChar d) = some d := by
  revert d
  decide

theorem isAsciiDigit_digitChar {d : Nat} (h : d < 10) : Text.isAsciiDigit (Nat.digitChar d) = true := by
  revert d
  decide

theorem isAsciiDigit_of_mem_digitRow {width n : Nat} {c : Char} (h : c ∈ digitRow width n) :
    Text.isAsciiDigit c = true := by
  induction width generalizing n with
  | zero => cases h
  | succ width ih =>
    rcases List.mem_append.mp h with h | h
    · exact ih h
    · rw [List.mem_singleton.mp h]
      exact isAsciiDigit_digitChar (Nat.mod_lt n (by decide))

theorem toNat_digitChar {d : Nat} (h : d < 10) : (Nat.digitChar d).toNat - '0'.toNat = d := by
  revert d
  decide

theorem decimalValue_digitRow {width n : Nat} (h : n < 10 ^ width) : Text.decimalValue (digitRow width n) = n := by
  induction width generalizing n with
  | zero =>
    obtain rfl : n = 0 := by simpa using h
    rfl
  | succ width ih =>
    have hquotient : n / 10 < 10 ^ width := by
      rw [Nat.pow_succ] at h
      omega
    rw [digitRow, Text.decimalValue_concat, toNat_digitChar (Nat.mod_lt n (by decide)), ih hquotient]
    exact Nat.div_add_mod n 10

theorem two?_digitRow {n : Nat} (h : n < 100) (rest : List Char) :
    Iso.two? (digitRow 2 n ++ rest) = some (n, rest) := by
  show Iso.two? (Nat.digitChar (n / 10 % 10) :: Nat.digitChar (n % 10) :: rest) = _
  rw [Iso.two?, asciiDigit?_digitChar (Nat.mod_lt _ (by decide)), asciiDigit?_digitChar (Nat.mod_lt _ (by decide))]
  show some (10 * (n / 10 % 10) + n % 10, rest) = _
  rw [show 10 * (n / 10 % 10) + n % 10 = n by omega]

theorem four?_digitRow {n : Nat} (h : n < 10000) (rest : List Char) :
    Iso.four? (digitRow 4 n ++ rest) = some (n, rest) := by
  have hparts : digitRow 4 n = digitRow 2 (n / 100) ++ digitRow 2 (n % 100) := by
    simp only [digitRow, List.nil_append, List.cons_append, Nat.div_div_eq_div_mul, Nat.reduceMul]
    rw [show n % 100 / 10 % 10 = n / 10 % 10 by omega, show n % 100 % 10 = n % 10 by omega]
  rw [hparts, List.append_assoc, Iso.four?, two?_digitRow (by omega)]
  show (Iso.two? (digitRow 2 (n % 100) ++ rest)).bind _ = _
  rw [two?_digitRow (Nat.mod_lt _ (by decide)), Option.bind_some]
  show some (100 * (n / 100) + n % 100, rest) = _
  rw [Nat.div_add_mod]

/-! ### Times of day -/

/-- A character that parts of a text may be separated by. -/
def mark (marked : Bool) (c : Char) : List Char := if marked then [c] else []

/-- How a time of day is written. From the end, what is zero may be left out. -/
inductive ClockText (colons : Bool) : Nat → List Char → Prop
  | hours {h : Nat} : h < 24 → ClockText colons (3600 * h * microsPerSecond) (digitRow 2 h)
  | minutes {h m : Nat} : h < 24 → m < 60 →
      ClockText colons ((3600 * h + 60 * m) * microsPerSecond) (digitRow 2 h ++ (mark colons ':' ++ digitRow 2 m))
  | seconds {h m s : Nat} : h < 24 → m < 60 → s < 60 →
      ClockText colons ((3600 * h + 60 * m + s) * microsPerSecond)
        (digitRow 2 h ++ (mark colons ':' ++ (digitRow 2 m ++ (mark colons ':' ++ digitRow 2 s))))
  | fraction {h m s f width : Nat} {point : Char} : h < 24 → m < 60 → s < 60 → f < 10 ^ width → 0 < width →
      width ≤ 6 → point = '.' ∨ point = ',' →
      ClockText colons ((3600 * h + 60 * m + s) * microsPerSecond + f * 10 ^ (6 - width))
        (digitRow 2 h ++ (mark colons ':' ++ (digitRow 2 m ++ (mark colons ':' ++ (digitRow 2 s ++
          point :: digitRow width f)))))

theorem digit_ne {n : Nat} {c : Char} (h : Text.isAsciiDigit c = false) : Nat.digitChar (n % 10) ≠ c := by
  rintro rfl
  rw [isAsciiDigit_digitChar (Nat.mod_lt n (by decide))] at h
  cases h

/-- After the mark, the next part is read. -/
theorem afterPair_mark (colons : Bool) (c : Iso.Clock) (next : List Char → Option Iso.Clock) (n : Nat)
    (rest : List Char) :
    Iso.afterPair colons c next (mark colons ':' ++ (digitRow 2 n ++ rest)) = next (digitRow 2 n ++ rest) := by
  show Iso.afterPair colons c next
    (mark colons ':' ++ Nat.digitChar (n / 10 % 10) :: Nat.digitChar (n % 10) :: rest) = _
  cases colons with
  | true => rfl
  | false =>
    show Iso.afterPair false c next (Nat.digitChar (n / 10 % 10) :: Nat.digitChar (n % 10) :: rest) = _
    -- Where there is no mark, the digit must not be taken for the point of a fraction.
    have hpoint : ¬(Nat.digitChar (n / 10 % 10) = '.' ∨ Nat.digitChar (n / 10 % 10) = ',') :=
      not_or.mpr ⟨digit_ne rfl, digit_ne rfl⟩
    simp only [Iso.afterPair, Bool.false_and, Bool.false_eq_true, if_false, hpoint]
    rfl

/-- After the point, the digits of the fraction are read. -/
theorem afterPair_fraction (colons : Bool) (c : Iso.Clock) (next : List Char → Option Iso.Clock) {point : Char}
    (hpoint : point = '.' ∨ point = ',') {width f : Nat} (hwidth : 0 < width) (hlast : width ≤ 6)
    (hf : f < 10 ^ width) :
    Iso.afterPair colons c next (point :: digitRow width f) =
      some { c with micros := f * 10 ^ (6 - width), leftOver := false } := by
  have hlength := length_digitRow width f
  obtain ⟨d, ds, hrow⟩ := List.exists_cons_of_length_pos (hlength ▸ hwidth)
  have hcolon : ¬(point = ':') := by
    rcases hpoint with rfl | rfl <;> decide
  have hdigits : (digitRow width f).all Text.isAsciiDigit = true :=
    List.all_eq_true.mpr fun _ h => isAsciiDigit_of_mem_digitRow h
  have htake : (digitRow width f).take 6 = digitRow width f := List.take_of_length_le (hlength.trans_le hlast)
  have hdrop : (digitRow width f).drop 6 = [] := List.drop_eq_nil_of_le (hlength.trans_le hlast)
  have hread : Iso.afterPair colons c next (point :: digitRow width f) = Iso.fraction? c (digitRow width f) := by
    rw [hrow]
    simp only [Iso.afterPair, hcolon, decide_false, Bool.and_false, Bool.false_eq_true, if_false, hpoint, if_true]
  have hne : (digitRow width f).isEmpty = false := by
    rw [hrow]
    rfl
  rw [hread, Iso.fraction?, htake, hdrop, hdigits, hne, decimalValue_digitRow hf, hlength]
  rfl

/-- Whether there is a mark can be seen before any digit. -/
theorem head?_mark {c : Char} (hc : Text.isAsciiDigit c = false) (marked : Bool) (n : Nat) (rest : List Char) :
    decide ((mark marked c ++ (digitRow 2 n ++ rest)).head? = some c) = marked := by
  cases marked with
  | true => exact decide_eq_true rfl
  | false =>
    have hdigit : Nat.digitChar (n / 10 % 10) ≠ c := digit_ne hc
    exact decide_eq_false fun h => hdigit (Option.some.inj h)

/-- Hours, minutes and whatever is read after them. -/
theorem clock?_minutes {h m : Nat} (hh : h < 100) (hm : m < 100) (colons : Bool) (rest : List Char) :
    Iso.clock? (digitRow 2 h ++ (mark colons ':' ++ (digitRow 2 m ++ rest))) =
      Iso.afterPair colons { hours := h, minutes := m } (fun rest => do
        let (seconds, rest) ← Iso.two? rest
        let c : Iso.Clock := { hours := h, minutes := m, seconds }
        Iso.afterPair colons c (Iso.fraction? c) rest) rest := by
  rw [Iso.clock?, two?_digitRow hh]
  show Iso.afterPair _ _ _ _ = _
  dsimp only
  rw [head?_mark rfl, afterPair_mark, two?_digitRow hm]
  rfl

theorem clock?_seconds {h m s : Nat} (hh : h < 100) (hm : m < 100) (hs : s < 100) (colons : Bool) (rest : List Char) :
    Iso.clock? (digitRow 2 h ++ (mark colons ':' ++ (digitRow 2 m ++ (mark colons ':' ++ (digitRow 2 s ++ rest))))) =
      Iso.afterPair colons { hours := h, minutes := m, seconds := s }
        (Iso.fraction? { hours := h, minutes := m, seconds := s }) rest := by
  rw [clock?_minutes hh hm, afterPair_mark, two?_digitRow hs]
  rfl

/-- The digits of a fraction count less than a second, however many of the six there are. -/
theorem fraction_lt {f width : Nat} (hf : f < 10 ^ width) (hlast : width ≤ 6) :
    f * 10 ^ (6 - width) < microsPerSecond :=
  calc f * 10 ^ (6 - width) < 10 ^ width * 10 ^ (6 - width) :=
        Nat.mul_lt_mul_of_pos_right hf (Nat.pow_pos (by decide))
    _ = 10 ^ 6 := by rw [← Nat.pow_add, Nat.add_sub_cancel' hlast]

/-- What a written time of day is read as. -/
theorem ClockText.read {colons : Bool} {micros : Nat} {text : List Char} (h : ClockText colons micros text) :
    ∃ c, Iso.clock? text = some c ∧ c.isValid = true ∧ c.leftOver = false ∧ c.micros < microsPerSecond ∧
      c.toMicros = micros := by
  have hnone : 0 < microsPerSecond := by decide
  cases h with
  | @hours h hh =>
    refine ⟨{ hours := h }, ?_, by simp [Iso.Clock.isValid, hh], rfl, hnone, by simp [Iso.Clock.toMicros]⟩
    rw [← List.append_nil (digitRow 2 h), Iso.clock?, two?_digitRow (by omega)]
    rfl
  | @minutes h m hh hm =>
    refine ⟨{ hours := h, minutes := m }, ?_, by simp [Iso.Clock.isValid, hh, hm], rfl, hnone,
      by simp [Iso.Clock.toMicros]⟩
    rw [← List.append_nil (digitRow 2 m), clock?_minutes (by omega) (by omega)]
    rfl
  | @seconds h m s hh hm hs =>
    refine ⟨{ hours := h, minutes := m, seconds := s }, ?_, by simp [Iso.Clock.isValid, hh, hm, hs], rfl, hnone,
      by simp [Iso.Clock.toMicros]⟩
    rw [← List.append_nil (digitRow 2 s), clock?_seconds (by omega) (by omega) (by omega)]
    rfl
  | @fraction h m s f width point hh hm hs hf hwidth hlast hpoint =>
    have hmicros := fraction_lt hf hlast
    refine ⟨{ hours := h, minutes := m, seconds := s, micros := f * 10 ^ (6 - width) }, ?_,
      by simp [Iso.Clock.isValid, hh, hm, hs], rfl, hmicros, by simp [Iso.Clock.toMicros]⟩
    rw [clock?_seconds (by omega) (by omega) (by omega), afterPair_fraction _ _ _ hpoint hwidth hlast hf]

theorem toMicros_lt {c : Iso.Clock} (hvalid : c.isValid = true) (hmicros : c.micros < microsPerSecond) :
    c.toMicros < microsPerDay := by
  simp only [Iso.Clock.isValid, Bool.and_eq_true, decide_eq_true_eq] at hvalid
  simp only [Iso.Clock.toMicros, microsPerSecond, microsPerDay] at hmicros ⊢
  omega

theorem beginsZone_of_isAsciiDigit {c : Char} (h : Text.isAsciiDigit c = true) : Iso.beginsZone c = false := by
  simp only [Iso.beginsZone, Bool.or_eq_false_iff, decide_eq_false_iff_not]
  refine ⟨⟨?_, ?_⟩, ?_⟩ <;> rintro rfl <;> cases h

theorem ClockText.beginsZone {colons : Bool} {micros : Nat} {text : List Char} (h : ClockText colons micros text) :
    ∀ c ∈ text, Iso.beginsZone c = false := by
  have hdigits (width n : Nat) : ∀ c ∈ digitRow width n, Iso.beginsZone c = false := fun _ hc =>
    beginsZone_of_isAsciiDigit (isAsciiDigit_of_mem_digitRow hc)
  have hmarks : ∀ c ∈ mark colons ':', Iso.beginsZone c = false := by
    cases colons with
    | true => exact List.forall_mem_singleton.mpr rfl
    | false => exact List.forall_mem_nil _
  cases h with
  | hours => exact hdigits _ _
  | minutes =>
    simp only [List.forall_mem_append]
    exact ⟨hdigits _ _, hmarks, hdigits _ _⟩
  | seconds =>
    simp only [List.forall_mem_append]
    exact ⟨hdigits _ _, hmarks, hdigits _ _, hmarks, hdigits _ _⟩
  | fraction _ _ _ _ _ _ hpoint =>
    simp only [List.forall_mem_append, List.forall_mem_cons]
    refine ⟨hdigits _ _, hmarks, hdigits _ _, hmarks, hdigits _ _, ?_, hdigits _ _⟩
    rcases hpoint with rfl | rfl <;> rfl

/-- How a distance of whole seconds from universal time is written. -/
inductive ZoneText : Int → List Char → Prop
  | ahead {colons : Bool} {seconds : Nat} {text : List Char} :
      ClockText colons (seconds * microsPerSecond) text → ZoneText (seconds * microsPerSecond : Nat) ('+' :: text)
  | behind {colons : Bool} {seconds : Nat} {text : List Char} :
      ClockText colons (seconds * microsPerSecond) text → ZoneText (-(seconds * microsPerSecond : Nat)) ('-' :: text)

theorem zone?_sign {sign : Char} (hsign : sign ≠ 'Z') {colons : Bool} {seconds : Nat} {text : List Char}
    (h : ClockText colons (seconds * microsPerSecond) text) (leftOver : Bool) :
    Iso.zone? leftOver (sign :: text) = some (some
      (if sign = '-' then -((seconds * microsPerSecond : Nat) : Int) else (seconds * microsPerSecond : Nat))) := by
  obtain ⟨z, hread, hvalid, hover, hmicros, hsum⟩ := h.read
  have hday := toMicros_lt hvalid hmicros
  -- A clock that shows whole seconds has no fraction, so nothing of the distance is dropped.
  have hnone : z.micros = 0 := by
    rw [Iso.Clock.toMicros] at hsum
    simp only [microsPerSecond] at hmicros hsum
    omega
  have hwhole : (if z.toMicros - z.micros = 0 then 0 else z.toMicros) = seconds * microsPerSecond := by
    rw [hnone, Nat.sub_zero, hsum]
    exact ite_eq_right_iff.mpr Eq.symm
  rw [hsum] at hday
  have hfits : (!z.leftOver && decide (seconds * microsPerSecond < microsPerDay)) = true := by
    rw [hover, decide_eq_true hday]
    rfl
  rw [Iso.zone?, hread]
  · show (if (!z.leftOver && _) = true then _ else _) = _
    rw [hwhole, if_pos hfits]
  · exact hsign

theorem ZoneText.read {offset : Int} {text : List Char} (h : ZoneText offset text) (leftOver : Bool) :
    Iso.zone? leftOver text = some (some offset) := by
  cases h with
  | ahead h => rw [zone?_sign (by decide) h, if_neg (by decide)]
  | behind h => rw [zone?_sign (by decide) h, if_pos rfl]

theorem ZoneText.head? {offset : Int} {text : List Char} (h : ZoneText offset text) :
    ∀ c ∈ text.head?, Iso.beginsZone c = true := by
  cases h <;> rintro _ ⟨⟩ <;> rfl

theorem time?_append {clock zone : List Char} (hclock : ∀ c ∈ clock, Iso.beginsZone c = false)
    (hzone : ∀ c ∈ zone.head?, Iso.beginsZone c = true) :
    Iso.time? (clock ++ zone) = (do
      let c ← Iso.clock? clock
      let offset ← Iso.zone? c.leftOver zone
      if c.isValid then some (c.toMicros, offset) else none) := by
  have hbefore : ∀ c ∈ clock, (!Iso.beginsZone c) = true := fun c hc => by rw [hclock c hc]; rfl
  have hafter : zone.takeWhile (!Iso.beginsZone ·) = [] ∧ zone.dropWhile (!Iso.beginsZone ·) = zone := by
    cases zone with
    | nil => exact ⟨rfl, rfl⟩
    | cons c rest =>
      simp only [List.takeWhile_cons, List.dropWhile_cons, hzone c rfl, Bool.not_true, Bool.false_eq_true, if_false,
        and_self]
  rw [Iso.time?, List.takeWhile_append_of_pos hbefore, List.dropWhile_append_of_pos hbefore, hafter.1, hafter.2,
    List.append_nil]

/-- A time of day, with its distance from universal time or without, is read as what it tells. -/
theorem ClockText.time? {colons : Bool} {micros : Nat} {clock zone : List Char} (h : ClockText colons micros clock)
    {offset : Option Int} (hzone : Iso.zone? false zone = some offset)
    (hhead : ∀ c ∈ zone.head?, Iso.beginsZone c = true) : Iso.time? (clock ++ zone) = some (micros, offset) := by
  obtain ⟨c, hread, hvalid, hover, -, hsum⟩ := h.read
  rw [time?_append h.beginsZone hhead, hread]
  show (Iso.zone? c.leftOver zone).bind _ = _
  rw [hover, hzone, Option.bind_some, if_pos hvalid, hsum]

/-! ### Dates -/

/-- Year, month and day as they are written, with dashes or without. -/
def dateRow (dashes : Bool) (d : Date) : List Char :=
  digitRow 4 d.year ++ (mark dashes '-' ++ (digitRow 2 d.month ++ (mark dashes '-' ++ digitRow 2 d.day)))

theorem monthDays_le (year month : Nat) : monthDays year month ≤ 31 := by
  unfold monthDays
  split
  · split <;> decide
  all_goals decide

theorem afterDash_mark (dashes : Bool) (rest : List Char) :
    Iso.afterDash dashes (mark dashes '-' ++ rest) = some rest := by
  cases dashes <;> rfl

theorem monthDate?_row (dashes : Bool) {d : Date} (h : d.isValid = true) :
    Iso.monthDate? dashes d.year (digitRow 2 d.month ++ (mark dashes '-' ++ digitRow 2 d.day)) = some d.toDays := by
  obtain ⟨-, ⟨-, hmonth⟩, -, hday⟩ := Date.isValid_iff.mp h
  have hday' : d.day < 100 := Nat.lt_of_le_of_lt (hday.trans (monthDays_le _ _)) (by decide)
  rw [Iso.monthDate?, two?_digitRow (by omega), ← List.append_nil (digitRow 2 d.day)]
  show (Iso.afterDash dashes _).bind _ = _
  rw [afterDash_mark, Option.bind_some]
  show (Iso.two? _).bind _ = _
  rw [two?_digitRow hday', Option.bind_some]
  exact if_pos h

theorem date?_dateRow (dashes : Bool) {d : Date} (h : d.isValid = true) :
    Iso.date? (dateRow dashes d) = some d.toDays := by
  obtain ⟨⟨-, hyear⟩, -⟩ := Date.isValid_iff.mp h
  have hweek : Nat.digitChar (d.month / 10 % 10) ≠ 'W' := digit_ne rfl
  rw [← monthDate?_row dashes h]
  generalize hday : mark dashes '-' ++ digitRow 2 d.day = day
  have hdashes := head?_mark (c := '-') rfl dashes d.month day
  have hrest : (if (mark dashes '-' ++ (digitRow 2 d.month ++ day)).head? = some '-' then
      (mark dashes '-' ++ (digitRow 2 d.month ++ day)).drop 1 else mark dashes '-' ++ (digitRow 2 d.month ++ day)) =
      digitRow 2 d.month ++ day := by
    cases dashes with
    | true => rfl
    | false => exact if_neg (of_decide_eq_false hdashes)
  rw [dateRow, hday, Iso.date?, four?_digitRow (by omega)]
  show Option.bind (some _) _ = _
  rw [Option.bind_some]
  dsimp only
  rw [hdashes, hrest]
  split
  · rename_i hhead
    exact absurd (List.cons.inj hhead).1 hweek
  · rfl

theorem length_dateRow (dashes : Bool) (d : Date) : (dateRow dashes d).length = if dashes then 10 else 8 := by
  cases dashes <;> rfl

/-- The separator is looked for where the date ends. -/
theorem dateLength_dateRow (dashes : Bool) (d : Date) (rest : List Char) :
    Iso.dateLength (dateRow dashes d ++ rest) = (dateRow dashes d).length := by
  have hlong : (dateRow dashes d ++ rest).length ≠ 7 := by
    have := length_dateRow dashes d
    rw [List.length_append, this]
    split <;> omega
  have hdash : Nat.digitChar (d.month / 10 % 10) ≠ '-' := digit_ne rfl
  have hweek : Nat.digitChar (d.month / 10 % 10) ≠ 'W' := digit_ne rfl
  -- What stands after the year tells the forms of a date apart.
  rw [Iso.dateLength, if_neg hlong, length_dateRow]
  cases dashes with
  | true =>
    have hfive : (dateRow true d ++ rest)[5]? = some (Nat.digitChar (d.month / 10 % 10)) := rfl
    have hfour : (dateRow true d ++ rest)[4]? = some '-' := rfl
    rw [if_pos hfour, hfive, if_neg fun h => hweek (Option.some.inj h)]
    rfl
  | false =>
    have hfour : (dateRow false d ++ rest)[4]? = some (Nat.digitChar (d.month / 10 % 10)) := rfl
    rw [hfour, if_neg fun h => hdash (Option.some.inj h), if_neg fun h => hweek (Option.some.inj h)]
    rfl

/-! ### Stamps -/

/-- How a wall-clock reading is written: a date, one character of any kind, and a time of day. -/
inductive WallText : Int → List Char → Prop
  | mk (dashes : Bool) {d : Date} (separator : Char) {colons : Bool} {micros : Nat} {clock : List Char} :
      d.isValid = true → ClockText colons micros clock →
      WallText (d.toDays * microsPerDay + micros : Nat) (dateRow dashes d ++ separator :: clock)

theorem WallText.read {wall : Int} {text zone : List Char} (h : WallText wall text) {offset : Option Int}
    (hzone : Iso.zone? false zone = some offset) (hhead : ∀ c ∈ zone.head?, Iso.beginsZone c = true) :
    Iso.stamp? (text ++ zone) = some ⟨wall, offset⟩ := by
  obtain ⟨dashes, separator, hdate, hclock⟩ := h
  rw [List.append_assoc, List.cons_append, Iso.stamp?]
  dsimp only
  rw [dateLength_dateRow, List.take_left, List.drop_left, date?_dateRow _ hdate]
  show (Iso.time? _).bind _ = _
  rw [hclock.time? hzone hhead]
  rfl

example : Iso.stamp? "20240229 235959,5-05".toList =
    some ⟨(Date.toDays ⟨2024, 2, 29⟩ * microsPerDay + 86399500000 : Nat), some (-18000000000)⟩ := by
  decide +kernel

/-! ### What is printed -/

theorem padded_two {n : Nat} (h : n < 100) : (padded 2 n).toList = digitRow 2 n := padded_toList (by decide) h

theorem clockText_clockText {micros : Nat} (h : micros < microsPerDay) :
    ClockText true micros (clockText micros).toList := by
  have hday : micros / microsPerSecond < 86400 := Nat.div_lt_of_lt_mul h
  have hparts := Nat.div_add_mod micros microsPerSecond
  have hfraction : micros % microsPerSecond < 10 ^ 6 := Nat.mod_lt _ (by decide)
  unfold clockText
  dsimp only
  generalize micros / microsPerSecond = seconds at *
  generalize micros % microsPerSecond = fraction at *
  have hseconds : 3600 * (seconds / 3600) + 60 * (seconds / 60 % 60) + seconds % 60 = seconds := by omega
  simp only [String.toList_append, padded_two (by omega : seconds / 3600 < 100),
    padded_two (by omega : seconds / 60 % 60 < 100), padded_two (by omega : seconds % 60 < 100), List.append_assoc]
  split
  · rename_i hzero
    have h : ClockText true _ _ := .seconds (by omega : seconds / 3600 < 24) (by omega : seconds / 60 % 60 < 60)
      (by omega : seconds % 60 < 60)
    rw [hzero, Nat.add_zero] at hparts
    rw [hseconds, Nat.mul_comm, hparts] at h
    show ClockText true micros (_ ++ (_ ++ (_ ++ (_ ++ (_ ++ [])))))
    rw [List.append_nil]
    exact h
  · have h : ClockText true _ _ := .fraction (by omega : seconds / 3600 < 24) (by omega : seconds / 60 % 60 < 60)
      (by omega : seconds % 60 < 60) hfraction (by decide) (Nat.le_refl 6) (.inl rfl)
    rw [hseconds, Nat.mul_comm, Nat.sub_self, Nat.pow_zero, Nat.mul_one, hparts] at h
    rw [String.toList_append, padded_toList (by decide) hfraction]
    exact h

theorem dateText_toList {d : Date} (h : d.isValid = true) : (dateText d).toList = dateRow true d := by
  obtain ⟨⟨-, hyear⟩, ⟨-, hmonth⟩, -, hday⟩ := Date.isValid_iff.mp h
  have hlast := hday.trans (monthDays_le _ _)
  simp only [dateText, String.toList_append, padded_toList (by decide) (by omega : d.year < 10 ^ 4),
    padded_two (by omega : d.month < 100), padded_two (by omega : d.day < 100), List.append_assoc]
  rfl

/-- A distance of whole minutes is printed without seconds. -/
theorem offsetText_zoneText {minutes : Int} (h : minutes.natAbs < 1440) :
    ZoneText (minutes * 60 * microsPerSecond) (offsetText (minutes * 60 * microsPerSecond)).toList := by
  generalize hcount : minutes.natAbs = count at h
  have habs : (minutes * 60 * microsPerSecond).natAbs = count * 60 * microsPerSecond := by
    rw [Int.natAbs_mul, Int.natAbs_mul, hcount]
    rfl
  have hseconds : count * 60 * microsPerSecond / microsPerSecond = count * 60 := Nat.mul_div_cancel _ (by decide)
  have hfraction : count * 60 * microsPerSecond % microsPerSecond = 0 := Nat.mul_mod_left ..
  have hnone : count * 60 % 60 = 0 := Nat.mul_mod_left ..
  have hclock : ClockText true _ _ := .minutes (by omega : count * 60 / 3600 < 24)
    (by omega : count * 60 / 60 % 60 < 60)
  rw [show 3600 * (count * 60 / 3600) + 60 * (count * 60 / 60 % 60) = count * 60 by omega] at hclock
  unfold offsetText
  dsimp only
  simp only [habs, hseconds, hfraction, hnone, and_self, if_true, String.toList_append,
    padded_two (by omega : count * 60 / 3600 < 100), padded_two (by omega : count * 60 / 60 % 60 < 100),
    List.append_assoc]
  rw [show "".toList = [] from rfl, List.append_nil, List.append_nil]
  by_cases hbehind : minutes * 60 * microsPerSecond < 0
  · rw [if_pos hbehind, show minutes * 60 * microsPerSecond = -(count * 60 * microsPerSecond : Nat) by omega]
    exact .behind hclock
  · rw [if_neg hbehind, show minutes * 60 * microsPerSecond = (count * 60 * microsPerSecond : Nat) by omega]
    exact .ahead hclock

/-- A stamp is printed as its reading, followed by its distance from universal time if it has one. -/
theorem text_wallText {s : Stamp} (hwall : inRange s.wall = true) :
    ∃ wall, WallText s.wall wall ∧ s.text.toList = wall ++ ((s.offset.map offsetText).getD "").toList := by
  obtain ⟨wall, offset⟩ := s
  simp only [inRange, Bool.and_eq_true, decide_eq_true_eq] at hwall
  obtain ⟨micros, rfl⟩ := Int.eq_ofNat_of_zero_le hwall.1
  have hday : micros / microsPerDay < totalDays :=
    Nat.div_lt_of_lt_mul (by rw [Nat.mul_comm]; exact_mod_cast hwall.2)
  obtain ⟨hvalid, hdays⟩ := Date.ofDays_spec hday
  have hclock := clockText_clockText (Nat.mod_lt micros (by decide : 0 < microsPerDay))
  have htext := WallText.mk true 'T' hvalid hclock
  rw [hdays, Nat.mul_comm, Nat.div_add_mod] at htext
  refine ⟨_, htext, ?_⟩
  rw [Stamp.text]
  dsimp only
  rw [Int.toNat_natCast, String.toList_append, String.toList_append, String.toList_append, dateText_toList hvalid,
    List.append_assoc (dateRow _ _)]
  cases offset <;> rfl

/-! ### The ends of a text -/

theorem ClockText.last {colons : Bool} {micros : Nat} {text : List Char} (h : ClockText colons micros text) :
    ∃ init n, text = init ++ [Nat.digitChar (n % 10)] := by
  have hrow (before : List Char) {width n : Nat} (hwidth : 0 < width) :
      ∃ init m, before ++ digitRow width n = init ++ [Nat.digitChar (m % 10)] := by
    obtain ⟨width, rfl⟩ := Nat.exists_eq_add_of_le' hwidth
    exact ⟨before ++ digitRow width (n / 10), n, (List.append_assoc ..).symm⟩
  cases h with
  | @hours h => exact hrow [] (n := h) (by decide : 0 < 2)
  | minutes =>
    rw [← List.append_assoc]
    exact hrow _ (by decide)
  | seconds =>
    simp only [← List.append_assoc]
    exact hrow _ (by decide)
  | fraction _ _ _ _ hwidth _ _ =>
    rw [← List.singleton_append]
    simp only [← List.append_assoc]
    exact hrow _ hwidth

theorem ZoneText.last {offset : Int} {text : List Char} (h : ZoneText offset text) :
    ∃ init n, text = init ++ [Nat.digitChar (n % 10)] := by
  cases h with
  | ahead h | behind h =>
    obtain ⟨init, n, rfl⟩ := h.last
    exact ⟨_ :: init, n, rfl⟩

theorem WallText.first {wall : Int} {text : List Char} (h : WallText wall text) :
    ∃ n rest, text = Nat.digitChar (n % 10) :: rest := by
  cases h with
  | mk => exact ⟨_, _, rfl⟩

/-! ### Nothing outside of the calendar is read -/

theorem fraction?_micros {c z : Iso.Clock} {s : List Char} (h : Iso.fraction? c s = some z) :
    z.micros < microsPerSecond := by
  unfold Iso.fraction? at h
  dsimp only at h
  split at h
  · cases h
  · rename_i hdigits
    rw [Bool.or_eq_true, not_or, Bool.not_eq_true', Bool.not_eq_false] at hdigits
    have hlast : (s.take 6).length ≤ 6 := List.length_take_le 6 s
    rw [← Option.some.inj h]
    exact fraction_lt (Text.decimalValue_lt (List.all_eq_true.mp hdigits.2)) hlast

theorem afterPair_micros {colons : Bool} {c z : Iso.Clock} {next : List Char → Option Iso.Clock} {s : List Char}
    (hc : c.micros < microsPerSecond) (hnext : ∀ rest z, next rest = some z → z.micros < microsPerSecond)
    (h : Iso.afterPair colons c next s = some z) : z.micros < microsPerSecond := by
  unfold Iso.afterPair at h
  split at h
  · exact Option.some.inj h ▸ hc
  · split at h
    · exact Option.some.inj h ▸ hc
    · cases h
  · split at h
    · exact hnext _ _ h
    · split at h
      · exact fraction?_micros h
      · split at h
        · cases h
        · exact hnext _ _ h

theorem clock?_micros {s : List Char} {z : Iso.Clock} (h : Iso.clock? s = some z) : z.micros < microsPerSecond := by
  have hnone : 0 < microsPerSecond := by decide
  obtain ⟨⟨hours, rest⟩, -, h⟩ := Option.bind_eq_some_iff.mp h
  refine afterPair_micros hnone (fun rest z h => ?_) h
  obtain ⟨⟨minutes, rest⟩, -, h⟩ := Option.bind_eq_some_iff.mp h
  refine afterPair_micros hnone (fun rest z h => ?_) h
  obtain ⟨⟨seconds, rest⟩, -, h⟩ := Option.bind_eq_some_iff.mp h
  exact afterPair_micros hnone (fun _ _ => fraction?_micros) h

theorem time?_lt {s : List Char} {micros : Nat} {offset : Option Int} (h : Iso.time? s = some (micros, offset)) :
    micros < microsPerDay := by
  obtain ⟨c, hclock, h⟩ := Option.bind_eq_some_iff.mp h
  obtain ⟨offset, -, h⟩ := Option.bind_eq_some_iff.mp h
  split at h
  · rename_i hvalid
    obtain ⟨rfl, -⟩ := Prod.mk.inj (Option.some.inj h)
    exact toMicros_lt hvalid (clock?_micros hclock)
  · cases h

theorem dayOfWeekDate?_lt {year week weekday day : Nat} (h : dayOfWeekDate? year week weekday = some day) :
    day < totalDays := by
  unfold dayOfWeekDate? at h
  split at h
  · dsimp only at h
    split at h
    · rename_i hin
      rw [← Option.some.inj h]
      omega
    · cases h
  · cases h

theorem date?_lt {s : List Char} {day : Nat} (h : Iso.date? s = some day) : day < totalDays := by
  obtain ⟨⟨year, rest⟩, -, h⟩ := Option.bind_eq_some_iff.mp h
  dsimp only at h
  split at h
  · obtain ⟨⟨week, rest⟩, -, h⟩ := Option.bind_eq_some_iff.mp h
    dsimp only at h
    split at h
    · exact dayOfWeekDate?_lt h
    · obtain ⟨days, -, h⟩ := Option.bind_eq_some_iff.mp h
      split at h
      · obtain ⟨weekday, -, h⟩ := Option.bind_eq_some_iff.mp h
        exact dayOfWeekDate?_lt h
      · cases h
  · obtain ⟨⟨month, rest⟩, -, h⟩ := Option.bind_eq_some_iff.mp h
    obtain ⟨days, -, h⟩ := Option.bind_eq_some_iff.mp h
    obtain ⟨⟨day, rest⟩, -, h⟩ := Option.bind_eq_some_iff.mp h
    dsimp only at h
    split at h
    · rename_i hdate
      rw [← Option.some.inj h]
      exact Date.toDays_lt (Bool.and_eq_true_iff.mp hdate).2
    · cases h

theorem inRange_of_day {day micros : Nat} (hday : day < totalDays) (hmicros : micros < microsPerDay) :
    inRange (day * microsPerDay + micros : Nat) = true := by
  simp only [inRange, Bool.and_eq_true, decide_eq_true_eq]
  refine ⟨Int.natCast_nonneg _, ?_⟩
  have hlast : (day + 1) * microsPerDay ≤ totalDays * microsPerDay := Nat.mul_le_mul_right _ hday
  rw [Nat.add_mul, Nat.one_mul] at hlast
  exact_mod_cast Nat.lt_of_lt_of_le (Nat.add_lt_add_left hmicros _) hlast

theorem stamp?_inRange {s : List Char} {stamp : Stamp} (h : Iso.stamp? s = some stamp) :
    inRange stamp.wall = true := by
  obtain ⟨day, hdate, h⟩ := Option.bind_eq_some_iff.mp h
  have hday := date?_lt hdate
  split at h
  · rw [← Option.some.inj h]
    have hmidnight := inRange_of_day hday (by decide : 0 < microsPerDay)
    rwa [Nat.add_zero] at hmidnight
  · obtain ⟨⟨micros, offset⟩, htime, h⟩ := Option.bind_eq_some_iff.mp h
    rw [← Option.some.inj h]
    exact inRange_of_day hday (time?_lt htime)

end Cadence.Calendar
