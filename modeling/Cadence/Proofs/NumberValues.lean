import Cadence.Workflow.Delay
import Mathlib.Algebra.Order.Field.Basic
import Mathlib.Algebra.Order.Field.Rat
import Mathlib.Order.WithBot
import Mathlib.Tactic.FieldSimp
import Mathlib.Tactic.NormNum
import Mathlib.Tactic.Positivity
import Mathlib.Tactic.SplitIfs

/-!
# Values of numbers

What a number stands for, whichever kind it is of: a rational number, or one of the two infinities around all of
them. Numbers are ordered by what they stand for. An integer has a floating-point number near it up to half a step
beyond the greatest one.
-/

namespace Cadence

/-- A rational number, or an infinity below or above all of them. -/
abbrev Quantity := WithBot (WithTop ℚ)

namespace Quantity

def exact (q : ℚ) : Quantity := WithBot.some (WithTop.some q)

theorem exact_strictMono : StrictMono exact := fun _ _ h => WithBot.coe_lt_coe.mpr (WithTop.coe_lt_coe.mpr h)

theorem bot_lt_exact (q : ℚ) : ⊥ < exact q := WithBot.bot_lt_coe _

theorem exact_lt_top (q : ℚ) : exact q < ⊤ := WithBot.coe_lt_coe.mpr (WithTop.coe_lt_top q)

end Quantity

namespace Binary64

def quantity? (x : Binary64) : Option Quantity :=
  match x with
  | .nan => none
  | .infinite negative => some (if negative then ⊥ else ⊤)
  | .finite .. => x.ratio?.map fun (num, den) => .exact (num / den)

/-- The value of a finite number, and zero in place of any other. -/
def valueOrZero (x : Binary64) : ℚ :=
  match x.ratio? with
  | some (num, den) => num / den
  | none => 0

theorem valueOrZero_zero (negative : Bool) : (zero negative).valueOrZero = 0 := by
  simp only [valueOrZero, zero, ratio?, zero_mul, Nat.cast_zero, Int.cast_zero, neg_zero, ite_self, zero_div]

/-- A number is finite, with a quotient for its value, or infinite, or not a number. -/
theorem cases_ratio? (x : Binary64) :
    (∃ num den, x.ratio? = some (num, den) ∧ 0 < den ∧ x.quantity? = some (.exact (num / den))) ∨
    (∃ negative, x = .infinite negative) ∨ x = .nan := by
  cases x with
  | nan => exact .inr (.inr rfl)
  | infinite negative => exact .inr (.inl ⟨negative, rfl⟩)
  | finite negative coefficient exponent canonical =>
    exact .inl ⟨_, _, rfl, Nat.pow_pos Nat.zero_lt_two, rfl⟩

theorem quantity?_eq_none {x : Binary64} : x.quantity? = none ↔ x = .nan := by
  cases x with
  | nan => exact iff_of_true rfl rfl
  | infinite negative => exact iff_of_false (Option.some_ne_none _) Binary64.noConfusion
  | finite negative coefficient exponent canonical =>
    exact iff_of_false (Option.some_ne_none _) Binary64.noConfusion

/-- Two quotients are in the order of their cross products. -/
theorem compare_cross (a b : ℤ) {c d : ℕ} (hc : 0 < c) (hd : 0 < d) :
    compare (a * d) (b * c) = cmp (a / c : ℚ) (b / d : ℚ) := by
  have hc' : (0 : ℚ) < c := Nat.cast_pos.mpr hc
  have hd' : (0 : ℚ) < d := Nat.cast_pos.mpr hd
  have hleft : (a / c : ℚ) * (c * d) = ((a * d : ℤ) : ℚ) := by
    push_cast
    field_simp
  have hright : (b / d : ℚ) * (c * d) = ((b * c : ℤ) : ℚ) := by
    push_cast
    field_simp
  rw [← cmp_eq_compare, ← cmp_mul_pos_right (mul_pos hc' hd'), hleft, hright,
    Int.cast_strictMono.cmp_map_eq]

theorem compareRatio?_eq {x : Binary64} {p : Quantity} (h : x.quantity? = some p) (num : ℤ) {den : ℕ}
    (hden : 0 < den) : x.compareRatio? num den = some (cmp p (.exact (num / den))) := by
  cases x with
  | nan => cases h
  | infinite negative =>
    cases h
    cases negative
    · exact congrArg some ((cmp_eq_gt_iff _ _).mpr (Quantity.exact_lt_top _)).symm
    · exact congrArg some ((cmp_eq_lt_iff _ _).mpr (Quantity.bot_lt_exact _)).symm
  | finite negative coefficient exponent canonical =>
    cases h
    have hpos : 0 < Nat.pow 2 (-exponent).toNat := Nat.pow_pos Nat.zero_lt_two
    rw [Quantity.exact_strictMono.cmp_map_eq, ← compare_cross _ _ hpos hden]
    rfl

theorem compare?_eq {x y : Binary64} {p q : Quantity} (hx : x.quantity? = some p) (hy : y.quantity? = some q) :
    x.compare? y = some (cmp p q) := by
  cases y with
  | nan => cases hy
  | infinite negative =>
    cases hy
    cases x with
    | nan => cases hx
    | infinite other =>
      cases hx
      cases negative <;> cases other <;> rfl
    | finite _ coefficient exponent canonical =>
      cases hx
      cases negative
      · exact congrArg some ((cmp_eq_lt_iff _ _).mpr (Quantity.exact_lt_top _)).symm
      · exact congrArg some ((cmp_eq_gt_iff _ _).mpr (Quantity.bot_lt_exact _)).symm
  | finite negative coefficient exponent canonical =>
    cases hy
    exact compareRatio?_eq hx _ (Nat.pow_pos Nat.zero_lt_two)

end Binary64

namespace Numeral

def quantity? : Numeral → Option Quantity
  | whole i => some (.exact i)
  | binary x => x.quantity?

variable {m n : Numeral} {p q : Quantity}

/-- Two numbers, neither of them "not a number", are in the order of what they stand for. -/
theorem compare?_eq (hm : m.quantity? = some p) (hn : n.quantity? = some q) :
    m.compare? n = some (cmp p q) := by
  have hint (i : ℤ) : Quantity.exact i = .exact (i / (1 : ℕ)) := by
    rw [Nat.cast_one, div_one]
  cases m with
  | whole i =>
    cases hm
    cases n with
    | whole j =>
      cases hn
      rw [compare?, Quantity.exact_strictMono.cmp_map_eq, Int.cast_strictMono.cmp_map_eq, cmp_eq_compare]
    | binary y =>
      rw [compare?, Binary64.compareInt?, Binary64.compareRatio?_eq hn i Nat.zero_lt_one, ← hint,
        Option.map_some, cmp_swap]
  | binary x =>
    cases n with
    | whole j =>
      cases hn
      rw [compare?, Binary64.compareInt?, Binary64.compareRatio?_eq hm j Nat.zero_lt_one, ← hint]
    | binary y => exact Binary64.compare?_eq hm hn

theorem isLess_iff (hm : m.quantity? = some p) (hn : n.quantity? = some q) : m.isLess n = true ↔ p < q := by
  rw [isLess, compare?_eq hm hn, decide_eq_true_iff, Option.some_inj, cmp_eq_lt_iff]

theorem sameValue_iff (hm : m.quantity? = some p) (hn : n.quantity? = some q) :
    m.sameValue n = true ↔ p = q := by
  rw [sameValue, compare?_eq hm hn, decide_eq_true_iff, Option.some_inj, cmp_eq_eq_iff]

theorem quantity?_least (hm : m.quantity? = some p) (hn : n.quantity? = some q) :
    (m.least n).quantity? = some (min p q) := by
  unfold least
  by_cases hless : q < p
  · rw [if_pos ((isLess_iff hn hm).mpr hless), hn, min_eq_right hless.le]
  · rw [if_neg fun h => hless ((isLess_iff hn hm).mp h), hm, min_eq_left (not_lt.mp hless)]

theorem quantity?_greatest (hm : m.quantity? = some p) (hn : n.quantity? = some q) :
    (m.greatest n).quantity? = some (max p q) := by
  unfold greatest
  by_cases hless : p < q
  · rw [if_pos ((isLess_iff hm hn).mpr hless), hn, max_eq_right hless.le]
  · rw [if_neg fun h => hless ((isLess_iff hm hn).mp h), hm, max_eq_left (not_lt.mp hless)]

end Numeral

/-! ### Integers beyond the floating-point numbers -/

theorem div_le_roundHalfEven (num den : ℕ) : num / den ≤ roundHalfEven num den := by
  dsimp only [roundHalfEven]
  split_ifs <;> omega

theorem roundHalfEven_le (num den : ℕ) : roundHalfEven num den ≤ num / den + 1 := by
  dsimp only [roundHalfEven]
  split_ifs <;> omega

/-- What is less than half a step above an odd number is rounded to it or below, and nothing else is. -/
theorem roundHalfEven_le_odd {num half m : ℕ} (hhalf : 0 < half) (hm : m % 2 = 1) :
    roundHalfEven num (2 * half) ≤ m ↔ num < 2 * half * m + half := by
  have hnum : 2 * half * (num / (2 * half)) + num % (2 * half) = num := Nat.div_add_mod num (2 * half)
  have hmod : num % (2 * half) < 2 * half := Nat.mod_lt num (by omega)
  rcases Nat.lt_trichotomy (num / (2 * half)) m with hlt | heq | hgt
  · have hstep : 2 * half * (num / (2 * half) + 1) ≤ 2 * half * m := Nat.mul_le_mul_left _ hlt
    rw [Nat.mul_succ] at hstep
    exact iff_of_true ((roundHalfEven_le _ _).trans hlt) (by omega)
  · -- the quotient is odd, so from halfway it is rounded up
    subst heq
    dsimp only [roundHalfEven]
    split_ifs <;> omega
  · have hstep : 2 * half * (m + 1) ≤ 2 * half * (num / (2 * half)) := Nat.mul_le_mul_left _ hgt
    rw [Nat.mul_succ] at hstep
    have hround := div_le_roundHalfEven num (2 * half)
    exact iff_of_false (by omega) (by omega)

namespace Binary64

theorem isFinite_ofParts (negative : Bool) (coefficient : ℕ) (exponent : ℤ) :
    (ofParts negative coefficient exponent).isFinite = true ↔ Canonical coefficient exponent := by
  unfold ofParts
  by_cases h : Canonical coefficient exponent
  · rw [dif_pos h]
    exact iff_of_true rfl h
  · rw [dif_neg h]
    exact iff_of_false nofun h

theorem exponentOf_one {n : ℕ} (hn : n ≠ 0) : exponentOf n 1 = (n.log2 : ℤ) - 52 := by
  have hlow : 2 ^ n.log2 ≤ n := Nat.log2_self_le hn
  have hguess : (n.log2 : ℤ) - (Nat.log2 1 : ℕ) - 52 = (n.log2 : ℤ) - 52 := by
    rw [show Nat.log2 1 = 0 by decide]
    omega
  have hlong : ¬(if 0 ≤ (n.log2 : ℤ) - 52 then n / (1 * Nat.pow 2 ((n.log2 : ℤ) - 52).toNat) < Nat.pow 2 52
      else n * Nat.pow 2 (-((n.log2 : ℤ) - 52)).toNat / 1 < Nat.pow 2 52) := by
    split_ifs with h
    · rw [one_mul, not_lt]
      refine (Nat.le_div_iff_mul_le (Nat.pow_pos Nat.zero_lt_two)).mpr ?_
      calc 2 ^ 52 * 2 ^ ((n.log2 : ℤ) - 52).toNat = 2 ^ n.log2 := by
            rw [← pow_add]
            congr 1
            omega
        _ ≤ n := hlow
    · rw [Nat.div_one, not_lt]
      calc 2 ^ 52 = 2 ^ n.log2 * 2 ^ (-((n.log2 : ℤ) - 52)).toNat := by
            rw [← pow_add]
            congr 1
            omega
        _ ≤ n * 2 ^ (-((n.log2 : ℤ) - 52)).toNat := Nat.mul_le_mul_right _ hlow
  unfold exponentOf
  simp only [hguess, hlong, if_false]
  exact max_eq_right (by omega)

/-- A coefficient that was rounded up to 54 bits takes the next exponent. -/
theorem isFinite_of_rounded {negative : Bool} {coefficient : ℕ} {exponent : ℤ} (hlow : 2 ^ 52 ≤ coefficient)
    (hhigh : coefficient ≤ 2 ^ 53) (hexponent : -1074 ≤ exponent) :
    (if coefficient = Nat.pow 2 53 then ofParts negative (Nat.pow 2 52) (exponent + 1)
      else ofParts negative coefficient exponent).isFinite = true ↔
      exponent < 971 ∨ exponent = 971 ∧ coefficient ≤ 2 ^ 53 - 1 := by
  have hpow : Nat.pow 2 53 = 2 ^ 53 ∧ Nat.pow 2 52 = 2 ^ 52 := ⟨rfl, rfl⟩
  simp only [hpow]
  split_ifs with h <;> rw [isFinite_ofParts, Canonical, hpow.1, hpow.2] <;> omega

theorem isFinite_ofQuotient_short {negative : Bool} {n : ℕ} (hn : n ≠ 0) (hshort : n.log2 < 52) :
    (ofQuotient negative n 1).isFinite = true := by
  obtain ⟨more, hlog⟩ : ∃ more, n.log2 + more = 52 := ⟨52 - n.log2, by omega⟩
  have hlow : 2 ^ 52 ≤ n * Nat.pow 2 more := by
    rw [← hlog, pow_add]
    exact Nat.mul_le_mul_right _ (Nat.log2_self_le hn)
  have hhigh : n * Nat.pow 2 more < 2 ^ 53 := by
    have hexp : 53 = n.log2 + 1 + more := by omega
    rw [hexp, pow_add]
    exact Nat.mul_lt_mul_of_pos_right Nat.lt_log2_self (Nat.pow_pos Nat.zero_lt_two)
  have hexact (a : ℕ) : roundHalfEven a 1 = a := by
    dsimp only [roundHalfEven]
    split_ifs <;> omega
  have htoNat : (-((n.log2 : ℤ) - 52)).toNat = more := by omega
  have hnegative : ¬(0 : ℤ) ≤ n.log2 - 52 := by omega
  unfold ofQuotient
  rw [if_neg hn]
  simp only [exponentOf_one hn]
  rw [if_neg hnegative, htoNat, hexact, isFinite_of_rounded hlow hhigh.le (by omega)]
  exact .inl (by omega)

theorem isFinite_ofQuotient_long {negative : Bool} {n more : ℕ} (hn : n ≠ 0) (hlog : n.log2 = more + 52) :
    (ofQuotient negative n 1).isFinite = true ↔
      more < 971 ∨ more = 971 ∧ roundHalfEven n (Nat.pow 2 more) ≤ 2 ^ 53 - 1 := by
  have hpos : 0 < Nat.pow 2 more := Nat.pow_pos Nat.zero_lt_two
  have hlow : 2 ^ 52 ≤ n / Nat.pow 2 more := by
    have hself := Nat.log2_self_le hn
    rw [hlog, pow_add, mul_comm] at hself
    exact (Nat.le_div_iff_mul_le hpos).mpr hself
  have hhigh : n / Nat.pow 2 more < 2 ^ 53 := by
    have hself : n < 2 ^ (n.log2 + 1) := Nat.lt_log2_self
    rw [hlog, add_assoc, pow_add] at hself
    exact Nat.div_lt_of_lt_mul hself
  have hroundlow := div_le_roundHalfEven n (Nat.pow 2 more)
  have hroundhigh := roundHalfEven_le n (Nat.pow 2 more)
  have htoNat : ((n.log2 : ℤ) - 52).toNat = more := by omega
  have hnonneg : (0 : ℤ) ≤ n.log2 - 52 := by omega
  unfold ofQuotient
  rw [if_neg hn]
  simp only [exponentOf_one hn]
  rw [if_pos hnonneg, htoNat, one_mul, isFinite_of_rounded (by omega) (by omega) (by omega)]
  omega

/-- An integer has a finite floating-point number near it up to half a step beyond the greatest one. -/
theorem isFinite_ofInt (i : ℤ) : (ofInt i).isFinite = true ↔ i.natAbs < 2 ^ 1024 - 2 ^ 970 := by
  have hstep : 0 < 2 ^ 970 := pow_pos two_pos 970
  have htop : 2 ^ 1023 = 2 ^ 53 * 2 ^ 970 := by rw [← pow_add]
  have hbeyond : 2 ^ 1024 = 2 ^ 54 * 2 ^ 970 := by rw [← pow_add]
  unfold ofInt ofRatio
  generalize i.natAbs = n
  have hless (h : n.log2 < 1023) : n < 2 ^ 1023 :=
    calc n < 2 ^ (n.log2 + 1) := Nat.lt_log2_self
      _ ≤ 2 ^ 1023 := pow_le_pow_right₀ one_le_two h
  rw [htop] at hless
  by_cases hn : n = 0
  · rw [hn]
    exact iff_of_true rfl (by omega)
  by_cases hshort : n.log2 < 52
  · have hn' := hless (by omega)
    exact iff_of_true (isFinite_ofQuotient_short hn hshort) (by omega)
  · obtain ⟨more, hlog⟩ : ∃ more, n.log2 = more + 52 := ⟨n.log2 - 52, by omega⟩
    have hgreater (h : 1023 < n.log2) : 2 ^ 1024 ≤ n :=
      calc 2 ^ 1024 ≤ 2 ^ n.log2 := pow_le_pow_right₀ one_le_two h
        _ ≤ n := Nat.log2_self_le hn
    have hround (h : more = 971) :
        roundHalfEven n (Nat.pow 2 more) ≤ 2 ^ 53 - 1 ↔ n < 2 * 2 ^ 970 * (2 ^ 53 - 1) + 2 ^ 970 := by
      have hpow : Nat.pow 2 more = 2 * 2 ^ 970 :=
        calc 2 ^ more = 2 ^ (970 + 1) := congrArg (2 ^ ·) h
          _ = 2 * 2 ^ 970 := pow_succ' 2 970
      rw [hpow]
      exact roundHalfEven_le_odd hstep (by decide)
    rw [isFinite_ofQuotient_long hn hlog]
    rw [hbeyond] at hgreater ⊢
    generalize 2 ^ 970 = step at *
    omega

end Binary64

end Cadence
