import Cadence.Text.Ranges
import Cadence.Text.Utf8
import Mathlib.Tactic.SplitIfs

/-!
# Texts are read back from their bytes

The first byte of a character tells how many follow and sets bounds for the second one. Since no character
is a surrogate, the bytes that are written keep to these bounds, and reading them gives the text again. Bytes
that are read within these bounds are written for the text that they give.
-/

namespace Cadence.Text.Utf8

/-! ### Bytes as numbers -/

theorem toNat_byte {n : Nat} (h : n < 256) : (UInt8.ofNat n).toNat = n :=
  UInt8.toNat_ofNat_of_lt' h

theorem byte_of_toNat {n : Nat} {b : UInt8} (h : n = b.toNat) : UInt8.ofNat n = b := by
  rw [h, UInt8.ofNat_toNat]

theorem isTail_byte {n : Nat} (h : n < 64) : isTail (.ofNat (0x80 + n)) = true := by
  have hbyte := toNat_byte (show 0x80 + n < 256 by omega)
  simp only [isTail, Bool.and_eq_true, decide_eq_true_eq, UInt8.le_iff_toNat_le, UInt8.lt_iff_toNat_lt,
    hbyte, UInt8.reduceToNat]
  omega

theorem addTail_byte {m n : Nat} (h : n < 64) : addTail m (.ofNat (0x80 + n)) = 64 * m + n := by
  rw [addTail, toNat_byte (by omega)]
  omega

/-- A second byte is within the bounds that a first byte sets for it. -/
def Within (bounds : UInt8 × UInt8) (second : UInt8) : Prop := ¬(second < bounds.1 ∨ bounds.2 < second)

theorem within_byte {low high : UInt8} {n : Nat} (h : n < 256) (hlow : low.toNat ≤ n) (hhigh : n ≤ high.toNat) :
    Within (low, high) (.ofNat n) := by
  simp only [Within, UInt8.lt_iff_toNat_lt, toNat_byte h]
  omega

theorem lead?_two {n : Nat} (hlow : 0xC2 ≤ n) (hhigh : n ≤ 0xDF) :
    lead? (.ofNat n) = some (1, 0x80, 0xBF) := by
  have hbyte := toNat_byte (show n < 256 by omega)
  simp only [lead?, UInt8.le_iff_toNat_le, hbyte, UInt8.reduceToNat, hlow, hhigh, and_self, if_true]

theorem lead?_three (n second : Nat) (hlow : 0xE0 ≤ n) (hhigh : n ≤ 0xEF) (htail : second < 64)
    (hshort : n = 0xE0 → 0x20 ≤ second) (hsurrogate : n = 0xED → second < 0x20) :
    ∃ low high, lead? (.ofNat n) = some (2, low, high) ∧ Within (low, high) (.ofNat (0x80 + second)) := by
  have hbyte := toNat_byte (show n < 256 by omega)
  have htwo : ¬n ≤ 0xDF := by omega
  simp only [lead?, UInt8.le_iff_toNat_le, ← UInt8.toNat_inj, hbyte, UInt8.reduceToNat, htwo, and_false, if_false]
  split
  · exact ⟨_, _, rfl, within_byte (by omega) (by simp; omega) (by simp; omega)⟩
  · split
    · exact ⟨_, _, rfl, within_byte (by omega) (by simp) (by simp; omega)⟩
    · rw [if_pos (by omega)]
      exact ⟨_, _, rfl, within_byte (by omega) (by simp) (by simp; omega)⟩

theorem lead?_four (n second : Nat) (hlow : 0xF0 ≤ n) (hhigh : n ≤ 0xF4) (htail : second < 64)
    (hshort : n = 0xF0 → 0x10 ≤ second) (hbeyond : n = 0xF4 → second < 0x10) :
    ∃ low high, lead? (.ofNat n) = some (3, low, high) ∧ Within (low, high) (.ofNat (0x80 + second)) := by
  have hbyte := toNat_byte (show n < 256 by omega)
  have htwo : ¬n ≤ 0xDF := by omega
  have hthree : ¬n ≤ 0xEF := by omega
  have hfirst : n ≠ 0xE0 := by omega
  have hd : n ≠ 0xED := by omega
  simp only [lead?, UInt8.le_iff_toNat_le, ← UInt8.toNat_inj, hbyte, UInt8.reduceToNat, htwo, hthree, hfirst,
    hd, and_false, if_false]
  split
  · exact ⟨_, _, rfl, within_byte (by omega) (by simp; omega) (by simp; omega)⟩
  · split
    · exact ⟨_, _, rfl, within_byte (by omega) (by simp) (by simp; omega)⟩
    · rw [if_pos (by omega)]
      exact ⟨_, _, rfl, within_byte (by omega) (by simp) (by simp; omega)⟩

/-! ### Characters -/

variable {start : Nat} {rest : List UInt8}

theorem decodeFrom_one {n : Nat} (h : n < 0x80) :
    decodeFrom start (.ofNat n :: rest) = (decodeFrom (start + 1) rest).map (Char.ofNat n :: ·) := by
  have hbyte := toNat_byte (show n < 256 by omega)
  have hone : UInt8.ofNat n < 0x80 := by
    rw [UInt8.lt_iff_toNat_lt, hbyte]
    exact h
  rw [decodeFrom, if_pos hone, hbyte]

theorem decodeFrom_two {a b low high : UInt8} (hmore : ¬a < 0x80) (hlead : lead? a = some (1, low, high))
    (hb : Within (low, high) b) :
    decodeFrom start (a :: b :: rest) =
      (decodeFrom (start + 2) rest).map (Char.ofNat (addTail (a.toNat % 32) b) :: ·) := by
  rw [decodeFrom, if_neg hmore, hlead]
  simp only [if_neg hb, if_true]

theorem decodeFrom_three {a b c low high : UInt8} (hmore : ¬a < 0x80) (hlead : lead? a = some (2, low, high))
    (hb : Within (low, high) b) (hc : isTail c = true) :
    decodeFrom start (a :: b :: c :: rest) =
      (decodeFrom (start + 3) rest).map (Char.ofNat (addTail (addTail (a.toNat % 16) b) c) :: ·) := by
  rw [decodeFrom, if_neg hmore, hlead]
  simp only [if_neg hb, hc]
  rfl

theorem decodeFrom_four {a b c d low high : UInt8} (hmore : ¬a < 0x80)
    (hlead : lead? a = some (3, low, high)) (hb : Within (low, high) b) (hc : isTail c = true)
    (hd : isTail d = true) :
    decodeFrom start (a :: b :: c :: d :: rest) =
      (decodeFrom (start + 4) rest).map
        (Char.ofNat (addTail (addTail (addTail (a.toNat % 8) b) c) d) :: ·) := by
  rw [decodeFrom, if_neg hmore, hlead]
  simp only [if_neg hb, hc, hd]
  rfl

theorem not_ascii {n : Nat} (hlow : 0x80 ≤ n) (hhigh : n < 256) : ¬UInt8.ofNat n < 0x80 := by
  rw [UInt8.lt_iff_toNat_lt, toNat_byte hhigh]
  exact Nat.not_lt.mpr hlow

/-- No character is a surrogate. -/
theorem toNat_of_char (c : Char) : c.toNat < 0xD800 ∨ 0xDFFF < c.toNat ∧ c.toNat < 0x110000 := c.valid

theorem decodeFrom_encodeChar (c : Char) :
    decodeFrom start (encodeChar c ++ rest) =
      (decodeFrom (start + (encodeChar c).length) rest).map (c :: ·) := by
  have hchar : Char.ofNat c.toNat = c := Char.ofNat_toNat c
  have hvalid := toNat_of_char c
  unfold encodeChar
  dsimp only
  split_ifs with hone htwo hthree
  · show decodeFrom start (.ofNat c.toNat :: rest) = _
    rw [decodeFrom_one hone, hchar]
    rfl
  · have hvalue : addTail (UInt8.toNat (.ofNat (0xC0 + c.toNat / 64)) % 32) (.ofNat (0x80 + c.toNat % 64)) =
        c.toNat := by
      rw [addTail_byte (by omega), toNat_byte (by omega)]
      omega
    refine (decodeFrom_two (not_ascii (by omega) (by omega)) (lead?_two (by omega) (by omega))
      (within_byte (by omega) ?_ ?_)).trans ?_
    · simp
    · simp
      omega
    · rw [hvalue, hchar]
      rfl
  · have hvalue : addTail (addTail (UInt8.toNat (.ofNat (0xE0 + c.toNat / 4096)) % 16)
        (.ofNat (0x80 + c.toNat / 64 % 64))) (.ofNat (0x80 + c.toNat % 64)) = c.toNat := by
      rw [addTail_byte (by omega), addTail_byte (by omega), toNat_byte (by omega)]
      omega
    obtain ⟨low, high, hlead, hsecond⟩ := lead?_three (0xE0 + c.toNat / 4096)
      (c.toNat / 64 % 64) (by omega) (by omega) (by omega) (by omega) (by omega)
    refine (decodeFrom_three (not_ascii (by omega) (by omega)) hlead hsecond
      (isTail_byte (by omega))).trans ?_
    rw [hvalue, hchar]
    rfl
  · have hvalue : addTail (addTail (addTail (UInt8.toNat (.ofNat (0xF0 + c.toNat / 262144)) % 8)
        (.ofNat (0x80 + c.toNat / 4096 % 64))) (.ofNat (0x80 + c.toNat / 64 % 64)))
        (.ofNat (0x80 + c.toNat % 64)) = c.toNat := by
      rw [addTail_byte (by omega), addTail_byte (by omega), addTail_byte (by omega), toNat_byte (by omega)]
      omega
    obtain ⟨low, high, hlead, hsecond⟩ := lead?_four (0xF0 + c.toNat / 262144)
      (c.toNat / 4096 % 64) (by omega) (by omega) (by omega) (by omega) (by omega)
    refine (decodeFrom_four (not_ascii (by omega) (by omega)) hlead hsecond
      (isTail_byte (by omega)) (isTail_byte (by omega))).trans ?_
    rw [hvalue, hchar]
    rfl

theorem decodeFrom_encode (s : List Char) : decodeFrom start (encode s) = .ok s := by
  induction s generalizing start with
  | nil => rfl
  | cons c rest ih =>
    rw [encode, List.flatMap_cons, decodeFrom_encodeChar]
    show (decodeFrom _ (encode rest)).map _ = _
    rw [ih]
    rfl

theorem decode_encode (s : List Char) : decode (encode s) = .ok s := decodeFrom_encode s

theorem encode_ne_nil {s : List Char} (h : s ≠ []) : encode s ≠ [] := by
  cases s with
  | nil => exact absurd rfl h
  | cons c rest =>
    have hchar : encodeChar c ≠ [] := by
      unfold encodeChar
      dsimp only
      split_ifs <;> exact List.cons_ne_nil _ _
    exact List.append_ne_nil_of_left_ne_nil hchar _

/-! ### Bytes that are a text -/

theorem isTail_toNat {b : UInt8} (h : isTail b = true) : 0x80 ≤ b.toNat ∧ b.toNat < 0xC0 := by
  simpa [isTail, UInt8.le_iff_toNat_le, UInt8.lt_iff_toNat_lt] using h

/-- A first byte of several, and a second byte within the bounds that it sets. -/
theorem bounds_of_lead? {a b low high : UInt8} {more : Nat} (hlead : lead? a = some (more, low, high))
    (hb : Within (low, high) b) :
    0x80 ≤ b.toNat ∧ b.toNat < 0xC0 ∧
      (more = 1 ∧ 0xC2 ≤ a.toNat ∧ a.toNat < 0xE0 ∨
        more = 2 ∧ 0xE0 ≤ a.toNat ∧ a.toNat < 0xF0 ∧ (a.toNat = 0xE0 → 0xA0 ≤ b.toNat) ∧
          (a.toNat = 0xED → b.toNat < 0xA0) ∨
        more = 3 ∧ 0xF0 ≤ a.toNat ∧ a.toNat < 0xF5 ∧ (a.toNat = 0xF0 → 0x90 ≤ b.toNat) ∧
          (a.toNat = 0xF4 → b.toNat < 0x90)) := by
  unfold Within at hb
  unfold lead? at hlead
  simp only [UInt8.le_iff_toNat_le, UInt8.lt_iff_toNat_lt, ← UInt8.toNat_inj, UInt8.reduceToNat] at hlead hb
  split_ifs at hlead <;> simp only [Option.some.injEq, Prod.mk.injEq] at hlead <;>
    obtain ⟨rfl, rfl, rfl⟩ := hlead <;> simp only [UInt8.reduceToNat] at hb <;> omega

variable {a b c d low high : UInt8}

theorem encodeChar_one (ha : a < 0x80) : encodeChar (Char.ofNat a.toNat) = [a] := by
  have hlow : a.toNat < 0x80 := UInt8.lt_iff_toNat_lt.mp ha
  rw [encodeChar, toNat_ofNat (by omega)]
  simp only [if_pos hlow, UInt8.ofNat_toNat]

theorem encodeChar_two (hlead : lead? a = some (1, low, high)) (hb : Within (low, high) b) :
    encodeChar (Char.ofNat (addTail (a.toNat % 32) b)) = [a, b] := by
  have hbounds := bounds_of_lead? hlead hb
  have hvalue : addTail (a.toNat % 32) b = 64 * (a.toNat - 0xC0) + (b.toNat - 0x80) := by
    unfold addTail
    omega
  rw [encodeChar, hvalue, toNat_ofNat (by omega)]
  rw [if_neg (by omega), if_pos (by omega), byte_of_toNat (b := a) (by omega), byte_of_toNat (b := b) (by omega)]

theorem encodeChar_three (hlead : lead? a = some (2, low, high)) (hb : Within (low, high) b)
    (hc : isTail c = true) :
    encodeChar (Char.ofNat (addTail (addTail (a.toNat % 16) b) c)) = [a, b, c] := by
  have hbounds := bounds_of_lead? hlead hb
  have hthird := isTail_toNat hc
  have hvalue : addTail (addTail (a.toNat % 16) b) c =
      4096 * (a.toNat - 0xE0) + 64 * (b.toNat - 0x80) + (c.toNat - 0x80) := by
    unfold addTail
    omega
  rw [encodeChar, hvalue, toNat_ofNat (by omega)]
  rw [if_neg (by omega), if_neg (by omega), if_pos (by omega), byte_of_toNat (b := a) (by omega),
    byte_of_toNat (b := b) (by omega), byte_of_toNat (b := c) (by omega)]

theorem encodeChar_four (hlead : lead? a = some (3, low, high)) (hb : Within (low, high) b)
    (hc : isTail c = true) (hd : isTail d = true) :
    encodeChar (Char.ofNat (addTail (addTail (addTail (a.toNat % 8) b) c) d)) = [a, b, c, d] := by
  have hbounds := bounds_of_lead? hlead hb
  have hthird := isTail_toNat hc
  have hfourth := isTail_toNat hd
  have hvalue : addTail (addTail (addTail (a.toNat % 8) b) c) d =
      262144 * (a.toNat - 0xF0) + 4096 * (b.toNat - 0x80) + 64 * (c.toNat - 0x80) + (d.toNat - 0x80) := by
    unfold addTail
    omega
  rw [encodeChar, hvalue, toNat_ofNat (by omega)]
  rw [if_neg (by omega), if_neg (by omega), if_neg (by omega), byte_of_toNat (b := a) (by omega),
    byte_of_toNat (b := b) (by omega), byte_of_toNat (b := c) (by omega), byte_of_toNat (b := d) (by omega)]

theorem encode_of_decodeFrom_cons {later : Nat} {front rest : List UInt8} {first : Char} {chars : List Char}
    (hfirst : encodeChar first = front) (hrest : ∀ {more}, decodeFrom later rest = .ok more → encode more = rest)
    (h : (decodeFrom later rest).map (first :: ·) = .ok chars) : encode chars = front ++ rest := by
  cases hmore : decodeFrom later rest with
  | error m =>
    rw [hmore] at h
    cases h
  | ok more =>
    rw [hmore] at h
    cases h
    rw [encode, List.flatMap_cons, hfirst]
    exact congrArg _ (hrest hmore)

/-- Bytes that are read as a text are the bytes of this text. -/
theorem encode_of_decodeFrom {start : Nat} {bytes : List UInt8} {chars : List Char}
    (h : decodeFrom start bytes = .ok chars) : encode chars = bytes := by
  fun_induction decodeFrom start bytes generalizing chars with
  | case1 => cases h; rfl
  | case2 start a rest ha ih => exact encode_of_decodeFrom_cons (encodeChar_one ha) ih h
  | case6 start a _ low high b rest hb hlead ih =>
    exact encode_of_decodeFrom_cons (encodeChar_two hlead hb) ih h
  | case9 start a _ low high b hb c rest hc hlead _ ih =>
    exact encode_of_decodeFrom_cons (encodeChar_three hlead hb (by simpa using hc)) ih h
  | case12 start a _ more low high hlead b hb hone c hc htwo d rest hd ih =>
    obtain rfl : more = 3 := by
      have hbounds := bounds_of_lead? hlead hb
      omega
    exact encode_of_decodeFrom_cons (encodeChar_four hlead hb (by simpa using hc) (by simpa using hd)) ih h
  | _ => cases h

theorem encode_of_decode {bytes : List UInt8} {chars : List Char} (h : decode bytes = .ok chars) :
    encode chars = bytes := encode_of_decodeFrom h

end Cadence.Text.Utf8
