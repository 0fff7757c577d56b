import Cadence.Proofs.OpenedTokens

/-!
# Canonical tokens

The same bytes can be spelled in base64 in more than one way: the last digit before padding has bits that nobody
reads, and whole groups may be followed by padding. One spelling is canonical, the one in which bytes are written. A
token that is opened and sealed again under its own nonce comes back in this spelling, with nothing else changed.
So a token can be altered unnoticed only where its spelling is free.
-/

namespace Cadence

namespace Secret

namespace Base64

/-! ### The spellings of some bytes -/

/-- The texts that spell some bytes. -/
inductive Spelling : List Char → List UInt8 → Prop where
  | pads (n : Nat) : Spelling (List.replicate n '=') []
  | one {a : UInt8} {w : Nat} (digit_lt : w < 64) (last : w / 16 = a.toNat % 4) :
      Spelling [digit (a.toNat / 4), digit w, '=', '='] [a]
  | two {a b : UInt8} {x : Nat} (digit_lt : x < 64) (last : x / 4 = b.toNat % 16) :
      Spelling [digit (a.toNat / 4), digit (a.toNat % 4 * 16 + b.toNat / 16), digit x, '='] [a, b]
  | group {a b c : UInt8} {s : List Char} {bytes : List UInt8} (rest : Spelling s bytes) :
      Spelling (digit (a.toNat / 4) :: digit (a.toNat % 4 * 16 + b.toNat / 16) ::
        digit (b.toNat % 16 * 4 + c.toNat / 64) :: digit (c.toNat % 64) :: s) (a :: b :: c :: bytes)

theorem toNat_of_isDigit {c : Char} (h : IsDigit c) : c.toNat < 128 := by
  have hle (d : Char) (hd : c ≤ d) : c.toNat ≤ d.toNat := UInt32.le_iff_toNat_le.mp (Char.le_def.mp hd)
  rcases h with ⟨-, h⟩ | ⟨-, h⟩ | ⟨-, h⟩ | rfl | rfl
  · exact (hle _ h).trans_lt (by decide)
  · exact (hle _ h).trans_lt (by decide)
  · exact (hle _ h).trans_lt (by decide)
  · decide
  · decide

theorem digit_of_value? {c : Char} {v : Nat} (h : value? c = some v) : v < 64 ∧ digit v = c := by
  have hall : ∀ n < 128, ∀ v ∈ value? (Char.ofNat n), v < 64 ∧ digit v = Char.ofNat n := by decide
  have hc := hall c.toNat (toNat_of_isDigit (isDigit_iff.mpr ⟨v, h⟩)) v
  rw [Char.ofNat_toNat] at hc
  exact hc h

theorem spelling_of_decodeGroups? {s : List Char} {bytes : List UInt8} (h : decodeGroups? s = some bytes) :
    Spelling s bytes := by
  have hpads {s : List Char} (h : s.all (· = '=') = true) : Spelling s [] := by
    have hs : s = List.replicate s.length '=' :=
      List.eq_replicate_iff.mpr ⟨rfl, fun c hc => of_decide_eq_true (List.all_eq_true.mp h c hc)⟩
    rw [hs]
    exact .pads _
  fun_induction decodeGroups? s generalizing bytes with
  | case1 => cases h; exact .pads 0
  | case2 b c d rest hall => cases h; exact hpads (by simpa using hall)
  | case4 a b c d rest ha ih =>
    have hgroup : decodeGroups? (a :: b :: c :: d :: rest) = some bytes := by
      rw [decodeGroups?, if_neg ha]
      exact h
    obtain ⟨v, w, hv, hw, hlast⟩ := decodeGroups?_group ha hgroup
    obtain ⟨hv64, rfl⟩ := digit_of_value? hv
    obtain ⟨hw64, rfl⟩ := digit_of_value? hw
    have hfirst : (UInt8.ofNat (v * 4 + w / 16)).toNat = v * 4 + w / 16 := Text.Utf8.toNat_byte (by omega)
    rcases hlast with ⟨rfl, rfl, rfl, rfl⟩ | ⟨x, hx, hlast⟩
    · have hspelling := Spelling.one (a := .ofNat (v * 4 + w / 16)) hw64 (by omega)
      rwa [hfirst, show (v * 4 + w / 16) / 4 = v by omega] at hspelling
    obtain ⟨hx64, rfl⟩ := digit_of_value? hx
    have hsecond : (UInt8.ofNat (w % 16 * 16 + x / 4)).toNat = w % 16 * 16 + x / 4 :=
      Text.Utf8.toNat_byte (by omega)
    rcases hlast with ⟨rfl, rfl, rfl⟩ | ⟨y, more, hy, hmore, rfl⟩
    · have hspelling := Spelling.two (a := .ofNat (v * 4 + w / 16)) (b := .ofNat (w % 16 * 16 + x / 4)) hx64
        (by omega)
      rwa [hfirst, hsecond, show (v * 4 + w / 16) / 4 = v by omega,
        show (v * 4 + w / 16) % 4 * 16 + (w % 16 * 16 + x / 4) / 16 = w by omega] at hspelling
    · obtain ⟨hy64, rfl⟩ := digit_of_value? hy
      have hthird : (UInt8.ofNat (x % 4 * 64 + y)).toNat = x % 4 * 64 + y := Text.Utf8.toNat_byte (by omega)
      have hspelling := (ih hmore).group (a := .ofNat (v * 4 + w / 16)) (b := .ofNat (w % 16 * 16 + x / 4))
        (c := .ofNat (x % 4 * 64 + y))
      rwa [hfirst, hsecond, hthird, show (v * 4 + w / 16) / 4 = v by omega,
        show (v * 4 + w / 16) % 4 * 16 + (w % 16 * 16 + x / 4) / 16 = w by omega,
        show (w % 16 * 16 + x / 4) % 16 * 4 + (x % 4 * 64 + y) / 64 = x by omega,
        show (x % 4 * 64 + y) % 64 = y by omega] at hspelling
  | case5 few _ _ hall => cases h; exact hpads hall
  | _ => cases h

theorem decodeGroups?_of_spelling {s : List Char} {bytes : List UInt8} (h : Spelling s bytes) :
    decodeGroups? s = some bytes := by
  induction h with
  | pads n => exact decodeGroups?_pads n
  | @one a w hw hlast =>
    have ha := a.toNat_lt
    rw [decodeGroups?_one (by omega) hw, Text.Utf8.byte_of_toNat (b := a) (by omega)]
  | @two a b x hx hlast =>
    have ha := a.toNat_lt
    have hb := b.toNat_lt
    rw [decodeGroups?_two (by omega) (by omega) hx, Text.Utf8.byte_of_toNat (b := a) (by omega),
      Text.Utf8.byte_of_toNat (b := b) (by omega)]
  | @group a b c s bytes hrest ih =>
    have ha := a.toNat_lt
    have hb := b.toNat_lt
    have hc := c.toNat_lt
    rw [decodeGroups?_three (by omega) (by omega) (by omega) (by omega) ih,
      Text.Utf8.byte_of_toNat (b := a) (by omega), Text.Utf8.byte_of_toNat (b := b) (by omega),
      Text.Utf8.byte_of_toNat (b := c) (by omega)]

/-! ### The canonical spelling -/

/-- Whole groups, with no more padding than the last one needs, and with no bit set that is not read. -/
structure Plain (s : List Char) : Prop where
  groups : s.length % 4 = 0
  pads : s.count '=' < 3
  spare : ∀ c ∈ (s.filter (· ≠ '=')).getLast?, ∀ v, value? c = some v → Nat.pow 4 (s.count '=') ∣ v

theorem plain_pads {n : Nat} (h : Plain (List.replicate n '=')) : n = 0 := by
  have hgroups := h.groups
  have hpads := h.pads
  rw [List.length_replicate] at hgroups
  rw [List.count_replicate_self] at hpads
  omega

theorem filter_digits {digits : List Char} (h : ∀ c ∈ digits, c ≠ '=') (s : List Char) :
    (digits ++ s).filter (· ≠ '=') = digits ++ s.filter (· ≠ '=') ∧ (digits ++ s).count '=' = s.count '=' := by
  have hfilter : digits.filter (· ≠ '=') = digits := List.filter_eq_self.mpr fun c hc => decide_eq_true (h c hc)
  have hcount : digits.count '=' = 0 := List.count_eq_zero.mpr fun hmem => h '=' hmem rfl
  rw [List.filter_append, hfilter, List.count_append, hcount, Nat.zero_add]
  exact ⟨rfl, rfl⟩

/-- A last digit followed by padding. -/
theorem plain_last {digits : List Char} {v : Nat} (pads : Nat) (h : ∀ c ∈ digits, c ≠ '=') (hv : v < 64) :
    Plain (digits ++ digit v :: List.replicate pads '=') ↔
      (digits.length + 1 + pads) % 4 = 0 ∧ pads < 3 ∧ Nat.pow 4 pads ∣ v := by
  have hall : ∀ c ∈ digits ++ [digit v], c ≠ '=' := by
    simp only [List.forall_mem_append, List.forall_mem_singleton]
    exact ⟨h, digit_ne_pad v hv⟩
  obtain ⟨hfilter, hcount⟩ := filter_digits hall (List.replicate pads '=')
  have hnone : (List.replicate pads '=').filter (· ≠ '=') = [] := by simp
  have hlast : (digits ++ [digit v]).getLast? = some (digit v) := List.getLast?_concat
  rw [hnone, List.append_nil] at hfilter
  rw [List.count_replicate_self] at hcount
  rw [← List.append_cons] at hfilter hcount
  constructor
  · rintro ⟨hgroups, hpads, hspare⟩
    rw [hcount] at hpads hspare
    rw [hfilter, hlast] at hspare
    simp only [List.length_append, List.length_cons, List.length_replicate] at hgroups
    exact ⟨by omega, hpads, hspare _ rfl v (value?_digit v hv)⟩
  · rintro ⟨hgroups, hpads, hspare⟩
    refine ⟨?_, by rwa [hcount], ?_⟩
    · simp only [List.length_append, List.length_cons, List.length_replicate]
      omega
    · rw [hfilter, hlast, hcount]
      rintro c hc v' hv'
      obtain rfl := Option.some.inj hc
      rw [value?_digit v hv, Option.some.injEq] at hv'
      exact hv' ▸ hspare

/-- The four digits of a whole group. -/
def groupDigits (a b c : UInt8) : List Char :=
  [digit (a.toNat / 4), digit (a.toNat % 4 * 16 + b.toNat / 16), digit (b.toNat % 16 * 4 + c.toNat / 64),
    digit (c.toNat % 64)]

theorem groupDigits_ne_pad (a b c : UInt8) : ∀ d ∈ groupDigits a b c, d ≠ '=' := by
  have ha := a.toNat_lt
  have hb := b.toNat_lt
  have hc := c.toNat_lt
  simp only [groupDigits, List.forall_mem_cons, List.not_mem_nil, false_implies, implies_true, and_true]
  exact ⟨digit_ne_pad _ (by omega), digit_ne_pad _ (by omega), digit_ne_pad _ (by omega),
    digit_ne_pad _ (by omega)⟩

theorem Plain.rest {a b c : UInt8} {s : List Char} (h : Plain (groupDigits a b c ++ s)) : Plain s := by
  obtain ⟨hgroups, hpads, hspare⟩ := h
  obtain ⟨hfilter, hcount⟩ := filter_digits (groupDigits_ne_pad a b c) s
  rw [hcount] at hpads hspare
  refine ⟨?_, hpads, fun d hd => hspare d ?_⟩
  · have hfour : (groupDigits a b c).length = 4 := rfl
    rw [List.length_append] at hgroups
    omega
  · rw [hfilter, List.getLast?_append, Option.mem_def.mp hd]
    rfl

theorem Plain.group {a b c : UInt8} {s : List Char} {d : Char} (h : Plain s)
    (hd : d ∈ (s.filter (· ≠ '=')).getLast?) : Plain (groupDigits a b c ++ s) := by
  obtain ⟨hgroups, hpads, hspare⟩ := h
  obtain ⟨hfilter, hcount⟩ := filter_digits (groupDigits_ne_pad a b c) s
  have hlast : (groupDigits a b c ++ s.filter (· ≠ '=')).getLast? = (s.filter (· ≠ '=')).getLast? := by
    rw [List.getLast?_append, Option.mem_def.mp hd, Option.some_or]
  refine ⟨?_, by rwa [hcount], ?_⟩
  · have hfour : (groupDigits a b c).length = 4 := rfl
    rw [List.length_append]
    omega
  · rw [hfilter, hcount, hlast]
    exact hspare

theorem exists_last_digit {bytes : List UInt8} (h : bytes ≠ []) :
    ∃ d, d ∈ ((encode bytes).filter (· ≠ '=')).getLast? := by
  obtain ⟨c, rest, hencode⟩ := List.exists_cons_of_ne_nil (encode_ne_nil h)
  have hc : c ≠ '=' := by
    have hhead := head?_encode_ne_pad bytes
    rwa [hencode, List.head?_cons, ne_eq, Option.some.injEq] at hhead
  have hne : (encode bytes).filter (· ≠ '=') ≠ [] :=
    List.ne_nil_of_mem (List.mem_filter.mpr ⟨hencode ▸ List.mem_cons_self, decide_eq_true hc⟩)
  exact ⟨_, List.getLast?_eq_some_getLast hne⟩

theorem plain_encode (bytes : List UInt8) : Plain (encode bytes) := by
  induction bytes using encode.induct with
  | case1 => exact ⟨rfl, by decide, by simp [encode]⟩
  | case2 a =>
    have ha := a.toNat_lt
    have hfirst : ∀ c ∈ [digit (a.toNat / 4)], c ≠ '=' :=
      List.forall_mem_singleton.mpr (digit_ne_pad _ (by omega))
    have hspare : 16 ∣ a.toNat % 4 * 16 := Nat.dvd_mul_left 16 _
    exact (plain_last 2 hfirst (by omega)).mpr ⟨by simp, by decide, hspare⟩
  | case3 a b =>
    have ha := a.toNat_lt
    have hb := b.toNat_lt
    have hfirst : ∀ c ∈ [digit (a.toNat / 4), digit (a.toNat % 4 * 16 + b.toNat / 16)], c ≠ '=' :=
      List.forall_mem_cons.mpr ⟨digit_ne_pad _ (by omega),
        List.forall_mem_singleton.mpr (digit_ne_pad _ (by omega))⟩
    have hspare : 4 ∣ b.toNat % 16 * 4 := Nat.dvd_mul_left 4 _
    exact (plain_last 1 hfirst (by omega)).mpr ⟨by simp, by decide, hspare⟩
  | case4 a b c rest ih =>
    by_cases hrest : rest = []
    · subst hrest
      have hc := c.toNat_lt
      have hfirst : ∀ d ∈ (groupDigits a b c).take 3, d ≠ '=' := fun d hd =>
        groupDigits_ne_pad a b c d (List.mem_of_mem_take hd)
      exact (plain_last 0 hfirst (show c.toNat % 64 < 64 by omega)).mpr ⟨by simp [groupDigits], by decide, by simp⟩
    · obtain ⟨d, hd⟩ := exists_last_digit hrest
      exact ih.group hd

/-- Of the spellings of some bytes, the canonical one is the one in which they are written. -/
theorem Spelling.eq_encode {s : List Char} {bytes : List UInt8} (h : Spelling s bytes) (hplain : Plain s) :
    s = encode bytes := by
  induction h with
  | pads n => rw [plain_pads hplain]; rfl
  | @one a w hw hlast =>
    have ha := a.toNat_lt
    have hfirst : ∀ c ∈ [digit (a.toNat / 4)], c ≠ '=' :=
      List.forall_mem_singleton.mpr (digit_ne_pad _ (by omega))
    have hspare : 16 ∣ w := ((plain_last 2 hfirst hw).mp hplain).2.2
    have hw' : w = a.toNat % 4 * 16 := by omega
    rw [hw', encode]
  | @two a b x hx hlast =>
    have ha := a.toNat_lt
    have hb := b.toNat_lt
    have hfirst : ∀ c ∈ [digit (a.toNat / 4), digit (a.toNat % 4 * 16 + b.toNat / 16)], c ≠ '=' :=
      List.forall_mem_cons.mpr ⟨digit_ne_pad _ (by omega),
        List.forall_mem_singleton.mpr (digit_ne_pad _ (by omega))⟩
    have hspare : 4 ∣ x := ((plain_last 1 hfirst hx).mp hplain).2.2
    have hx' : x = b.toNat % 16 * 4 := by omega
    rw [hx', encode]
  | @group a b c s bytes hrest ih => exact congrArg (groupDigits a b c ++ ·) (ih hplain.rest)

/-! ### One byte over whole groups -/

theorem digit_inj {v w : Nat} (hv : v < 64) (hw : w < 64) (h : digit v = digit w) : v = w := by
  have hvalue := congrArg value? h
  rw [value?_digit v hv, value?_digit w hw] at hvalue
  exact Option.some.inj hvalue

/-- The texts are one but for the low bits of the last digit before two signs of padding. -/
def AlikeButSpare (s t : List Char) : Prop :=
  ∃ front v w, s = front ++ [digit v, '=', '='] ∧ t = front ++ [digit w, '=', '='] ∧ v < 64 ∧ w < 64 ∧
    v / 16 = w / 16

theorem spelling_iff_of_one_over {bytes : List UInt8} (h : bytes.length % 3 = 1) :
    ∃ front high, ∀ s, Spelling s bytes ↔ ∃ w < 64, w / 16 = high ∧ s = front ++ [digit w, '=', '='] := by
  induction bytes using encode.induct with
  | case1 => cases h
  | case2 a =>
    refine ⟨[digit (a.toNat / 4)], a.toNat % 4, fun s => ⟨fun hs => ?_, ?_⟩⟩
    · cases hs with
      | one hw hlast => exact ⟨_, hw, hlast, rfl⟩
    · rintro ⟨w, hw, hlast, rfl⟩
      exact .one hw hlast
  | case3 a b => cases h
  | case4 a b c rest ih =>
    have hlength : (a :: b :: c :: rest).length = rest.length + 3 := rfl
    obtain ⟨front, high, hrest⟩ := ih (by omega)
    refine ⟨groupDigits a b c ++ front, high, fun s => ⟨fun hs => ?_, ?_⟩⟩
    · cases hs with
      | group hs =>
        obtain ⟨w, hw, hhigh, rfl⟩ := (hrest _).mp hs
        exact ⟨w, hw, hhigh, rfl⟩
    · rintro ⟨w, hw, hhigh, rfl⟩
      exact .group ((hrest _).mpr ⟨w, hw, hhigh, rfl⟩)

theorem Spelling.iff_alike {s t : List Char} {bytes : List UInt8} (hs : Spelling s bytes)
    (h : bytes.length % 3 = 1) : Spelling t bytes ↔ AlikeButSpare s t := by
  obtain ⟨front, high, hiff⟩ := spelling_iff_of_one_over h
  obtain ⟨v, hv, hhigh, rfl⟩ := (hiff s).mp hs
  rw [hiff]
  constructor
  · rintro ⟨w, hw, rfl, rfl⟩
    exact ⟨front, v, w, rfl, rfl, hv, hw, hhigh⟩
  · rintro ⟨front', v', w, hs', rfl, hv', hw, halike⟩
    obtain ⟨rfl, hlast⟩ := List.append_inj' hs' rfl
    have hdigit : digit v = digit v' := (List.cons.inj hlast).1
    have hsame : v = v' := digit_inj hv hv' hdigit
    exact ⟨w, hw, by omega, rfl⟩

theorem Spelling.exists_other {s : List Char} {bytes : List UInt8} (hs : Spelling s bytes)
    (h : bytes.length % 3 = 1) : ∃ t, t ≠ s ∧ AlikeButSpare s t := by
  obtain ⟨front, high, hiff⟩ := spelling_iff_of_one_over h
  obtain ⟨v, hv, hhigh, rfl⟩ := (hiff s).mp hs
  -- Another digit with the same high bits.
  obtain ⟨w, hw, hsame, hne⟩ : ∃ w < 64, v / 16 = w / 16 ∧ v ≠ w :=
    ⟨v / 16 * 16 + (v + 1) % 16, by omega, by omega, by omega⟩
  refine ⟨front ++ [digit w, '=', '='], fun heq => hne ?_, front, v, w, rfl, rfl, hv, hw, hsame⟩
  have hdigit : digit w = digit v := (List.cons.inj (List.append_cancel_left heq)).1
  exact (digit_inj hw hv hdigit).symm

theorem decode?_eq_some_iff {s : List Char} {bytes : List UInt8} (h : bytes ≠ []) :
    decode? s = some bytes ↔ Spelling s bytes := by
  have hhead (hs : Spelling s bytes) : ¬s.head? = some '=' := by
    have hfirst (a : UInt8) (rest : List Char) : ¬(digit (a.toNat / 4) :: rest).head? = some '=' := by
      have ha := a.toNat_lt
      simpa using digit_ne_pad (a.toNat / 4) (by omega)
    cases hs with
    | pads n => exact absurd rfl h
    | one _ _ => exact hfirst _ _
    | two _ _ => exact hfirst _ _
    | group _ => exact hfirst _ _
  unfold decode?
  constructor
  · intro hdecode
    split_ifs at hdecode
    exact spelling_of_decodeGroups? hdecode
  · intro hs
    rw [if_neg (hhead hs)]
    exact decodeGroups?_of_spelling hs

end Base64

namespace Cipher

variable {cipher : Cipher} {token secret : String} {s : Gcm.Sealed} {now : Instant}

/-! ### Tokens that are opened -/

def Canonical (token : String) : Prop := ∀ segment ∈ Text.splitChars '.' token.toList, Base64.Plain segment

theorem canonical_writeToken (s : Gcm.Sealed) : Canonical (writeToken s) := by
  intro segment hsegment
  rw [splitChars_writeToken] at hsegment
  simp only [List.mem_cons, List.not_mem_nil, or_false] at hsegment
  rcases hsegment with rfl | rfl | rfl <;> exact Base64.plain_encode _

theorem Holds.parts_ne_nil (h : Holds token s) : s.nonce ≠ [] ∧ s.tag ≠ [] ∧ s.bytes ≠ [] := by
  obtain ⟨a, b, c, -, ha, hb, hc, hnonce, htag, hbytes⟩ := h
  exact ⟨List.ne_nil_of_length_pos (Base64.spells_of_decode? ha hnonce).2,
    List.ne_nil_of_length_pos (Base64.spells_of_decode? hb htag).2,
    List.ne_nil_of_length_pos (Base64.spells_of_decode? hc hbytes).2⟩

/-- Of the tokens with the same parts, one is canonical. -/
theorem Holds.eq_writeToken (h : Holds token s) (hcanonical : Canonical token) : token = writeToken s := by
  obtain ⟨hnonce0, htag0, hbytes0⟩ := h.parts_ne_nil
  obtain ⟨a, b, c, hsplit, -, -, -, hnonce, htag, hbytes⟩ := h
  have hplain : ∀ segment ∈ [a, b, c], Base64.Plain segment := hsplit ▸ hcanonical
  have ha := ((Base64.decode?_eq_some_iff hnonce0).mp hnonce).eq_encode (hplain a (by simp))
  have hb := ((Base64.decode?_eq_some_iff htag0).mp htag).eq_encode (hplain b (by simp))
  have hc := ((Base64.decode?_eq_some_iff hbytes0).mp hbytes).eq_encode (hplain c (by simp))
  have hparts := toList_of_segments hsplit
  rw [ha, hb, hc] at hparts
  rw [writeToken, List.append_assoc, List.cons_append, ← hparts, String.ofList_toList]

theorem decrypt_eq_ok_iff :
    cipher.decrypt token now = .ok secret ↔ IsToken token ∧ Hides cipher token (Text.utf8 secret) := by
  have hopening := decrypt_opening cipher token now
  generalize cipher.decrypt token now = o at hopening
  cases hopening with
  | malformed unread => exact iff_of_false (by simp) fun h => unread h.1
  | forged _ hidesNothing => exact iff_of_false (by simp) fun h => hidesNothing _ h.2
  | opened read hides =>
    rw [Except.ok.injEq]
    exact ⟨fun h => ⟨read, h ▸ hides⟩, fun h => utf8_inj (hides_inj hides h.2)⟩
  | illegible _ hides noText => exact iff_of_false (by simp) fun h => noText _ (hides_inj h.2 hides)

theorem seal_of_hides (h : Hides cipher token (Text.utf8 secret)) :
    ∃ s, Holds token s ∧ secret ≠ "" ∧ Gcm.encrypt cipher.block s.nonce (Text.utf8 secret) = s := by
  obtain ⟨s, hholds, htag, hhidden⟩ := h
  refine ⟨s, hholds, ?_, ?_⟩
  · rintro rfl
    have hlength := congrArg List.length hhidden
    rw [Gcm.length_crypt] at hlength
    exact hholds.parts_ne_nil.2.2 (List.eq_nil_of_length_eq_zero hlength.symm)
  · rw [Gcm.encrypt, hhidden, Gcm.crypt_crypt, ← htag]

/-! ### Tokens with another text for a tag -/

section Joined
variable {a b c segment : List Char}

def joined (nonce tag bytes : List Char) : String := String.ofList (nonce ++ '.' :: (tag ++ '.' :: bytes))

theorem splitChars_joined (hsplit : Text.splitChars '.' token.toList = [a, b, c]) (segment : List Char) :
    Text.splitChars '.' (joined a segment c).toList = a :: (Text.splitChars '.' segment ++ [c]) := by
  have hdot (piece : List Char) (h : piece ∈ [a, b, c]) : Text.splitChars '.' piece = [piece] :=
    Text.splitChars_of_not_mem (Text.not_mem_of_mem_splitChars (hsplit ▸ h))
  rw [joined, String.toList_ofList, Text.splitChars_append, Text.splitChars_append, hdot a (by simp),
    hdot c (by simp)]
  rfl

/-- What such a token holds are the other parts of the token, and what the text spells. -/
theorem parts_of_joined {s' : Gcm.Sealed} (h : Holds token s)
    (hsplit : Text.splitChars '.' token.toList = [a, b, c]) (h' : Holds (joined a segment c) s') :
    s'.nonce = s.nonce ∧ s'.bytes = s.bytes ∧ Base64.decode? segment = some s'.tag := by
  obtain ⟨_, _, _, hparts, -, -, -, hnonce, -, hbytes⟩ := h
  obtain ⟨rfl, rfl, rfl⟩ : a = _ ∧ b = _ ∧ c = _ := by simpa using hsplit.symm.trans hparts
  obtain ⟨a', b', c', hsplit', -, -, -, hnonce', htag', hbytes'⟩ := h'
  rw [splitChars_joined hsplit] at hsplit'
  obtain ⟨rfl, hrest⟩ := List.cons.inj hsplit'
  obtain ⟨hsegment, hlast⟩ := List.append_inj' (show _ ++ [c] = [b'] ++ [c'] from hrest) rfl
  obtain rfl : c = c' := List.cons.inj hlast |>.1
  have hwhole := Text.intercalate_splitChars '.' segment
  rw [hsegment] at hwhole
  obtain rfl : b' = segment := by simpa [List.intercalate] using hwhole
  rw [hnonce, Option.some.injEq] at hnonce'
  rw [hbytes, Option.some.injEq] at hbytes'
  exact ⟨hnonce'.symm, hbytes'.symm, htag'⟩

theorem holds_joined (h : Holds token s) (hsplit : Text.splitChars '.' token.toList = [a, b, c])
    (hsegment : Base64.Spelling segment s.tag) : Holds (joined a segment c) s := by
  have htag := (Base64.decode?_eq_some_iff h.parts_ne_nil.2.1).mpr hsegment
  have hne : segment ≠ [] := by
    rintro rfl
    exact h.parts_ne_nil.2.1 (Option.some.inj htag).symm
  have hdot : Text.splitChars '.' segment = [segment] :=
    Text.splitChars_of_not_mem (Base64.spells_of_decode? hne htag).1.dot_not_mem
  obtain ⟨_, _, _, hparts, ha, -, hc, hnonce, -, hbytes⟩ := h
  obtain ⟨rfl, rfl, rfl⟩ : a = _ ∧ b = _ ∧ c = _ := by simpa using hsplit.symm.trans hparts
  refine ⟨a, segment, c, ?_, ha, hne, hc, hnonce, htag, hbytes⟩
  rw [splitChars_joined hsplit, hdot]
  rfl

theorem Holds.spelling_tag (h : Holds token s) (hsplit : Text.splitChars '.' token.toList = [a, b, c]) :
    Base64.Spelling b s.tag := by
  have htag0 := h.parts_ne_nil.2.1
  obtain ⟨_, _, _, hparts, -, -, -, -, htag, -⟩ := h
  obtain ⟨rfl, rfl, rfl⟩ : a = _ ∧ b = _ ∧ c = _ := by simpa using hsplit.symm.trans hparts
  exact (Base64.decode?_eq_some_iff htag0).mp htag

variable (hholds : Holds token s) (hnonce : s.nonce.length = 12) (hlength : s.tag.length = 16)
  (htag : s.tag = Gcm.tag cipher.block s.nonce s.bytes)
  (hsplit : Text.splitChars '.' token.toList = [a, b, c])
include hholds hlength htag hsplit

theorem alike_of_hides_joined {hidden : List UInt8} (h : Hides cipher (joined a segment c) hidden) :
    Base64.AlikeButSpare b segment := by
  obtain ⟨s', hholds', htag', -⟩ := h
  obtain ⟨hnonce', hbytes', hsegment⟩ := parts_of_joined hholds hsplit hholds'
  have hsame : s'.tag = s.tag := by rw [htag', htag, hnonce', hbytes']
  rw [hsame, Base64.decode?_eq_some_iff hholds.parts_ne_nil.2.1] at hsegment
  exact ((hholds.spelling_tag hsplit).iff_alike (by rw [hlength])).mp hsegment

include hnonce

theorem decrypt_joined_of_alike (hhidden : Text.utf8 secret = Gcm.crypt cipher.block s.nonce s.bytes)
    (h : Base64.AlikeButSpare b segment) (later : Instant) :
    cipher.decrypt (joined a segment c) later = .ok secret := by
  have hspelling := ((hholds.spelling_tag hsplit).iff_alike (by rw [hlength])).mpr h
  have hjoined := holds_joined hholds hsplit hspelling
  have htoken : IsToken (joined a segment c) :=
    isToken_iff.mpr ⟨s, readToken_eq_ok_iff.mpr ⟨hjoined, hnonce, hlength⟩⟩
  exact decrypt_eq_ok_iff.mpr ⟨htoken, s, hjoined, htag, hhidden⟩

end Joined

/-- Sealed again under the nonce of its token, a secret that was opened gives the canonical token with the same
parts, which is the token that was opened if that one is canonical. With another text for its tag, a token that is
opened gives the same secret if the text is the same but for the last digit's low bits, and is refused otherwise. -/
theorem opened_and_sealed (h : cipher.decrypt token now = .ok secret) :
    ∃ s again nonce tag bytes, Holds token s ∧ s.nonce.length = 12 ∧
      (∀ later, cipher.encrypt s.nonce secret later = .ok again) ∧ Holds again s ∧ Canonical again ∧
      (again = token ↔ Canonical token) ∧ Text.splitChars '.' token.toList = [nonce, tag, bytes] ∧
      ∀ other later, let o := cipher.decrypt (joined nonce other bytes) later
        (o = .ok secret ↔ Base64.AlikeButSpare tag other) ∧
        (¬Base64.AlikeButSpare tag other →
          FailsAs .invalidCiphertextFormat o ∨ FailsAs .authenticationFailed o) := by
  obtain ⟨htoken, hhides⟩ := decrypt_eq_ok_iff.mp h
  obtain ⟨s, hread⟩ := isToken_iff.mp htoken
  obtain ⟨hholds, hnonce, hlength⟩ := readToken_eq_ok_iff.mp hread
  obtain ⟨hne, hsealed⟩ : secret ≠ "" ∧ Gcm.encrypt cipher.block s.nonce (Text.utf8 secret) = s := by
    obtain ⟨s', hholds', hne, hsealed⟩ := seal_of_hides hhides
    rw [holds_inj hholds hholds']
    exact ⟨hne, hsealed⟩
  obtain ⟨htag, hhidden⟩ : s.tag = Gcm.tag cipher.block s.nonce s.bytes ∧
      Text.utf8 secret = Gcm.crypt cipher.block s.nonce s.bytes := by
    obtain ⟨s', hholds', htag, hhidden⟩ := hhides
    rw [holds_inj hholds hholds']
    exact ⟨htag, hhidden⟩
  obtain ⟨a, b, c, hsplit, -⟩ := id hholds
  have hagain : cipher.tokenOf s.nonce secret = writeToken s := congrArg writeToken hsealed
  obtain ⟨hnonce0, htag0, hbytes0⟩ := hholds.parts_ne_nil
  have hsame : writeToken s = token ↔ Canonical token :=
    ⟨fun heq => heq ▸ canonical_writeToken s, fun hcanonical => (hholds.eq_writeToken hcanonical).symm⟩
  refine ⟨s, writeToken s, a, b, c, hholds, hnonce, fun later => hagain ▸ encrypt_eq_ok hne later,
    writeToken_holds hnonce0 htag0 hbytes0, canonical_writeToken s, hsame, hsplit,
    fun other later => ⟨?_, fun hnot => ?_⟩⟩
  · exact ⟨fun hopened => alike_of_hides_joined hholds hlength htag hsplit (decrypt_eq_ok_iff.mp hopened).2,
      fun halike => decrypt_joined_of_alike hholds hnonce hlength htag hsplit hhidden halike later⟩
  · have hnone {hidden : List UInt8} : ¬Hides cipher (joined a other c) hidden := fun hhides =>
      hnot (alike_of_hides_joined hholds hlength htag hsplit hhides)
    have hopening := decrypt_opening cipher (joined a other c) later
    generalize cipher.decrypt (joined a other c) later = o at hopening
    cases hopening with
    | malformed _ kind => exact .inl ⟨_, rfl, kind⟩
    | forged _ _ kind => exact .inr ⟨_, rfl, kind⟩
    | opened _ hides => exact absurd hides hnone
    | illegible _ hides => exact absurd hides hnone

theorem opened_and_sealed_accented :
    let cipher := Integration.liveService.cipher
    let now := Integration.firstWorld.now
    let token := cipher.tokenOf (List.replicate 12 7) "clé"
    cipher.decrypt token now = .ok "clé" ∧
      ∃ s again nonce tag bytes, Holds token s ∧ s.nonce.length = 12 ∧
        (∀ later, cipher.encrypt s.nonce "clé" later = .ok again) ∧ Holds again s ∧ Canonical again ∧
        (again = token ↔ Canonical token) ∧ Text.splitChars '.' token.toList = [nonce, tag, bytes] ∧
        ∀ other later, let o := cipher.decrypt (joined nonce other bytes) later
          (o = .ok "clé" ↔ Base64.AlikeButSpare tag other) ∧
          (¬Base64.AlikeButSpare tag other →
            FailsAs .invalidCiphertextFormat o ∨ FailsAs .authenticationFailed o) := by
  intro cipher now token
  have hopened : cipher.decrypt token now = .ok "clé" := decrypt_tokenOf cipher rfl (by decide) now
  exact ⟨hopened, opened_and_sealed hopened⟩

/-- In every genuine token the text of the tag can be replaced by another one, so that it is opened all the same. -/
theorem exists_altered (cipher : Cipher) {nonce : List UInt8} (hnonce : nonce.length = 12) (hne : secret ≠ "")
    (now : Instant) :
    ∃ first tag other last, Text.splitChars '.' (cipher.tokenOf nonce secret).toList = [first, tag, last] ∧
      other ≠ tag ∧ joined first other last ≠ cipher.tokenOf nonce secret ∧
      cipher.decrypt (joined first other last) now = .ok secret := by
  have hholds := tokenOf_holds cipher hnonce hne
  have hsplit := splitChars_writeToken (Gcm.encrypt cipher.block nonce (Text.utf8 secret))
  have hlength : (Gcm.encrypt cipher.block nonce (Text.utf8 secret)).tag.length = 16 :=
    length_toBytes Gcm.tagSize _
  have hspelling := hholds.spelling_tag hsplit
  obtain ⟨other, hother, halike⟩ := hspelling.exists_other (by rw [hlength])
  refine ⟨_, _, other, _, hsplit, hother, fun heq => hother ?_,
    decrypt_joined_of_alike hholds hnonce hlength rfl hsplit (Gcm.crypt_crypt ..).symm halike now⟩
  have hparts := congrArg String.toList heq
  rw [joined, String.toList_ofList, tokenOf, toList_of_segments hsplit] at hparts
  exact List.append_cancel_right (List.cons.inj (List.append_cancel_left hparts)).2

/-- The tag of a genuine token can be replaced by another text: the altered token is opened, and sealing what it
hides again does not give it back. -/
theorem altered_tag_opens :
    let cipher := Integration.liveService.cipher
    let now := Integration.firstWorld.now
    let nonce : List UInt8 := List.replicate 11 0 ++ [1]
    let token := cipher.tokenOf nonce "a"
    ∃ first tag other last, cipher.encrypt nonce "a" now = .ok token ∧
      Text.splitChars '.' token.toList = [first, tag, last] ∧ other ≠ tag ∧
      cipher.decrypt (joined first other last) now = .ok "a" ∧
      cipher.encrypt nonce "a" now ≠ .ok (joined first other last) := by
  intro cipher now nonce token
  have hne : "a" ≠ "" := by decide
  have hlength : nonce.length = 12 := rfl
  obtain ⟨first, tag, other, last, hsplit, hother, haltered, hopened⟩ := exists_altered cipher hlength hne now
  have hsealed : cipher.encrypt nonce "a" now = .ok token := encrypt_eq_ok hne now
  refine ⟨first, tag, other, last, hsealed, hsplit, hother, hopened, fun heq => haltered ?_⟩
  rw [hsealed] at heq
  exact (Except.ok.inj heq).symm

end Cipher

end Secret

end Cadence
