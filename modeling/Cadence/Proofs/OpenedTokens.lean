import Cadence.Proofs.ClientHistory

/-!
# Which tokens are opened

Any text can be offered as a token. It is opened if it consists of three segments of base64 for a nonce, a tag
and some bytes, the tag is the one of the bytes, and what the bytes hide is a text. A text without such segments
is refused as malformed, and one with another tag as forged. A genuine token whose bytes hide no text ends in a
fault of its own.
-/

namespace Cadence

namespace Secret

namespace Base64

/-! ### Texts of base64 -/

def IsDigit (c : Char) : Prop :=
  ('A' ≤ c ∧ c ≤ 'Z') ∨ ('a' ≤ c ∧ c ≤ 'z') ∨ ('0' ≤ c ∧ c ≤ '9') ∨ c = '+' ∨ c = '/'

/-- So many digits and signs of padding stand for so many bytes. There are as few digits of six bits as hold the
bytes. The last group of four is filled up; where no group has to be filled up, any padding may follow. -/
def Fits (digits pads count : Nat) : Prop :=
  digits = (4 * count + 2) / 3 ∧ (count % 3 = 0 ∨ pads = 3 - count % 3)

/-- The text is base64 for so many bytes. -/
def Spells (s : List Char) (count : Nat) : Prop :=
  ∃ digits pads, s = digits ++ List.replicate pads '=' ∧ (∀ c ∈ digits, IsDigit c) ∧ Fits digits.length pads count

theorem isDigit_iff {c : Char} : IsDigit c ↔ ∃ v, value? c = some v := by
  unfold IsDigit value?
  constructor
  · intro h
    split_ifs with hupper hlower hnumber hplus hslash
    · exact ⟨_, rfl⟩
    · exact ⟨_, rfl⟩
    · exact ⟨_, rfl⟩
    · exact ⟨_, rfl⟩
    · exact ⟨_, rfl⟩
    · simp only [hupper, hlower, hnumber, hplus, hslash, or_self] at h
  · rintro ⟨v, hv⟩
    split_ifs at hv <;> simp_all

theorem not_isDigit_pad : ¬IsDigit '=' := by
  unfold IsDigit
  decide

theorem not_isDigit_dot : ¬IsDigit '.' := by
  unfold IsDigit
  decide

theorem value?_of_isDigit {c : Char} (h : IsDigit c) : c ≠ '=' ∧ ∃ v, value? c = some v :=
  ⟨fun heq => not_isDigit_pad (heq ▸ h), isDigit_iff.mp h⟩

theorem spells_pads (pads : Nat) : Spells (List.replicate pads '=') 0 :=
  ⟨[], pads, rfl, by simp, by simp [Fits]⟩

theorem spells_of_pads {s : List Char} (h : s.all (· = '=') = true) : Spells s 0 := by
  have hpads : s = List.replicate s.length '=' :=
    List.eq_replicate_iff.mpr ⟨rfl, fun c hc => of_decide_eq_true (List.all_eq_true.mp h c hc)⟩
  rw [hpads]
  exact spells_pads _

theorem Spells.group {a b c d : Char} {rest : List Char} {count : Nat} (h : Spells rest count) (ha : IsDigit a)
    (hb : IsDigit b) (hc : IsDigit c) (hd : IsDigit d) : Spells (a :: b :: c :: d :: rest) (count + 3) := by
  obtain ⟨digits, pads, rfl, hdigits, hfits⟩ := h
  refine ⟨a :: b :: c :: d :: digits, pads, rfl, by simp_all, ?_⟩
  unfold Fits at hfits ⊢
  simp only [List.length_cons]
  omega

theorem Spells.dot_not_mem {s : List Char} {count : Nat} (h : Spells s count) : '.' ∉ s := by
  obtain ⟨digits, pads, rfl, hdigits, -⟩ := h
  intro hdot
  rcases List.mem_append.mp hdot with hdot | hdot
  · exact not_isDigit_dot (hdigits _ hdot)
  · exact absurd (List.eq_of_mem_replicate hdot) (by decide)

/-- Base64 for some bytes begins with a digit. -/
theorem Spells.head? {s : List Char} {count : Nat} (h : Spells s count) (hcount : 0 < count) :
    ∃ c, s.head? = some c ∧ IsDigit c := by
  obtain ⟨digits, pads, rfl, hdigits, hlength, -⟩ := h
  cases digits with
  | nil =>
    simp only [List.length_nil] at hlength
    omega
  | cons c rest => exact ⟨c, rfl, hdigits c List.mem_cons_self⟩

/-! ### Reading base64 -/

/-- What is read from a group that does not begin with padding. -/
theorem decodeGroups?_group {a b c d : Char} {rest : List Char} {bytes : List UInt8} (ha : a ≠ '=')
    (h : decodeGroups? (a :: b :: c :: d :: rest) = some bytes) :
    ∃ v w, value? a = some v ∧ value? b = some w ∧
      (c = '=' ∧ d = '=' ∧ rest = [] ∧ bytes = [.ofNat (v * 4 + w / 16)] ∨
        ∃ x, value? c = some x ∧
          (d = '=' ∧ rest = [] ∧ bytes = [.ofNat (v * 4 + w / 16), .ofNat (w % 16 * 16 + x / 4)] ∨
            ∃ y more, value? d = some y ∧ decodeGroups? rest = some more ∧
              bytes = .ofNat (v * 4 + w / 16) :: .ofNat (w % 16 * 16 + x / 4) :: .ofNat (x % 4 * 64 + y) :: more)) := by
  rw [decodeGroups?, if_neg ha] at h
  obtain ⟨v, hv, h⟩ := Option.bind_eq_some_iff.mp h
  obtain ⟨w, hw, h⟩ := Option.bind_eq_some_iff.mp h
  refine ⟨v, w, hv, hw, ?_⟩
  by_cases hc : c = '='
  · simp only [hc, if_true, Option.ite_none_right_eq_some, Option.some.injEq] at h
    obtain ⟨⟨hd, hrest⟩, rfl⟩ := h
    exact .inl ⟨hc, hd, hrest, rfl⟩
  · simp only [hc, if_false] at h
    obtain ⟨x, hx, h⟩ := Option.bind_eq_some_iff.mp h
    refine .inr ⟨x, hx, ?_⟩
    by_cases hd : d = '='
    · simp only [hd, if_true, Option.ite_none_right_eq_some, Option.some.injEq] at h
      obtain ⟨hrest, rfl⟩ := h
      exact .inl ⟨hd, hrest, rfl⟩
    · simp only [hd, if_false] at h
      obtain ⟨y, hy, h⟩ := Option.bind_eq_some_iff.mp h
      obtain ⟨more, hmore, h⟩ := Option.bind_eq_some_iff.mp h
      obtain rfl := Option.some.inj h
      exact .inr ⟨y, more, hy, hmore, rfl⟩

/-- What is read as so many bytes is base64 for as many. -/
theorem spells_of_decodeGroups? {s : List Char} {bytes : List UInt8} (h : decodeGroups? s = some bytes) :
    Spells s bytes.length := by
  fun_induction decodeGroups? s generalizing bytes with
  | case1 => cases h; exact spells_pads 0
  | case2 b c d rest hpads => cases h; exact spells_of_pads (by simpa using hpads)
  | case4 a b c d rest ha ih =>
    have hgroup : decodeGroups? (a :: b :: c :: d :: rest) = some bytes := by
      rw [decodeGroups?, if_neg ha]
      exact h
    obtain ⟨v, w, hv, hw, hlast⟩ := decodeGroups?_group ha hgroup
    have hda : IsDigit a := isDigit_iff.mpr ⟨v, hv⟩
    have hdb : IsDigit b := isDigit_iff.mpr ⟨w, hw⟩
    rcases hlast with ⟨rfl, rfl, rfl, rfl⟩ | ⟨x, hx, hlast⟩
    · exact ⟨[a, b], 2, rfl, by simp [hda, hdb], by simp [Fits]⟩
    have hdc : IsDigit c := isDigit_iff.mpr ⟨x, hx⟩
    rcases hlast with ⟨rfl, rfl, rfl⟩ | ⟨y, more, hy, hmore, rfl⟩
    · exact ⟨[a, b, c], 1, rfl, by simp [hda, hdb, hdc], by simp [Fits]⟩
    · exact (ih hmore).group hda hdb hdc (isDigit_iff.mpr ⟨y, hy⟩)
  | case5 few _ _ hpads => cases h; exact spells_of_pads hpads
  | _ => cases h

theorem decodeGroups?_pads (pads : Nat) : decodeGroups? (List.replicate pads '=') = some [] := by
  match pads with
  | 0 | 1 | 2 | 3 => rfl
  | pads + 4 => simp [List.replicate_succ, decodeGroups?]

/-- Base64 for so many bytes is read as so many bytes. -/
theorem decodeGroups?_of_spells {s : List Char} {count : Nat} (h : Spells s count) :
    ∃ bytes, decodeGroups? s = some bytes ∧ bytes.length = count := by
  obtain ⟨digits, pads, rfl, hdigits, hlength, hpads⟩ := h
  -- Every group of four digits takes three bytes off.
  induction count using Nat.strongRecOn generalizing digits with
  | _ count ih =>
    match digits with
    | [] =>
      have hcount : count = 0 := by simp at hlength; omega
      exact ⟨[], decodeGroups?_pads pads, hcount.symm⟩
    | [a] => simp at hlength; omega
    | [a, b] =>
      obtain ⟨rfl, rfl⟩ : count = 1 ∧ pads = 2 := by simp at hlength; omega
      obtain ⟨ha, v, hv⟩ := value?_of_isDigit (hdigits a (by simp))
      obtain ⟨-, w, hw⟩ := value?_of_isDigit (hdigits b (by simp))
      refine ⟨[.ofNat (v * 4 + w / 16)], ?_, rfl⟩
      simp only [List.replicate, List.cons_append, List.nil_append]
      rw [decodeGroups?, if_neg ha, hv, hw]
      rfl
    | [a, b, c] =>
      obtain ⟨rfl, rfl⟩ : count = 2 ∧ pads = 1 := by simp at hlength; omega
      obtain ⟨ha, v, hv⟩ := value?_of_isDigit (hdigits a (by simp))
      obtain ⟨-, w, hw⟩ := value?_of_isDigit (hdigits b (by simp))
      obtain ⟨hc, x, hx⟩ := value?_of_isDigit (hdigits c (by simp))
      refine ⟨[.ofNat (v * 4 + w / 16), .ofNat (w % 16 * 16 + x / 4)], ?_, rfl⟩
      simp only [List.replicate, List.cons_append, List.nil_append]
      rw [decodeGroups?, if_neg ha, hv, hw, hx]
      simp only [if_neg hc]
      rfl
    | a :: b :: c :: d :: rest =>
      obtain ⟨ha, v, hv⟩ := value?_of_isDigit (hdigits a (by simp))
      obtain ⟨-, w, hw⟩ := value?_of_isDigit (hdigits b (by simp))
      obtain ⟨hc, x, hx⟩ := value?_of_isDigit (hdigits c (by simp))
      obtain ⟨hd, y, hy⟩ := value?_of_isDigit (hdigits d (by simp))
      simp only [List.length_cons] at hlength
      obtain ⟨more, hmore, hcount⟩ := ih (count - 3) (by omega) rest (fun ch hch => hdigits ch (by simp [hch]))
        (by omega) (by omega)
      refine ⟨.ofNat (v * 4 + w / 16) :: .ofNat (w % 16 * 16 + x / 4) :: .ofNat (x % 4 * 64 + y) :: more, ?_, ?_⟩
      · simp only [List.cons_append]
        rw [decodeGroups?, if_neg ha, hv, hw, hx, hy, hmore]
        simp only [if_neg hc, if_neg hd]
        rfl
      · simp only [List.length_cons]
        omega

theorem decode?_of_spells {s : List Char} {count : Nat} (h : Spells s count) (hcount : 0 < count) :
    s ≠ [] ∧ ∃ bytes, decode? s = some bytes ∧ bytes.length = count := by
  obtain ⟨c, hhead, hdigit⟩ := h.head? hcount
  have hpad : ¬s.head? = some '=' := by
    rw [hhead, Option.some.injEq]
    exact (value?_of_isDigit hdigit).1
  refine ⟨fun hnil => ?_, ?_⟩
  · rw [hnil] at hhead
    cases hhead
  · rw [decode?, if_neg hpad]
    exact decodeGroups?_of_spells h

theorem spells_of_decode? {s : List Char} {bytes : List UInt8} (hs : s ≠ []) (h : decode? s = some bytes) :
    Spells s bytes.length ∧ 0 < bytes.length := by
  unfold decode? at h
  split_ifs at h with hpad
  have hspells := spells_of_decodeGroups? h
  refine ⟨hspells, Nat.pos_of_ne_zero fun hnone => ?_⟩
  -- Base64 for no byte is padding alone, and a segment does not begin with padding.
  obtain ⟨digits, pads, rfl, -, hlength, -⟩ := hspells
  obtain rfl : digits = [] := List.eq_nil_of_length_eq_zero (by omega)
  cases pads with
  | zero => exact hs rfl
  | succ pads => exact hpad rfl

end Base64

namespace Cipher

/-! ### Reading tokens -/

/-- The text consists of three segments of base64 with dots between them: a nonce of twelve bytes, a tag of
sixteen, and at least one byte. -/
def IsToken (token : String) : Prop :=
  ∃ nonce tag bytes count, token.toList = nonce ++ '.' :: (tag ++ '.' :: bytes) ∧ Base64.Spells nonce 12 ∧
    Base64.Spells tag 16 ∧ Base64.Spells bytes count ∧ 0 < count

variable {cipher : Cipher} {token secret : String} {s : Gcm.Sealed} {now : Instant}

theorem splitChars_three {mark : Char} {a b c : List Char} (ha : mark ∉ a) (hb : mark ∉ b) (hc : mark ∉ c) :
    Text.splitChars mark (a ++ mark :: (b ++ mark :: c)) = [a, b, c] := by
  rw [Text.splitChars_append, Text.splitChars_append, Text.splitChars_of_not_mem ha,
    Text.splitChars_of_not_mem hb, Text.splitChars_of_not_mem hc]
  rfl

theorem toList_of_segments {a b c : List Char} (h : Text.splitChars '.' token.toList = [a, b, c]) :
    token.toList = a ++ '.' :: (b ++ '.' :: c) := by
  have hparts := Text.intercalate_splitChars '.' token.toList
  rw [h] at hparts
  rw [← hparts]
  simp [List.intercalate]

theorem readToken_eq_ok_iff :
    readToken token = .ok s ↔ Holds token s ∧ s.nonce.length = 12 ∧ s.tag.length = 16 := by
  constructor
  · intro h
    unfold readToken at h
    split at h
    · rename_i a b c hsplit
      split_ifs at h with hempty
      simp only [Bool.or_eq_true, List.isEmpty_iff, not_or] at hempty
      obtain ⟨⟨ha, hb⟩, hc⟩ := hempty
      split at h
      · rename_i nonce tag bytes hnonce htag hbytes
        split_ifs at h with hlengths
        obtain rfl := Except.ok.inj h
        exact ⟨⟨a, b, c, hsplit, ha, hb, hc, hnonce, htag, hbytes⟩, hlengths.1, hlengths.2⟩
      · cases h
    · cases h
  · rintro ⟨hholds, hnonce, htag⟩
    exact readToken_of_holds hholds hnonce htag

theorem isToken_iff : IsToken token ↔ ∃ s, readToken token = .ok s := by
  constructor
  · rintro ⟨a, b, c, count, hparts, ha, hb, hc, hcount⟩
    have hsplit := splitChars_three ha.dot_not_mem hb.dot_not_mem hc.dot_not_mem
    rw [← hparts] at hsplit
    obtain ⟨hanil, nonce, hnonce, hnonce12⟩ := Base64.decode?_of_spells ha (by decide)
    obtain ⟨hbnil, tag, htag, htag16⟩ := Base64.decode?_of_spells hb (by decide)
    obtain ⟨hcnil, bytes, hbytes, -⟩ := Base64.decode?_of_spells hc hcount
    exact ⟨⟨nonce, tag, bytes⟩, readToken_eq_ok_iff.mpr
      ⟨⟨a, b, c, hsplit, hanil, hbnil, hcnil, hnonce, htag, hbytes⟩, hnonce12, htag16⟩⟩
  · rintro ⟨s, hread⟩
    obtain ⟨⟨a, b, c, hsplit, ha, hb, hc, hnonce, htag, hbytes⟩, hnonce12, htag16⟩ := readToken_eq_ok_iff.mp hread
    obtain ⟨hanonce, -⟩ := Base64.spells_of_decode? ha hnonce
    obtain ⟨hbtag, -⟩ := Base64.spells_of_decode? hb htag
    obtain ⟨hcbytes, hcount⟩ := Base64.spells_of_decode? hc hbytes
    exact ⟨a, b, c, s.bytes.length, toList_of_segments hsplit, hnonce12 ▸ hanonce, htag16 ▸ hbtag, hcbytes, hcount⟩

/-! ### How opening ends -/

/-- The tag of the token is the one of its bytes, and this is what the bytes hide. -/
def Hides (cipher : Cipher) (token : String) (hidden : List UInt8) : Prop :=
  ∃ s, Holds token s ∧ s.tag = Gcm.tag cipher.block s.nonce s.bytes ∧ hidden = Gcm.crypt cipher.block s.nonce s.bytes

/-- The operation ends in a failure of the kind. -/
def FailsAs {α : Type} (kind : FailureKind) (o : Outcome α) : Prop := ∃ f, o = .error (.failure f) ∧ f.kind = kind

theorem holds_inj {s' : Gcm.Sealed} (h : Holds token s) (h' : Holds token s') : s = s' := by
  obtain ⟨a, b, c, hsplit, -, -, -, hnonce, htag, hbytes⟩ := h
  obtain ⟨a', b', c', hsplit', -, -, -, hnonce', htag', hbytes'⟩ := h'
  obtain ⟨rfl, rfl, rfl⟩ : a = a' ∧ b = b' ∧ c = c' := by simpa using hsplit.symm.trans hsplit'
  obtain ⟨nonce, tag, bytes⟩ := s
  obtain ⟨nonce', tag', bytes'⟩ := s'
  simp only at hnonce htag hbytes hnonce' htag' hbytes'
  rw [hnonce, Option.some.injEq] at hnonce'
  rw [htag, Option.some.injEq] at htag'
  rw [hbytes, Option.some.injEq] at hbytes'
  rw [hnonce', htag', hbytes']

theorem readSecret_eq_ok_iff {bytes : List UInt8} : readSecret bytes = .ok secret ↔ Text.utf8 secret = bytes := by
  constructor
  · intro h
    unfold readSecret at h
    split at h
    · rename_i chars hchars
      obtain rfl := Except.ok.inj h
      rw [Text.utf8, String.toList_ofList]
      exact Text.Utf8.encode_of_decode hchars
    · cases h
  · rintro rfl
    exact readSecret_utf8 secret

theorem readSecret_error {bytes : List UInt8} (h : ∀ secret, Text.utf8 secret ≠ bytes) :
    ∃ byte first last reason, readSecret bytes = .error (.undecodable byte first last reason) := by
  cases hread : readSecret bytes with
  | ok secret => exact absurd (readSecret_eq_ok_iff.mp hread) (h secret)
  | error fault =>
    unfold readSecret at hread
    split at hread
    · cases hread
    · cases hread
      exact ⟨_, _, _, _, rfl⟩

/-- The four ways in which the opening of a text ends. -/
inductive Opening (cipher : Cipher) (token : String) : Outcome String → Prop
  | malformed {f : Failure} (unread : ¬IsToken token) (kind : f.kind = .invalidCiphertextFormat) :
      Opening cipher token (.error (.failure f))
  | forged {f : Failure} (read : IsToken token) (hidesNothing : ∀ hidden, ¬Hides cipher token hidden)
      (kind : f.kind = .authenticationFailed) : Opening cipher token (.error (.failure f))
  | opened {secret : String} (read : IsToken token) (hides : Hides cipher token (Text.utf8 secret)) :
      Opening cipher token (.ok secret)
  | illegible {hidden : List UInt8} {byte first last : Nat} {reason : String} (read : IsToken token)
      (hides : Hides cipher token hidden) (noText : ∀ secret, Text.utf8 secret ≠ hidden) :
      Opening cipher token (.error (.undecodable byte first last reason))

theorem decrypt_opening (cipher : Cipher) (token : String) (now : Instant) :
    Opening cipher token (cipher.decrypt token now) := by
  unfold decrypt
  cases hread : readToken token with
  | error m =>
    refine .malformed (fun htoken => ?_) rfl
    obtain ⟨s, hs⟩ := isToken_iff.mp htoken
    rw [hread] at hs
    cases hs
  | ok s =>
    have htoken : IsToken token := isToken_iff.mpr ⟨s, hread⟩
    have hholds : Holds token s := (readToken_eq_ok_iff.mp hread).1
    by_cases htag : Gcm.tag cipher.block s.nonce s.bytes = s.tag
    · have hhides : Hides cipher token (Gcm.crypt cipher.block s.nonce s.bytes) := ⟨s, hholds, htag.symm, rfl⟩
      simp only [Gcm.decrypt?, htag, if_true]
      by_cases htext : ∃ secret, Text.utf8 secret = Gcm.crypt cipher.block s.nonce s.bytes
      · obtain ⟨secret, hsecret⟩ := htext
        rw [readSecret_eq_ok_iff.mpr hsecret]
        exact .opened htoken (hsecret ▸ hhides)
      · obtain ⟨byte, first, last, reason, herror⟩ := readSecret_error fun secret heq => htext ⟨secret, heq⟩
        rw [herror]
        exact .illegible htoken hhides fun secret heq => htext ⟨secret, heq⟩
    · simp only [Gcm.decrypt?, htag, if_false]
      refine .forged htoken (fun hidden hhides => ?_) rfl
      obtain ⟨s', hholds', htag', -⟩ := hhides
      obtain rfl := holds_inj hholds hholds'
      exact htag htag'.symm

theorem hides_inj {hidden hidden' : List UInt8} (h : Hides cipher token hidden) (h' : Hides cipher token hidden') :
    hidden = hidden' := by
  obtain ⟨s, hholds, -, rfl⟩ := h
  obtain ⟨s', hholds', -, rfl⟩ := h'
  rw [holds_inj hholds hholds']

theorem utf8_inj {a b : String} (h : Text.utf8 a = Text.utf8 b) : a = b := by
  have hread := readSecret_utf8 a
  rw [h, readSecret_utf8 b] at hread
  exact (Except.ok.inj hread).symm

/-- Under every key, each text is opened or refused in one of four ways: as no token, as a token with a tag that is
not the one of its bytes, as a genuine one, and as a genuine one with bytes that are no text. The last ends in a
fault that is no failure of the cipher. -/
theorem decrypt_endings (cipher : Cipher) (token : String) (now : Instant) :
    let o := cipher.decrypt token now
    (FailsAs .invalidCiphertextFormat o ↔ ¬IsToken token) ∧
    (FailsAs .authenticationFailed o ↔ IsToken token ∧ ¬∃ hidden, Hides cipher token hidden) ∧
    (∀ secret, o = .ok secret ↔ IsToken token ∧ Hides cipher token (Text.utf8 secret)) ∧
    ((∃ byte first last reason, o = .error (.undecodable byte first last reason)) ↔
      IsToken token ∧ ∃ hidden, Hides cipher token hidden ∧ ∀ secret, Text.utf8 secret ≠ hidden) ∧
    ∀ fault, o = .error fault → FailsAs .invalidCiphertextFormat o ∨ FailsAs .authenticationFailed o ∨
      ∃ byte first last reason, fault = .undecodable byte first last reason := by
  intro o
  have hopening : Opening cipher token o := decrypt_opening cipher token now
  clear_value o
  cases hopening with
  | malformed unread kind => simp [FailsAs, unread, kind]
  | forged read hidesNothing kind => simp [FailsAs, read, hidesNothing, kind]
  | @opened secret read hides =>
    refine ⟨iff_of_false (by simp [FailsAs]) (not_not_intro read),
      iff_of_false (by simp [FailsAs]) fun h => h.2 ⟨_, hides⟩, fun other => ?_, iff_of_false (by simp) ?_,
      fun _ h => by cases h⟩
    · rw [Except.ok.injEq]
      exact ⟨fun h => ⟨read, h ▸ hides⟩, fun h => utf8_inj (hides_inj hides h.2)⟩
    · rintro ⟨-, hidden, hhidden, hnoText⟩
      exact hnoText secret (hides_inj hides hhidden)
  | @illegible hidden byte first last reason read hides noText =>
    exact ⟨iff_of_false (by simp [FailsAs]) (not_not_intro read),
      iff_of_false (by simp [FailsAs]) fun h => h.2 ⟨_, hides⟩,
      fun other => iff_of_false (by simp) fun h => noText other (hides_inj h.2 hides),
      iff_of_true ⟨_, _, _, _, rfl⟩ ⟨read, hidden, hides, noText⟩,
      fun _ h => .inr (.inr ⟨_, _, _, _, (Except.error.inj h).symm⟩)⟩

/-- Bytes of any kind can be sealed. The token hides them, and opening it is reading them as a text. -/
theorem sealed_hides (cipher : Cipher) {nonce data : List UInt8} (hnonce : nonce.length = 12) (hdata : data ≠ []) :
    let token := writeToken (Gcm.encrypt cipher.block nonce data)
    IsToken token ∧ Hides cipher token data ∧ ∀ now, cipher.decrypt token now = readSecret data := by
  intro token
  have hsealed : Gcm.crypt cipher.block nonce data ≠ [] := fun hnil => by
    have hlength := Gcm.length_crypt cipher.block nonce data
    rw [hnil] at hlength
    exact hdata (List.eq_nil_of_length_eq_zero hlength.symm)
  have hholds : Holds token (Gcm.encrypt cipher.block nonce data) :=
    writeToken_holds (List.ne_nil_of_length_eq_add_one hnonce)
      (List.ne_nil_of_length_eq_add_one (length_toBytes Gcm.tagSize _)) hsealed
  have hread := readToken_of_holds hholds hnonce (length_toBytes Gcm.tagSize _)
  refine ⟨isToken_iff.mpr ⟨_, hread⟩, ⟨_, hholds, rfl, (Gcm.crypt_crypt ..).symm⟩, fun now => ?_⟩
  rw [decrypt, hread]
  simp only [Gcm.decrypt?_encrypt]

/-- Three segments of base64 with a genuine tag are not enough: if the one byte that is sealed is no text, opening
the token ends neither with a text nor in a failure of the cipher. -/
theorem illegible_token_fault :
    let cipher := Integration.liveService.cipher
    let token := writeToken (Gcm.encrypt cipher.block (List.replicate 11 0 ++ [1]) [0xFF])
    IsToken token ∧ Hides cipher token [0xFF] ∧
      cipher.decrypt token Integration.firstWorld.now = .error (.undecodable 0xFF 0 0 "invalid start byte") := by
  intro cipher token
  have hnonce : (List.replicate 11 0 ++ [1] : List UInt8).length = 12 := rfl
  obtain ⟨htoken, hhides, hread⟩ := sealed_hides cipher hnonce (List.cons_ne_nil 0xFF [])
  exact ⟨htoken, hhides, hread _⟩

end Cipher

end Secret

end Cadence
