import Cadence.Proofs.TextBytes
import Cadence.Secret.Cipher

/-!
# Sealed secrets are opened again

A token is written in an alphabet without dots, so its three segments are found again, and each of them is
read back to the bytes it was written from. Sealing adds the key stream of the nonce, and opening adds it
once more; the tag is computed from the sealed bytes alone, so it is the one that opening expects.
-/

namespace Cadence

namespace Secret

namespace Base64

open Text.Utf8 (byte_of_toNat)

theorem value?_digit : ∀ n < 64, value? (digit n) = some n := by decide

theorem digit_ne_pad : ∀ n < 64, digit n ≠ '=' := by decide

theorem digit_ne_dot : ∀ n < 64, digit n ≠ '.' := by decide

theorem decodeGroups?_one {v w : Nat} (hv : v < 64) (hw : w < 64) :
    decodeGroups? [digit v, digit w, '=', '='] = some [.ofNat (v * 4 + w / 16)] := by
  rw [decodeGroups?, if_neg (digit_ne_pad v hv), value?_digit v hv, value?_digit w hw]
  rfl

theorem decodeGroups?_two {v w x : Nat} (hv : v < 64) (hw : w < 64) (hx : x < 64) :
    decodeGroups? [digit v, digit w, digit x, '='] =
      some [.ofNat (v * 4 + w / 16), .ofNat (w % 16 * 16 + x / 4)] := by
  rw [decodeGroups?, if_neg (digit_ne_pad v hv), value?_digit v hv, value?_digit w hw,
    value?_digit x hx]
  simp only [if_neg (digit_ne_pad x hx)]
  rfl

theorem decodeGroups?_three {v w x y : Nat} (hv : v < 64) (hw : w < 64) (hx : x < 64) (hy : y < 64)
    {rest : List Char} {more : List UInt8} (hrest : decodeGroups? rest = some more) :
    decodeGroups? (digit v :: digit w :: digit x :: digit y :: rest) =
      some (.ofNat (v * 4 + w / 16) :: .ofNat (w % 16 * 16 + x / 4) :: .ofNat (x % 4 * 64 + y) :: more) := by
  rw [decodeGroups?, if_neg (digit_ne_pad v hv), value?_digit v hv, value?_digit w hw,
    value?_digit x hx, value?_digit y hy, hrest]
  simp only [if_neg (digit_ne_pad x hx), if_neg (digit_ne_pad y hy)]
  rfl

theorem decodeGroups?_encode (bytes : List UInt8) : decodeGroups? (encode bytes) = some bytes := by
  induction bytes using encode.induct with
  | case1 => rfl
  | case2 a =>
    have ha := a.toNat_lt
    rw [encode, decodeGroups?_one (by omega) (by omega), byte_of_toNat (b := a) (by omega)]
  | case3 a b =>
    have ha := a.toNat_lt
    have hb := b.toNat_lt
    rw [encode, decodeGroups?_two (by omega) (by omega) (by omega), byte_of_toNat (b := a) (by omega),
      byte_of_toNat (b := b) (by omega)]
  | case4 a b c rest ih =>
    have ha := a.toNat_lt
    have hb := b.toNat_lt
    have hc := c.toNat_lt
    rw [encode, decodeGroups?_three (by omega) (by omega) (by omega) (by omega) ih,
      byte_of_toNat (b := a) (by omega), byte_of_toNat (b := b) (by omega), byte_of_toNat (b := c) (by omega)]

theorem head?_encode_ne_pad (bytes : List UInt8) : (encode bytes).head? ≠ some '=' := by
  have hfirst (a : UInt8) : some (digit (a.toNat / 4)) ≠ some '=' := by
    have ha := a.toNat_lt
    rw [ne_eq, Option.some.injEq]
    exact digit_ne_pad _ (by omega)
  cases bytes using encode.induct with
  | case1 => simp [encode]
  | case2 a => exact hfirst a
  | case3 a b => exact hfirst a
  | case4 a b c rest => exact hfirst a

theorem decode?_encode (bytes : List UInt8) : decode? (encode bytes) = some bytes := by
  rw [decode?, if_neg (head?_encode_ne_pad bytes), decodeGroups?_encode]

theorem dot_not_mem_encode (bytes : List UInt8) : '.' ∉ encode bytes := by
  induction bytes using encode.induct with
  | case1 => exact List.not_mem_nil
  | case2 a =>
    have ha := a.toNat_lt
    simp only [encode, List.mem_cons, List.not_mem_nil, or_false, not_or]
    exact ⟨(digit_ne_dot _ (by omega)).symm, (digit_ne_dot _ (by omega)).symm, by decide, by decide⟩
  | case3 a b =>
    have ha := a.toNat_lt
    have hb := b.toNat_lt
    simp only [encode, List.mem_cons, List.not_mem_nil, or_false, not_or]
    exact ⟨(digit_ne_dot _ (by omega)).symm, (digit_ne_dot _ (by omega)).symm,
      (digit_ne_dot _ (by omega)).symm, by decide⟩
  | case4 a b c rest ih =>
    have ha := a.toNat_lt
    have hb := b.toNat_lt
    have hc := c.toNat_lt
    simp only [encode, List.mem_cons, not_or]
    exact ⟨(digit_ne_dot _ (by omega)).symm, (digit_ne_dot _ (by omega)).symm,
      (digit_ne_dot _ (by omega)).symm, (digit_ne_dot _ (by omega)).symm, ih⟩

theorem encode_ne_nil {bytes : List UInt8} (h : bytes ≠ []) : encode bytes ≠ [] := by
  cases bytes using encode.induct with
  | case1 => exact absurd rfl h
  | _ => exact List.cons_ne_nil _ _

end Base64

namespace Gcm

theorem length_keyStream (cipher : BlockCipher) (nonce : List UInt8) (length : Nat) :
    (keyStream cipher nonce length).length = (length + 15) / 16 * 16 := by
  rw [keyStream, List.length_flatMap]
  simp only [length_toBytes, List.map_const', List.length_range, List.sum_replicate_nat]

theorem xorBytes_xorBytes {data stream : List UInt8} (h : data.length ≤ stream.length) :
    xorBytes (xorBytes data stream) stream = data := by
  induction data generalizing stream with
  | nil => rfl
  | cons a rest ih =>
    cases stream with
    | nil => cases h
    | cons k stream =>
      have hrest := ih (Nat.le_of_succ_le_succ h)
      show ((a ^^^ k) ^^^ k) :: xorBytes (xorBytes rest stream) stream = a :: rest
      rw [hrest, UInt8.xor_assoc, UInt8.xor_self, UInt8.xor_zero]

theorem length_crypt (cipher : BlockCipher) (nonce data : List UInt8) :
    (crypt cipher nonce data).length = data.length := by
  rw [crypt, xorBytes, List.length_zipWith, length_keyStream]
  omega

/-- Sealing and opening are one function. -/
theorem crypt_crypt (cipher : BlockCipher) (nonce data : List UInt8) :
    crypt cipher nonce (crypt cipher nonce data) = data := by
  have hlong : data.length ≤ (keyStream cipher nonce data.length).length := by
    rw [length_keyStream]
    omega
  show xorBytes (crypt cipher nonce data) (keyStream cipher nonce (crypt cipher nonce data).length) = data
  rw [length_crypt]
  exact xorBytes_xorBytes hlong

theorem decrypt?_encrypt (cipher : BlockCipher) (nonce data : List UInt8) :
    decrypt? cipher (encrypt cipher nonce data) = some data := by
  show (if tag cipher nonce (crypt cipher nonce data) = tag cipher nonce (crypt cipher nonce data) then
    some (crypt cipher nonce (crypt cipher nonce data)) else none) = some data
  rw [if_pos rfl, crypt_crypt]

end Gcm

namespace Cipher

/-- A token consists of three segments, none of them empty, that hold the parts of a sealed secret. -/
def Holds (token : String) (s : Gcm.Sealed) : Prop :=
  ∃ a b c, Text.splitChars '.' token.toList = [a, b, c] ∧ a ≠ [] ∧ b ≠ [] ∧ c ≠ [] ∧
    Base64.decode? a = some s.nonce ∧ Base64.decode? b = some s.tag ∧ Base64.decode? c = some s.bytes

theorem splitChars_writeToken (s : Gcm.Sealed) : Text.splitChars '.' (writeToken s).toList =
    [Base64.encode s.nonce, Base64.encode s.tag, Base64.encode s.bytes] := by
  have hplain (bytes : List UInt8) := Text.splitChars_of_not_mem (Base64.dot_not_mem_encode bytes)
  rw [writeToken, String.toList_ofList, List.append_assoc, List.cons_append, Text.splitChars_append,
    Text.splitChars_append, hplain, hplain, hplain]
  rfl

theorem writeToken_holds {s : Gcm.Sealed} (hnonce : s.nonce ≠ []) (htag : s.tag ≠ [])
    (hbytes : s.bytes ≠ []) : Holds (writeToken s) s :=
  ⟨_, _, _, splitChars_writeToken s, Base64.encode_ne_nil hnonce, Base64.encode_ne_nil htag,
    Base64.encode_ne_nil hbytes, Base64.decode?_encode _, Base64.decode?_encode _, Base64.decode?_encode _⟩

theorem readToken_of_holds {token : String} {s : Gcm.Sealed} (h : Holds token s)
    (hnonce : s.nonce.length = Gcm.nonceSize) (htag : s.tag.length = Gcm.tagSize) :
    readToken token = .ok s := by
  obtain ⟨a, b, c, hsplit, ha, hb, hc, hanonce, hbtag, hcbytes⟩ := h
  have hgiven : (a.isEmpty || b.isEmpty || c.isEmpty) = false := by
    simp only [List.isEmpty_eq_false_iff.mpr ha, List.isEmpty_eq_false_iff.mpr hb,
      List.isEmpty_eq_false_iff.mpr hc, Bool.or_self]
  rw [readToken, hsplit]
  simp only [hgiven, hanonce, hbtag, hcbytes, hnonce, htag]
  rfl

variable {cipher : Cipher} {nonce : List UInt8} {secret : String}

theorem utf8_ne_nil (h : secret ≠ "") : Text.utf8 secret ≠ [] :=
  Text.Utf8.encode_ne_nil fun hnil => h (String.toList_eq_nil_iff.mp hnil)

/-- The token of a secret, if it is not empty. -/
def tokenOf (cipher : Cipher) (nonce : List UInt8) (secret : String) : String :=
  writeToken (Gcm.encrypt cipher.block nonce (Text.utf8 secret))

theorem encrypt_eq_ok (hsecret : secret ≠ "") (now : Instant) :
    cipher.encrypt nonce secret now = .ok (cipher.tokenOf nonce secret) := if_neg hsecret

theorem tokenOf_holds (cipher : Cipher) (hnonce : nonce.length = Gcm.nonceSize) (hsecret : secret ≠ "") :
    Holds (cipher.tokenOf nonce secret) (Gcm.encrypt cipher.block nonce (Text.utf8 secret)) := by
  refine writeToken_holds (List.ne_nil_of_length_eq_add_one hnonce)
    (List.ne_nil_of_length_eq_add_one (length_toBytes Gcm.tagSize _)) fun hnil => ?_
  have hlength := Gcm.length_crypt cipher.block nonce (Text.utf8 secret)
  rw [show Gcm.crypt cipher.block nonce (Text.utf8 secret) = [] from hnil] at hlength
  exact utf8_ne_nil hsecret (List.eq_nil_of_length_eq_zero hlength.symm)

theorem readSecret_utf8 (s : String) : readSecret (Text.utf8 s) = .ok s := by
  rw [readSecret, Text.utf8, Text.Utf8.decode_encode]
  exact congrArg Except.ok (String.ofList_toList)

/-- A secret that was sealed is opened to what it was, at any time. -/
theorem decrypt_tokenOf (cipher : Cipher) (hnonce : nonce.length = Gcm.nonceSize) (hsecret : secret ≠ "")
    (now : Instant) : cipher.decrypt (cipher.tokenOf nonce secret) now = .ok secret := by
  have hread := readToken_of_holds (tokenOf_holds cipher hnonce hsecret) hnonce
    (length_toBytes Gcm.tagSize _)
  rw [decrypt, hread]
  simp only [Gcm.decrypt?_encrypt]
  exact readSecret_utf8 secret

/-- Under every key material and nonce, a secret that is not empty is sealed as a token of three segments:
the nonce, a tag of sixteen bytes, and as many bytes as the text has. The same key material opens the token
to the secret. -/
theorem sealed_and_opened (material : String) (nonce : List UInt8) (secret : String)
    (hnonce : nonce.length = 12) (hsecret : secret ≠ "") :
    ∃ cipher, (∀ now, ofKeyMaterial (some material) now = .ok cipher) ∧
      ∃ token s, (∀ now, cipher.encrypt nonce secret now = .ok token) ∧ Holds token s ∧
        s.nonce = nonce ∧ s.tag.length = 16 ∧ s.bytes.length = (Text.utf8 secret).length ∧
        ∀ now, cipher.decrypt token now = .ok secret := by
  refine ⟨⟨Aes.encryptBlock (Aes.roundKeys (Sha256.digest (Text.utf8 material)))⟩, fun _ => rfl, ?_⟩
  exact ⟨_, _, encrypt_eq_ok hsecret, tokenOf_holds _ hnonce hsecret, rfl, length_toBytes Gcm.tagSize _,
    Gcm.length_crypt _ _ _, decrypt_tokenOf _ hnonce hsecret⟩

theorem sealed_and_opened_accented :
    (List.replicate 12 (7 : UInt8)).length = 12 ∧ "clé" ≠ "" ∧
      ∃ cipher, (∀ now, ofKeyMaterial (some "key") now = .ok cipher) ∧
        ∃ token s, (∀ now, cipher.encrypt (List.replicate 12 7) "clé" now = .ok token) ∧ Holds token s ∧
          s.nonce = List.replicate 12 7 ∧ s.tag.length = 16 ∧ s.bytes.length = (Text.utf8 "clé").length ∧
          ∀ now, cipher.decrypt token now = .ok "clé" :=
  ⟨rfl, by decide, sealed_and_opened "key" (List.replicate 12 7) "clé" rfl (by decide)⟩

end Cipher

end Secret

end Cadence
