import Cadence.Failure.Kinds
import Cadence.Fault
import Cadence.Secret.Aes
import Cadence.Secret.Base64
import Cadence.Secret.Gcm
import Cadence.Secret.Sha256
import Cadence.Text.Split
import Cadence.Text.Utf8

/-!
# Sealed secrets

Secrets are sealed with AES-256 in Galois/counter mode under a key that is the SHA-256 digest of any
text. A sealed secret is written as a token of three base64 segments with dots between them: nonce,
tag and sealed bytes.
-/

namespace Cadence.Secret

structure Cipher where
  block : Gcm.BlockCipher

namespace Cipher

/-- The cipher of a key material; none is a failure. -/
def ofKeyMaterial (material : Option String) (now : Instant) : Outcome Cipher :=
  match material with
  | none => .error (.failure
      (.configuration "Encryption key material is required" (some "encryption_key") {} now))
  | some text =>
    let keys := Aes.roundKeys (Sha256.digest (Text.utf8 text))
    .ok ⟨Aes.encryptBlock keys⟩

def writeToken (s : Gcm.Sealed) : String :=
  String.ofList (Base64.encode s.nonce ++ '.' :: Base64.encode s.tag ++ '.' :: Base64.encode s.bytes)

inductive Malformed where
  | segments
  | base64
  | lengths
deriving DecidableEq, Repr

def Malformed.message : Malformed → String
  | segments => "expected iv.tag.ciphertext"
  | base64 => "segments must be base64"
  | lengths => "unexpected nonce or tag length"

def readToken (token : String) : Except Malformed Gcm.Sealed :=
  match Text.splitChars '.' token.toList with
  | [a, b, c] =>
    if a.isEmpty || b.isEmpty || c.isEmpty then .error .segments
    else
      match Base64.decode? a, Base64.decode? b, Base64.decode? c with
      | some nonce, some tag, some bytes =>
        if nonce.length = Gcm.nonceSize ∧ tag.length = Gcm.tagSize then .ok ⟨nonce, tag, bytes⟩
        else .error .lengths
      | _, _, _ => .error .base64
  | _ => .error .segments

/-- The token of a secret sealed under a nonce. An empty secret is a failure. -/
def encrypt (cipher : Cipher) (nonce : List UInt8) (secret : String) (now : Instant) :
    Outcome String :=
  if secret = "" then .error (.failure (.emptySecret now))
  else .ok (writeToken (Gcm.encrypt cipher.block nonce (Text.utf8 secret)))

def readSecret (bytes : List UInt8) : Outcome String :=
  match Text.Utf8.decode bytes with
  | .ok chars => .ok (String.ofList chars)
  | .error m =>
    .error (.undecodable m.byte.toNat m.start (m.start + m.count - 1) m.reason.message)

def decrypt (cipher : Cipher) (token : String) (now : Instant) : Outcome String :=
  match readToken token with
  | .error m => .error (.failure (.invalidCiphertextFormat m.message now))
  | .ok s =>
    match Gcm.decrypt? cipher.block s with
    | none => .error (.failure (.authenticationFailed now))
    | some bytes => readSecret bytes

end Cipher

end Cadence.Secret
