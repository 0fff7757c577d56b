import Cadence.Secret.Bytes

/-!
# Galois/counter mode

Authenticated encryption over any block cipher of 128 bits, after NIST SP 800-38D, with nonces of 96
bits and no associated data. Blocks are numbers. Bytes are sealed by adding the key stream of the
nonce; the tag is a polynomial of the sealed bytes, hidden by the key stream's first block.
-/

namespace Cadence.Secret.Gcm

abbrev BlockCipher := Nat → Nat

def nonceSize : Nat := 12
def tagSize : Nat := 16

/-- The `i`-th counter block of a nonce. -/
def counterBlock (nonce : List UInt8) (i : Nat) : Nat := ofBytes nonce * Nat.pow 2 32 + i % Nat.pow 2 32

/-- The first `length` bytes of the key stream, from the second counter block on. -/
def keyStream (cipher : BlockCipher) (nonce : List UInt8) (length : Nat) : List UInt8 :=
  (List.range ((length + 15) / 16)).flatMap fun i => toBytes 16 (cipher (counterBlock nonce (i + 2)))

def crypt (cipher : BlockCipher) (nonce data : List UInt8) : List UInt8 :=
  xorBytes data (keyStream cipher nonce data.length)

/-- The product in the field of 2 ^ 128 elements, whose first bit is the most significant one:
`left` bits of `x` are still to come, and `v` is the multiple of the other factor for the next. -/
def multiplyFrom : Nat → Nat → Nat → Nat → Nat
  | 0, _, _, sum => sum
  | left + 1, x, v, sum =>
    let sum := if x.testBit left then sum ^^^ v else sum
    let v := if v.testBit 0 then (v >>> 1) ^^^ (0xe1 <<< 120) else v >>> 1
    multiplyFrom left x v sum

def multiply (x y : Nat) : Nat := multiplyFrom 128 x y 0

/-- Groups of sixteen bytes as numbers, the last group filled up with zeros. -/
def blocks (bytes : List UInt8) : List Nat :=
  if bytes.isEmpty then []
  else
    let head := bytes.take 16
    ofBytes (head ++ List.replicate (16 - head.length) 0) :: blocks (bytes.drop 16)
termination_by bytes.length
decreasing_by
  simp_all only [List.isEmpty_iff, List.length_drop]
  have := List.length_pos_iff.mpr ‹bytes ≠ []›
  omega

def hash (key : Nat) (sealedBytes : List UInt8) : Nat :=
  (blocks sealedBytes ++ [8 * sealedBytes.length]).foldl (fun y x => multiply (y ^^^ x) key) 0

def tag (cipher : BlockCipher) (nonce sealedBytes : List UInt8) : List UInt8 :=
  toBytes tagSize (hash (cipher 0) sealedBytes ^^^ cipher (counterBlock nonce 1))

structure Sealed where
  nonce : List UInt8
  tag : List UInt8
  bytes : List UInt8
deriving DecidableEq, Repr

def encrypt (cipher : BlockCipher) (nonce data : List UInt8) : Sealed :=
  let bytes := crypt cipher nonce data
  ⟨nonce, tag cipher nonce bytes, bytes⟩

def decrypt? (cipher : BlockCipher) (s : Sealed) : Option (List UInt8) :=
  if tag cipher s.nonce s.bytes = s.tag then some (crypt cipher s.nonce s.bytes) else none

end Cadence.Secret.Gcm
