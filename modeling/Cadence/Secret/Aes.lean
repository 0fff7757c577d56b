import Cadence.Secret.Bytes

/-!
# AES-256

The block cipher of FIPS 197 with a key of 32 bytes. Only its forward direction is needed, since the
cipher is used in counter mode.
-/

namespace Cadence.Secret.Aes

def substitution : Array UInt8 := #[
    0x63, 0x7c, 0x77, 0x7b, 0xf2, 0x6b, 0x6f, 0xc5, 0x30, 0x01, 0x67, 0x2b, 0xfe, 0xd7, 0xab, 0x76,
    0xca, 0x82, 0xc9, 0x7d, 0xfa, 0x59, 0x47, 0xf0, 0xad, 0xd4, 0xa2, 0xaf, 0x9c, 0xa4, 0x72, 0xc0,
    0xb7, 0xfd, 0x93, 0x26, 0x36, 0x3f, 0xf7, 0xcc, 0x34, 0xa5, 0xe5, 0xf1, 0x71, 0xd8, 0x31, 0x15,
    0x04, 0xc7, 0x23, 0xc3, 0x18, 0x96, 0x05, 0x9a, 0x07, 0x12, 0x80, 0xe2, 0xeb, 0x27, 0xb2, 0x75,
    0x09, 0x83, 0x2c, 0x1a, 0x1b, 0x6e, 0x5a, 0xa0, 0x52, 0x3b, 0xd6, 0xb3, 0x29, 0xe3, 0x2f, 0x84,
    0x53, 0xd1, 0x00, 0xed, 0x20, 0xfc, 0xb1, 0x5b, 0x6a, 0xcb, 0xbe, 0x39, 0x4a, 0x4c, 0x58, 0xcf,
    0xd0, 0xef, 0xaa, 0xfb, 0x43, 0x4d, 0x33, 0x85, 0x45, 0xf9, 0x02, 0x7f, 0x50, 0x3c, 0x9f, 0xa8,
    0x51, 0xa3, 0x40, 0x8f, 0x92, 0x9d, 0x38, 0xf5, 0xbc, 0xb6, 0xda, 0x21, 0x10, 0xff, 0xf3, 0xd2,
    0xcd, 0x0c, 0x13, 0xec, 0x5f, 0x97, 0x44, 0x17, 0xc4, 0xa7, 0x7e, 0x3d, 0x64, 0x5d, 0x19, 0x73,
    0x60, 0x81, 0x4f, 0xdc, 0x22, 0x2a, 0x90, 0x88, 0x46, 0xee, 0xb8, 0x14, 0xde, 0x5e, 0x0b, 0xdb,
    0xe0, 0x32, 0x3a, 0x0a, 0x49, 0x06, 0x24, 0x5c, 0xc2, 0xd3, 0xac, 0x62, 0x91, 0x95, 0xe4, 0x79,
    0xe7, 0xc8, 0x37, 0x6d, 0x8d, 0xd5, 0x4e, 0xa9, 0x6c, 0x56, 0xf4, 0xea, 0x65, 0x7a, 0xae, 0x08,
    0xba, 0x78, 0x25, 0x2e, 0x1c, 0xa6, 0xb4, 0xc6, 0xe8, 0xdd, 0x74, 0x1f, 0x4b, 0xbd, 0x8b, 0x8a,
    0x70, 0x3e, 0xb5, 0x66, 0x48, 0x03, 0xf6, 0x0e, 0x61, 0x35, 0x57, 0xb9, 0x86, 0xc1, 0x1d, 0x9e,
    0xe1, 0xf8, 0x98, 0x11, 0x69, 0xd9, 0x8e, 0x94, 0x9b, 0x1e, 0x87, 0xe9, 0xce, 0x55, 0x28, 0xdf,
    0x8c, 0xa1, 0x89, 0x0d, 0xbf, 0xe6, 0x42, 0x68, 0x41, 0x99, 0x2d, 0x0f, 0xb0, 0x54, 0xbb, 0x16]

/-- Four bytes: a column of the state, or a word of the key. -/
structure Word where
  a : UInt8
  b : UInt8
  c : UInt8
  d : UInt8
deriving Inhabited

structure State where
  w : Word
  x : Word
  y : Word
  z : Word

def double (b : UInt8) : UInt8 := (b <<< 1) ^^^ (if 0x80 ≤ b then 0x1b else 0)

def substitute (b : UInt8) : UInt8 := substitution.getD b.toNat 0

namespace Word

def add (v w : Word) : Word := ⟨v.a ^^^ w.a, v.b ^^^ w.b, v.c ^^^ w.c, v.d ^^^ w.d⟩

def substitute (v : Word) : Word :=
  ⟨Aes.substitute v.a, Aes.substitute v.b, Aes.substitute v.c, Aes.substitute v.d⟩

def rotate (v : Word) : Word := ⟨v.b, v.c, v.d, v.a⟩

def mix (v : Word) : Word :=
  let all := v.a ^^^ v.b ^^^ v.c ^^^ v.d
  ⟨v.a ^^^ all ^^^ double (v.a ^^^ v.b), v.b ^^^ all ^^^ double (v.b ^^^ v.c),
    v.c ^^^ all ^^^ double (v.c ^^^ v.d), v.d ^^^ all ^^^ double (v.d ^^^ v.a)⟩

end Word

namespace State

def map (f : Word → Word) (s : State) : State := ⟨f s.w, f s.x, f s.y, f s.z⟩

def add (s t : State) : State := ⟨s.w.add t.w, s.x.add t.x, s.y.add t.y, s.z.add t.z⟩

def shiftRows (s : State) : State :=
  ⟨⟨s.w.a, s.x.b, s.y.c, s.z.d⟩, ⟨s.x.a, s.y.b, s.z.c, s.w.d⟩, ⟨s.y.a, s.z.b, s.w.c, s.x.d⟩,
    ⟨s.z.a, s.w.b, s.x.c, s.y.d⟩⟩

def toBytes (s : State) : List UInt8 :=
  [s.w, s.x, s.y, s.z].flatMap fun v => [v.a, v.b, v.c, v.d]

end State

def words : List UInt8 → List Word
  | a :: b :: c :: d :: rest => ⟨a, b, c, d⟩ :: words rest
  | _ => []

def states : List Word → List State
  | w :: x :: y :: z :: rest => ⟨w, x, y, z⟩ :: states rest
  | _ => []

/-- The words of the key and those made from them: `made` holds the words so far, the last one first,
`index` their number and `constant` the next round constant. -/
def expand : Nat → Nat → UInt8 → List Word → List Word
  | 0, _, _, made => made.reverse
  | left + 1, index, constant, made =>
    let last := made.getD 0 default
    let old := made.getD 7 default
    if index % 8 = 0 then
      let v := last.rotate.substitute
      expand left (index + 1) (double constant) (old.add ⟨v.a ^^^ constant, v.b, v.c, v.d⟩ :: made)
    else if index % 8 = 4 then expand left (index + 1) constant (old.add last.substitute :: made)
    else expand left (index + 1) constant (old.add last :: made)

def roundKeys (key : List UInt8) : List State := states (expand 52 8 1 (words key).reverse)

/-- The rounds after the first key was added; the last one does not mix. -/
def rounds : State → List State → State
  | s, [] => s
  | s, [key] => (s.map Word.substitute).shiftRows.add key
  | s, key :: keys => rounds (((s.map Word.substitute).shiftRows.map Word.mix).add key) keys

/-- The image of a block, given as a number of 128 bits, under the cipher with these round keys. -/
def encryptBlock (keys : List State) (block : Nat) : Nat :=
  match states (words (Secret.toBytes 16 block)), keys with
  | [s], key :: keys => ofBytes (rounds (s.add key) keys).toBytes
  | _, _ => 0

end Cadence.Secret.Aes
