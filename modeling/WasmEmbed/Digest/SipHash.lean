import WasmEmbed.Bytes
import WasmEmbed.Text.Hex
/-!
SipHash-1-3 with the zero key: one round for each word of eight bytes, three at the end.
-/

namespace WasmEmbed.SipHash

/-- The four words mixed. -/
structure State where
  v0 : UInt64
  v1 : UInt64
  v2 : UInt64
  v3 : UInt64
  deriving DecidableEq, Repr, Inhabited

private def rotate (x : UInt64) (n : UInt64) : UInt64 := (x <<< n) ||| (x >>> (64 - n))

/-- The state before any word. -/
def start : State :=
  ⟨0x736f6d6570736575, 0x646f72616e646f6d, 0x6c7967656e657261, 0x7465646279746573⟩

def round (s : State) : State :=
  let a := s.v0 + s.v1
  let b := rotate s.v1 13 ^^^ a
  let a := rotate a 32
  let c := s.v2 + s.v3
  let d := rotate s.v3 16 ^^^ c
  let a := a + d
  let d := rotate d 21 ^^^ a
  let c := c + b
  let b := rotate b 17 ^^^ c
  ⟨a, b, rotate c 32, d⟩

/-- Mixes in one word. -/
def absorb (s : State) (word : UInt64) : State :=
  let s := round { s with v3 := s.v3 ^^^ word }
  { s with v0 := s.v0 ^^^ word }

/-- Mixes in words of eight bytes; the last word holds the bytes left and, in its highest byte,
`length`. -/
def absorbAll (length : Nat) (s : State) : List UInt8 → State
  | b0 :: b1 :: b2 :: b3 :: b4 :: b5 :: b6 :: b7 :: rest =>
    absorbAll length (absorb s (Bytes.toNat [b0, b1, b2, b3, b4, b5, b6, b7]).toUInt64) rest
  | rest => absorb s (Bytes.toNat rest + 2 ^ (56 : Nat) * (length % 256)).toUInt64

/-- The digest of bytes. -/
def digest (bytes : List UInt8) : UInt64 :=
  let s := absorbAll bytes.length start bytes
  let s := round (round (round { s with v2 := s.v2 ^^^ 0xff }))
  s.v0 ^^^ s.v1 ^^^ s.v2 ^^^ s.v3

/-- The digest of bytes with their number, as eight bytes, in front. -/
def contentDigest (bytes : List UInt8) : String :=
  Hex.ofNat 16 (digest (Bytes.ofNat 8 bytes.length ++ bytes)).toNat

end WasmEmbed.SipHash
