/-!
# Fingerprints of byte strings

The keyed hash function SipHash with one round for each word and three at the end, under the key
that is all zero.
-/

namespace Interleaving.Sip

/-- The four words of the hash state. -/
structure State where
  a : UInt64
  b : UInt64
  c : UInt64
  d : UInt64

/-- Turns the bits of a word to the left. -/
def rotateLeft (x n : UInt64) : UInt64 := (x <<< n) ||| (x >>> (64 - n))

/-- One round. -/
def State.round (s : State) : State :=
  let a := s.a + s.b
  let b := rotateLeft s.b 13 ^^^ a
  let a := rotateLeft a 32
  let c := s.c + s.d
  let d := rotateLeft s.d 16 ^^^ c
  let a := a + d
  let d := rotateLeft d 21 ^^^ a
  let c := c + b
  let b := rotateLeft b 17 ^^^ c
  ⟨a, b, rotateLeft c 32, d⟩

/-- Takes in one word. -/
def State.absorb (s : State) (w : UInt64) : State :=
  let s := { s with d := s.d ^^^ w }.round
  { s with a := s.a ^^^ w }

/-- The state before the first word. -/
def State.start : State :=
  ⟨0x736f6d6570736575, 0x646f72616e646f6d, 0x6c7967656e657261, 0x7465646279746573⟩

/-- The word of up to eight bytes, the lowest first. -/
def word (bytes : List UInt8) : UInt64 := bytes.foldr (fun b w => (w <<< 8) ||| b.toUInt64) 0

/-- Takes in whole words and gives back the bytes that are left. -/
def absorbAll : State → List UInt8 → State × List UInt8
  | s, b0 :: b1 :: b2 :: b3 :: b4 :: b5 :: b6 :: b7 :: rest =>
    absorbAll (s.absorb (word [b0, b1, b2, b3, b4, b5, b6, b7])) rest
  | s, rest => (s, rest)

/-- The hash of a byte string. The last word holds the bytes that are left and the length. -/
def hash (bytes : List UInt8) : UInt64 :=
  let (s, rest) := absorbAll .start bytes
  let s := s.absorb (word rest ||| (UInt64.ofNat bytes.length <<< 56))
  let s := { s with c := s.c ^^^ 0xff }.round.round.round
  s.a ^^^ s.b ^^^ s.c ^^^ s.d

/-- The bytes that stand for a text: its own and one that occurs in no text. -/
def textBytes (s : String) : List UInt8 := s.toUTF8.toList ++ [0xff]

/-- The bytes that stand for a word, the lowest first. -/
def wordBytes (w : UInt64) : List UInt8 :=
  (List.range 8).map fun i => (w >>> (.ofNat (8 * i))).toUInt8

end Interleaving.Sip
