/-!
# A seeded source of random words

The ChaCha stream cipher with eight rounds as a source of words of 64 bits. The key comes from a
seed of one word, and the words of block after block are handed out in order.
-/

namespace Interleaving

/-- The sixteen words on which the cipher works. -/
abbrev ChaChaState := Vector UInt32 16

namespace ChaChaState

/-- Turns the bits of a word to the left. -/
def rotateLeft (x n : UInt32) : UInt32 := (x <<< n) ||| (x >>> (32 - n))

/-- Mixes four of the words. -/
def quarterRound (a b c d : Fin 16) (s : ChaChaState) : ChaChaState :=
  let x := s[a] + s[b]
  let w := rotateLeft (s[d] ^^^ x) 16
  let z := s[c] + w
  let y := rotateLeft (s[b] ^^^ z) 12
  let x := x + y
  let w := rotateLeft (w ^^^ x) 8
  let z := z + w
  let y := rotateLeft (y ^^^ z) 7
  (((s.set a x).set b y).set c z).set d w

/-- A round over the columns of the state and one over its diagonals. -/
def doubleRound (s : ChaChaState) : ChaChaState :=
  let s := quarterRound 0 4 8 12 s
  let s := quarterRound 1 5 9 13 s
  let s := quarterRound 2 6 10 14 s
  let s := quarterRound 3 7 11 15 s
  let s := quarterRound 0 5 10 15 s
  let s := quarterRound 1 6 11 12 s
  let s := quarterRound 2 7 8 13 s
  quarterRound 3 4 9 14 s

/-- The state for one block of a key: four constants, the key, the number of the block and zeros. -/
def start (key : Vector UInt32 8) (block : UInt64) : ChaChaState :=
  #v[0x61707865, 0x3320646e, 0x79622d32, 0x6b206574,
    key[0], key[1], key[2], key[3], key[4], key[5], key[6], key[7],
    block.toUInt32, (block >>> 32).toUInt32, 0, 0]

/-- The words of one block. -/
def output (key : Vector UInt32 8) (block : UInt64) : ChaChaState :=
  let s := start key block
  s.zipWith (· + ·) (doubleRound (doubleRound (doubleRound (doubleRound s))))

end ChaChaState

/-- A source of random words: its key, the number of the next block, and the words of the present
one that are left. -/
structure Rng where
  key : Vector UInt32 8
  block : UInt64
  ready : List UInt64

namespace Rng

/-- The next state of the linear generator that spreads a seed over a key. -/
def stretch (state : UInt64) : UInt64 := state * 6364136223846793005 + 11634580027462260723

/-- The word of the key that a state of the linear generator gives. -/
def keyWord (state : UInt64) : UInt32 :=
  let x := (((state >>> 18) ^^^ state) >>> 27).toUInt32
  let turn := (state >>> 59).toUInt32
  (x >>> turn) ||| (x <<< (32 - turn))

/-- The source of a seed. -/
def ofSeed (seed : UInt64) : Rng where
  key := Vector.ofFn fun i => keyWord (Nat.repeat stretch (i + 1) seed)
  block := 0
  ready := []

/-- Joins words of 32 bits two by two, the low one first. -/
def pairUp : List UInt32 → List UInt64
  | low :: high :: rest => (low.toUInt64 ||| (high.toUInt64 <<< 32)) :: pairUp rest
  | _ => []

/-- The next word. -/
def nextUInt64 (r : Rng) : UInt64 × Rng :=
  match r.ready with
  | w :: ready => (w, { r with ready })
  | [] =>
    match pairUp (ChaChaState.output r.key r.block).toList with
    | w :: ready => (w, { r with block := r.block + 1, ready })
    | [] => (0, { r with block := r.block + 1 })

/-- The fraction that a word gives: its upper 53 bits after the binary point. -/
def unitInterval (w : UInt64) : Float := (w >>> 11).toFloat / 9007199254740992.0

/-- The next fraction from `0` up to but not including `1`. -/
def nextDouble (r : Rng) : Float × Rng :=
  let (w, r) := r.nextUInt64
  (unitInterval w, r)

/-- Draws words until the low half of the product with `n` is at most `zone`; the high half is the
answer. `tries` bounds the number of draws. -/
def drawBelow (n zone : Nat) : Nat → Rng → Nat × Rng
  | 0, r => (0, r)
  | tries + 1, r =>
    let (w, r) := r.nextUInt64
    let product := w.toNat * n
    if product % UInt64.size ≤ zone then (product / UInt64.size, r) else drawBelow n zone tries r

/-- A uniform number below `n`. At least every other word is accepted on average, so that the
bound on the number of draws is never felt. -/
def nextBelow (n : Nat) (r : Rng) : Nat × Rng :=
  drawBelow n (n * Nat.pow 2 (63 - n.log2) - 1) 4611686018427387904 r

end Rng

end Interleaving
