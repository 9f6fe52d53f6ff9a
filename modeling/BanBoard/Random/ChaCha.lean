import BanBoard.Number.Core

/-!
A stream of random words: the ChaCha cipher with twelve rounds, its key expanded from a seed of
sixty-four bits. The stream is fixed by the seed alone.
-/

namespace BanBoard.Random

structure Row where
  a : UInt32
  b : UInt32
  c : UInt32
  d : UInt32

namespace Row

def map (f : UInt32 → UInt32) (x : Row) : Row := ⟨f x.a, f x.b, f x.c, f x.d⟩

def zipWith (f : UInt32 → UInt32 → UInt32) (x y : Row) : Row :=
  ⟨f x.a y.a, f x.b y.b, f x.c y.c, f x.d y.d⟩

/-- Move every word one column to the left, the first one to the end. -/
def turn (x : Row) : Row := ⟨x.b, x.c, x.d, x.a⟩

def toList (x : Row) : List UInt32 := [x.a, x.b, x.c, x.d]

end Row

structure Block where
  first : Row
  second : Row
  third : Row
  fourth : Row

def Block.add (v w : Block) : Block :=
  ⟨v.first.zipWith (· + ·) w.first, v.second.zipWith (· + ·) w.second,
    v.third.zipWith (· + ·) w.third, v.fourth.zipWith (· + ·) w.fourth⟩

def Block.toList (v : Block) : List UInt32 :=
  v.first.toList ++ v.second.toList ++ v.third.toList ++ v.fourth.toList

/-- Rotate a word to the left by a number of bits from one to thirty-one. -/
def rotateLeft (x : UInt32) (bits : UInt32) : UInt32 := (x <<< bits) ||| (x >>> (32 - bits))

/-- Add one row to another, and mix the sum into a third one, which is rotated. -/
def mix (x y z : Row) (bits : UInt32) : Row × Row :=
  let x := x.zipWith (· + ·) y
  (x, (z.zipWith (· ^^^ ·) x).map (rotateLeft · bits))

def columnRound (v : Block) : Block :=
  let (first, fourth) := mix v.first v.second v.fourth 16
  let (third, second) := mix v.third fourth v.second 12
  let (first, fourth) := mix first second fourth 8
  let (third, second) := mix third fourth second 7
  ⟨first, second, third, fourth⟩

/-- One round on the columns of a block and one on its diagonals, which are turned into columns for it. -/
def doubleRound (v : Block) : Block :=
  let v := columnRound v
  let v := columnRound ⟨v.first, v.second.turn, v.third.turn.turn, v.fourth.turn.turn.turn⟩
  ⟨v.first, v.second.turn.turn.turn, v.third.turn.turn, v.fourth.turn⟩

abbrev Key := Vector UInt32 8

/-- The block from which the words of a given number are mixed: four constants, the key, the number
of the block in two words, and two zeros. -/
def startBlock (key : Key) (number : UInt64) : Block where
  first := ⟨0x61707865, 0x3320646e, 0x79622d32, 0x6b206574⟩
  second := ⟨key[0], key[1], key[2], key[3]⟩
  third := ⟨key[4], key[5], key[6], key[7]⟩
  fourth := ⟨number.toUInt32, (number >>> 32).toUInt32, 0, 0⟩

/-- The words of the block with a given number. -/
def blockWords (key : Key) (number : UInt64) : List UInt32 :=
  let start := startBlock key number
  (((List.range 6).foldl (fun v _ => doubleRound v) start).add start).toList

/-- Step the generator that expands a seed. -/
def stepSeed (state : UInt64) : UInt64 := state * 6364136223846793005 + 11634580027462260723

/-- The word that a state of that generator yields. -/
def seedWord (state : UInt64) : UInt32 :=
  let x := (((state >>> 18) ^^^ state) >>> 27).toUInt32
  let bits := (state >>> 59).toUInt32
  if bits = 0 then x else (x >>> bits) ||| (x <<< (32 - bits))

/-- The states after the first, second, … eighth step from a seed. -/
def seedStates (seed : UInt64) : Vector UInt64 8 :=
  let s1 := stepSeed seed
  let s2 := stepSeed s1
  let s3 := stepSeed s2
  let s4 := stepSeed s3
  let s5 := stepSeed s4
  let s6 := stepSeed s5
  let s7 := stepSeed s6
  #v[s1, s2, s3, s4, s5, s6, s7, stepSeed s7]

/-- The key that a seed expands to. -/
def keyOfSeed (seed : UInt64) : Key := (seedStates seed).map seedWord

/-- A position in a stream: the words of the current block that are left, and the number of the
next block. -/
structure Stream where
  key : Key
  nextBlock : UInt64
  left : List UInt32

/-- The beginning of the stream of a seed. -/
def Stream.ofSeed (seed : UInt64) : Stream := ⟨keyOfSeed seed, 0, []⟩

def Stream.next (s : Stream) : UInt32 × Stream :=
  match s.left with
  | w :: left => (w, { s with left := left })
  | [] =>
    match blockWords s.key s.nextBlock with
    | w :: left => (w, ⟨s.key, s.nextBlock + 1, left⟩)
    | [] => (0, s)

end BanBoard.Random
