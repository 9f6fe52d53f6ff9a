import BanBoard.Random.ChaCha

/-!
Draws from a stream of random words. A draw from a range multiplies a word by the size of the range,
keeps the upper half and rejects the words that would make some results more likely than others. Nothing
bounds how often that happens, so a draw is made with a number of tries, and a whole computation with as
many as it needs.
-/

namespace BanBoard.Random

/-- A computation that takes words from a stream. It fails only when it runs out of tries. -/
abbrev Draw := StateT Stream Option

def word32 : Draw Nat := fun s =>
  let (w, s) := s.next
  some (w.toNat, s)

def word64 : Draw Nat := do
  let low ← word32
  let high ← word32
  return low + high * 2 ^ 32

/-- Draw words until one is accepted, and keep the part of it that counts. The lower part of the
product has to stay within the zone. -/
def reject (word : Draw Nat) (bits size zone : Nat) : (tries : Nat) → Draw Nat
  | 0 => fun _ => none
  | tries + 1 => do
    let product := (← word) * size
    if product % 2 ^ bits ≤ zone then return product / 2 ^ bits
    else reject word bits size zone tries

/-- The zone of a range whose size is below two to the power of `bits`: the greatest multiple of the
size by a power of two that fits, less one. -/
def shiftedZone (bits size : Nat) : Nat := size * 2 ^ (bits - 1 - Nat.log2 size) - 1

/-- Draw one of `size` numbers from `least` on, from words of sixty-four bits. -/
def range64 (tries least size : Nat) : Draw Nat := do
  return least + (← reject word64 64 size (shiftedZone 64 size) tries)

/-- Draw one of `size` numbers from `least` on, from words of thirty-two bits. -/
def range32 (tries least size : Nat) : Draw Nat := do
  return least + (← reject word32 32 size (shiftedZone 32 size) tries)

/-- Draw a byte, one of `size` from `least` on. The zone for bytes is the widest one that treats all
results alike. -/
def rangeByte (tries least size : Nat) : Draw Nat := do
  return least + (← reject word32 32 size (2 ^ 32 - 1 - 2 ^ 32 % size) tries)

/-- Draw any byte: the lowest of a word. -/
def anyByte : Draw Nat := do return (← word32) % 256

/-- Draw true with a probability that is given as a fraction of two to the power of sixty-four. -/
def chance (threshold : Nat) : Draw Bool := do return (← word64) < threshold

def pick {α : Type} (tries : Nat) (default : α) (items : List α) : Draw α := do
  return items.getD (← range64 tries 0 items.length) default

def times {α : Type} (draw : Draw α) : (count : Nat) → Draw (List α)
  | 0 => return []
  | count + 1 => do
    let x ← draw
    let xs ← times draw count
    return x :: xs

def forEach {α β : Type} (draw : α → Draw β) : List α → Draw (List β)
  | [] => return []
  | x :: xs => do
    let y ← draw x
    let ys ← forEach draw xs
    return y :: ys

section Search

variable {α : Type} (result? : Nat → Option α)

/-- The first result with so many tries or more. There is none when no number of tries is enough, and then
the search does not end. -/
def withEnough (tries : Nat) : Option α :=
  match result? tries with
  | some x => some x
  | none => by
      -- Written as a term, the call would leave its place in the file in the definition.
      apply withEnough
      exact tries + 1
partial_fixpoint

end Search

/-- What is drawn from a stream with as many tries as it takes. -/
def drawn? {α : Type} (draw : Nat → Draw α) (s : Stream) : Option α :=
  (withEnough (fun tries => (draw tries).run s) 1000).map Prod.fst

end BanBoard.Random
