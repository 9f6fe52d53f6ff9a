import BanBoard.Text.Decimal

/-!
Positive numbers of twenty-four significant bits, rounded to the nearest with ties to even, and the
shortest decimal text that reads back as such a number. All of it is exact arithmetic on natural
numbers.
-/

namespace BanBoard.Number

open BanBoard.Text (decimal)

structure Ratio where
  num : Nat
  den : Nat

def Ratio.add (a b : Ratio) : Ratio := ⟨a.num * b.den + b.num * a.den, a.den * b.den⟩

/-- The number `mantissa` times two to the power of `exponent`. -/
structure Single where
  mantissa : Nat
  exponent : Int

namespace Single

def toRatio (x : Single) : Ratio :=
  if 0 ≤ x.exponent then ⟨x.mantissa * 2 ^ x.exponent.toNat, 1⟩
  else ⟨x.mantissa, 2 ^ (-x.exponent).toNat⟩

/-- The quotient of a ratio by two to the power of `exponent`, as numerator and denominator. -/
def scaled (r : Ratio) (exponent : Int) : Nat × Nat :=
  if 0 ≤ exponent then (r.num, r.den * 2 ^ exponent.toNat)
  else (r.num * 2 ^ (-exponent).toNat, r.den)

/-- A quotient to the nearest natural number, a half to the even one. -/
def roundHalfEven (num den : Nat) : Nat :=
  let q := num / den
  let twice := 2 * (num % den)
  if den < twice || (twice = den && q % 2 = 1) then q + 1 else q

/-- The exponent that leaves twenty-four bits for the mantissa of a positive ratio. -/
def exponentOf (r : Ratio) : Int :=
  let guess : Int := (Nat.log2 r.num : Int) - (Nat.log2 r.den : Int) - 23
  let (num, den) := scaled r guess
  if num / den < 2 ^ 23 then guess - 1 else guess

def round (r : Ratio) : Single :=
  if r.num = 0 then ⟨0, 0⟩
  else
    let exponent := exponentOf r
    let (num, den) := scaled r exponent
    let mantissa := roundHalfEven num den
    if mantissa = 2 ^ 24 then ⟨2 ^ 23, exponent + 1⟩ else ⟨mantissa, exponent⟩

/-- Twice the distance up to the next number, twice that down to the one before, in units of a quarter
of the last place. Below a power of two the numbers lie closer. -/
def gaps (x : Single) : Nat × Nat := (2, if x.mantissa = 2 ^ 23 then 1 else 2)

/-- Whether a ratio rounds to a number. The ends of the interval belong to it when the mantissa is
even. -/
def isReadFrom (x : Single) (r : Ratio) : Bool :=
  let (up, down) := x.gaps
  let (num, den) := scaled r (x.exponent - 2)
  let low := (4 * x.mantissa - down) * den
  let high := (4 * x.mantissa + up) * den
  if x.mantissa % 2 = 0 then low ≤ num && num ≤ high else low < num && num < high

def decimalRatio (n : Nat) (place : Int) : Ratio :=
  if 0 ≤ place then ⟨n * 10 ^ place.toNat, 1⟩ else ⟨n, 10 ^ (-place).toNat⟩

/-- The distance of two ratios, over the product of their denominators. -/
def distance (a b : Ratio) : Nat :=
  let x := a.num * b.den
  let y := b.num * a.den
  (x - y) + (y - x)

/-- The multiple of ten to the power of `place` that reads back as a number, the nearer one where both
neighbours do. -/
def onGrid? (x : Single) (place : Int) : Option Nat :=
  let value := x.toRatio
  let unit := decimalRatio 1 place
  let below := value.num * unit.den / (value.den * unit.num)
  let lower := decimalRatio below place
  let upper := decimalRatio (below + 1) place
  match x.isReadFrom lower, x.isReadFrom upper with
  | true, true =>
    if distance lower value * upper.den ≤ distance upper value * lower.den then some below
    else some (below + 1)
  | true, false => some below
  | false, true => some (below + 1)
  | false, false => none

def shortestFrom (x : Single) : (rounds : Nat) → (place : Int) → Nat × Int
  | 0, place => (0, place)
  | rounds + 1, place =>
    match x.onGrid? place with
    | some n => if n = 0 then shortestFrom x rounds (place - 1) else (n, place)
    | none => shortestFrom x rounds (place - 1)

/-- Digits with a point before the last `count` of them, zeros added in front where needed. -/
def pointed (digits : List Char) (count : Nat) : List Char :=
  let digits := List.replicate (count + 1 - digits.length) '0' ++ digits
  digits.take (digits.length - count) ++ '.' :: digits.drop (digits.length - count)

/-- The shortest text that reads back as a number, always positional. Whole numbers have no point. -/
def write (x : Single) : List Char :=
  if x.mantissa = 0 then ['0']
  else
    let (n, place) := x.shortestFrom 80 25
    if 0 ≤ place then decimal (n * 10 ^ place.toNat)
    else pointed (decimal n) (-place).toNat

end Single

/-- A number of milliseconds in seconds: the whole seconds and the fraction are rounded on their own,
and so is their sum. -/
def secondsOf (milliseconds : Nat) : Single :=
  let whole := Single.round ⟨milliseconds / 1000, 1⟩
  let nanos := Single.round ⟨milliseconds % 1000 * 1000000, 1⟩
  let fraction := Single.round ⟨nanos.toRatio.num, nanos.toRatio.den * 1000000000⟩
  Single.round (whole.toRatio.add fraction.toRatio)

end BanBoard.Number
