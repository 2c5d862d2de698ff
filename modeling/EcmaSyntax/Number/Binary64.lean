/-!
Nonnegative numbers of the 64-bit binary format, and the rounding of exact fractions to them: to the
nearest, a half to the even neighbour. A finite number is `significand * 2 ^ exponent`, and the
result of rounding is normalised: the significand is below `2 ^ 53`, and at least `2 ^ 52` unless
the exponent is the least one.

A decimal is rounded once, from its exact value. Digits of another radix are taken one at a time,
each step rounded, so long literals carry the rounding of every step.

The shortest decimal that reads back as a given number is looked for among the decimals with one
digit, two digits and so on up to seventeen. The first count is taken for which a neighbour of the
value on that grid rounds to it; of two neighbours the nearer is taken, and a parameter settles an
exact tie.
-/

namespace EcmaSyntax.Number

inductive Binary64 where
  | finite (significand : Nat) (exponent : Int)
  | infinite
deriving DecidableEq, Repr, Inhabited

namespace Binary64

def minExponent : Int := -1074

def maxExponent : Int := 971

def zero : Binary64 := .finite 0 minExponent

/-- The quotient to the nearest integer, a half to the even one. -/
def divNearest (num den : Nat) : Nat :=
  let quotient := num / den
  let rest := 2 * (num % den)
  if rest < den then quotient
  else if den < rest then quotient + 1
  else quotient + quotient % 2

/-- Numerator and denominator of `num / den / 2 ^ exponent`. -/
def unscale (num den : Nat) (exponent : Int) : Nat × Nat :=
  if 0 ≤ exponent then (num, den * Nat.pow 2 exponent.toNat)
  else (num * Nat.pow 2 (-exponent).toNat, den)

/-- Round a fraction with the last place at an exponent, or one place higher
if the significand does not fit. -/
def roundAt (num den : Nat) (exponent : Int) : Binary64 :=
  let fraction := unscale num den exponent
  let significand := divNearest fraction.1 fraction.2
  let (significand, exponent) :=
    if significand == Nat.pow 2 53 then (Nat.pow 2 52, exponent + 1) else (significand, exponent)
  if exponent > maxExponent then .infinite else .finite significand exponent

/-- The number nearest to a fraction with nonzero denominator. -/
def ofFraction (num den : Nat) : Binary64 :=
  if num == 0 then zero
  else
    let guess := max minExponent ((Nat.log2 num : Int) - Nat.log2 den - 53)
    let fraction := unscale num den guess
    if fraction.1 / fraction.2 < Nat.pow 2 53 then roundAt num den guess
    else roundAt num den (guess + 1)

def ofNat (n : Nat) : Binary64 := ofFraction n 1

/-- The value as a fraction. -/
def fraction (significand : Nat) (exponent : Int) : Nat × Nat :=
  if 0 ≤ exponent then (significand * Nat.pow 2 exponent.toNat, 1)
  else (significand, Nat.pow 2 (-exponent).toNat)

/-- The rounded product with a natural number. -/
def mulNat : Binary64 → Nat → Binary64
  | .infinite, _ => .infinite
  | .finite significand exponent, k =>
    let (num, den) := fraction significand exponent
    ofFraction (num * k) den

/-- The rounded sum with a natural number. -/
def addNat : Binary64 → Nat → Binary64
  | .infinite, _ => .infinite
  | .finite significand exponent, k =>
    let (num, den) := fraction significand exponent
    ofFraction (num + k * den) den

/-- The rounded product of two numbers. -/
def mul : Binary64 → Binary64 → Binary64
  | .finite s e, .finite t f =>
    let (num, den) := fraction (s * t) (e + f)
    ofFraction num den
  | _, _ => .infinite

def isInfinite : Binary64 → Bool
  | .infinite => true
  | .finite .. => false

def isZero : Binary64 → Bool
  | .finite 0 _ => true
  | _ => false

/-- The value when it is a natural number. -/
def toNat? : Binary64 → Option Nat
  | .infinite => none
  | .finite significand exponent =>
    let (num, den) := fraction significand exponent
    if num % den == 0 then some (num / den) else none

/-- The bits of the interchange format. -/
def toBits : Binary64 → Nat
  | .infinite => 0x7FF * Nat.pow 2 52
  | .finite significand exponent =>
    if significand < Nat.pow 2 52 then significand
    else (exponent - minExponent + 1).toNat * Nat.pow 2 52 + (significand - Nat.pow 2 52)

end Binary64

/-- The value of a digit in any radix up to sixteen. -/
def digitValue (c : Char) : Nat :=
  if c ≤ '9' then c.toNat - '0'.toNat
  else if c ≤ 'F' then c.toNat - 'A'.toNat + 10
  else c.toNat - 'a'.toNat + 10

/-- The integer that digits of a radix stand for. -/
def natOfDigits (radix : Nat) (digits : List Char) : Nat :=
  digits.foldl (fun acc c => acc * radix + digitValue c) 0

/-- A decimal numeral in parts, as it is written. -/
structure Decimal where
  whole : List Char
  fractional : List Char
  exponentNegative : Bool
  exponent : List Char
deriving DecidableEq, Repr

namespace Decimal

/-- All digits before the exponent, as one integer. -/
def coefficient (d : Decimal) : Nat := natOfDigits 10 (d.whole ++ d.fractional)

/-- The power of ten of the last digit. -/
def scale (d : Decimal) : Int :=
  let exponent : Int := natOfDigits 10 d.exponent
  (if d.exponentNegative then -exponent else exponent) - d.fractional.length

/-- The nearest number. Values far beyond either end of the range are settled
by their magnitude alone. -/
def toBinary64 (d : Decimal) : Binary64 :=
  let coefficient := d.coefficient
  let scale := d.scale
  let magnitude : Int := scale + (d.whole.length + d.fractional.length)
  if coefficient == 0 then Binary64.zero
  else if magnitude < -400 then Binary64.zero
  else if scale > 400 then Binary64.infinite
  else if 0 ≤ scale then Binary64.ofFraction (coefficient * Nat.pow 10 scale.toNat) 1
  else Binary64.ofFraction coefficient (Nat.pow 10 (-scale).toNat)

end Decimal

/-- Digits of a radix folded from the left, rounding at each step. -/
def foldDigits (radix : Nat) (digits : List Char) : Binary64 :=
  digits.foldl (fun acc c => (acc.mulNat radix).addNat (digitValue c)) Binary64.zero

/-- Which of two equally near decimals is taken. -/
inductive Tie where
  | even
  | up
deriving DecidableEq, Repr

/-- Significant digits and the power of ten of the first one. -/
structure Significant where
  digits : List Char
  exponent : Int
deriving DecidableEq, Repr

/-- `num / den` as a multiple of `10 ^ k`, in numerator and denominator. -/
def perPower (num den : Nat) (k : Int) : Nat × Nat :=
  if 0 ≤ k then (num, den * Nat.pow 10 k.toNat) else (num * Nat.pow 10 (-k).toNat, den)

/-- Raise a guess until the next power of ten is above the fraction. -/
def raiseExponent (num den : Nat) : Nat → Int → Int
  | 0, k => k
  | fuel + 1, k =>
    let (n, d) := perPower num den (k + 1)
    if d ≤ n then raiseExponent num den fuel (k + 1) else k

/-- The power of ten of the first digit of a nonzero fraction. -/
def leadingExponent (num den : Nat) : Int :=
  let bits : Int := (Nat.log2 num : Int) - Nat.log2 den
  raiseExponent num den 4 ((bits * 30103).fdiv 100000 - 2)

/-- The reals that round to a number, in quarter units of its last place:
the ends and whether they belong to it. -/
structure RoundingInterval where
  low : Nat
  high : Nat
  closed : Bool

def roundingInterval (significand : Nat) (exponent : Int) : RoundingInterval where
  low :=
    if significand == Nat.pow 2 52 && exponent > Binary64.minExponent then 4 * significand - 1
    else 4 * significand - 2
  high := 4 * significand + 2
  closed := significand % 2 == 0

/-- Drop the zeros at the end of a digit string. -/
def trimZeros (digits : List Char) : List Char :=
  (digits.reverse.dropWhile (· == '0')).reverse

/-- The decimal `n * 10 ^ k`. -/
def significantOf (n : Nat) (k : Int) : Significant :=
  let digits := Nat.toDigits 10 n
  ⟨trimZeros digits, k + digits.length - 1⟩

/-- A neighbour on the grid of multiples of `10 ^ k`, if one rounds to the
number. `unit` is a quarter unit of the last place, as a fraction. -/
def neighbour? (tie : Tie) (value : Nat) (interval : RoundingInterval) (unit : Nat × Nat)
    (k : Int) : Option Nat :=
  let scaled := fun q : Nat => perPower (q * unit.1) unit.2 k
  let (n, d) := scaled value
  let below := n / d
  let inside := fun candidate : Nat =>
    let (lowNum, lowDen) := scaled interval.low
    let (highNum, highDen) := scaled interval.high
    if interval.closed then lowNum ≤ candidate * lowDen && candidate * highDen ≤ highNum
    else lowNum < candidate * lowDen && candidate * highDen < highNum
  let rest := 2 * (n % d)
  let nearest :=
    if rest < d then below
    else if d < rest then below + 1
    else match tie with
      | .even => below + below % 2
      | .up => below + 1
  let other := if nearest == below then below + 1 else below
  if inside nearest then some nearest
  else if inside other then some other
  else none

/-- Finer and finer grids, until one has a hit. -/
def searchDigits (tie : Tie) (value : Nat) (interval : RoundingInterval) (unit : Nat × Nat) :
    Nat → Int → Significant
  | 0, k => significantOf ((perPower (value * unit.1) unit.2 k).1 /
      (perPower (value * unit.1) unit.2 k).2) k
  | fuel + 1, k =>
    match neighbour? tie value interval unit k with
    | some n => significantOf n k
    | none => searchDigits tie value interval unit fuel (k - 1)

/-- The shortest digits of a nonzero finite number. -/
def shortest (tie : Tie) (significand : Nat) (exponent : Int) : Significant :=
  let (num, den) := Binary64.fraction significand exponent
  let lead := leadingExponent num den
  let unit := Binary64.fraction 1 (exponent - 2)
  searchDigits tie (4 * significand) (roundingInterval significand exponent) unit 17 lead

/-- Digits in positional notation: a point stands where it must, and zeros
fill up to it. -/
def Significant.positional (s : Significant) : List Char :=
  if s.exponent < 0 then
    '0' :: '.' :: (List.replicate ((-s.exponent).toNat - 1) '0' ++ s.digits)
  else
    let whole := s.exponent.toNat + 1
    if s.digits.length ≤ whole then s.digits ++ List.replicate (whole - s.digits.length) '0'
    else s.digits.take whole ++ '.' :: s.digits.drop whole

/-- The digits with a point after the first, as they stand before an exponent. -/
def Significant.mantissa (s : Significant) : List Char :=
  match s.digits with
  | [] => ['0']
  | [d] => [d]
  | d :: rest => d :: '.' :: rest

end EcmaSyntax.Number
