/-!
# Decimals

Reading and writing floating point numbers in decimal.

A decimal is read in two steps that each round once: its leading digits, as many as fit a word, and
then their product or quotient with a power of ten. What is written has the fewest digits that
denote the number: a double is `m * 2 ^ q`, and a decimal denotes it when it lies in the interval
half a step to either side, ends included when `m` is even. That arithmetic is on naturals.
-/

namespace RailBus.Text

/-! ## Reading -/

/-- Takes digits as long as the number they make fits 64 bits; returns the digits left over. -/
def wordDigits (acc : Nat) : List Nat → Nat × List Nat
  | [] => (acc, [])
  | d :: rest =>
    if acc * 10 + d < Nat.pow 2 64 then wordDigits (acc * 10 + d) rest else (acc, d :: rest)

/-- The powers of ten that a double can hold. -/
def maxPower : Nat := 308

/-- Divides by `10 ^ n`, in several steps where the power is too large for one. -/
def divideByPower (x : Float) (n : Nat) : Float :=
  if n ≤ maxPower ∨ x == 0 then x / Float.ofScientific 1 false (min n maxPower)
  else divideByPower (x / Float.ofScientific 1 false maxPower) (n - maxPower)
termination_by n
decreasing_by
  rename_i h
  have := (not_or.1 h).1
  simp only [maxPower] at *
  omega

def scaled (significand : Nat) (exponent : Int) : Float :=
  let x := (UInt64.ofNat significand).toFloat
  if exponent < 0 then divideByPower x (-exponent).toNat
  else x * Float.ofScientific 1 false exponent.toNat

/-- The value of `whole.decimals * 10 ^ exponent`. Digits that do not fit the word are dropped; of
the whole part they still count as places. -/
def decimalValue (whole decimals : List Nat) (exponent : Int) : Float :=
  let (word, dropped) := wordDigits 0 whole
  let (word, dropped') := wordDigits word decimals
  let read := decimals.length - dropped'.length
  scaled word (dropped.length - read + exponent)

/-! ## Writing -/

/-- The reals that round to one double, over a common denominator. -/
structure Rounding where
  low : Nat
  value : Nat
  high : Nat
  denominator : Nat
  endsIncluded : Bool

/-- The interval of the double with these bits, the sign aside. -/
def Rounding.ofBits (bits : UInt64) : Rounding :=
  let fraction := bits.toNat % Nat.pow 2 52
  let exponent := bits.toNat / Nat.pow 2 52 % Nat.pow 2 11
  let m := if exponent = 0 then fraction else fraction + Nat.pow 2 52
  let power : Nat := max exponent 1
  let below := if fraction = 0 ∧ exponent > 1 then 1 else 2
  let step := Nat.pow 2 (power - 1075)
  { low := (4 * m - below) * step
    value := 4 * m * step
    high := (4 * m + 2) * step
    denominator := 4 * Nat.pow 2 (1075 - power)
    endsIncluded := m % 2 == 0 }

/-- A grid is numbered by its exponent of ten plus this, so that all numbers are naturals. -/
def gridOrigin : Nat := 400

/-- Whether `digits * 10 ^ (shift - gridOrigin)` denotes the number. -/
def Rounding.holds (r : Rounding) (digits shift : Nat) : Bool :=
  let scaled := digits * r.denominator * Nat.pow 10 (shift - gridOrigin)
  let low := r.low * Nat.pow 10 (gridOrigin - shift)
  let high := r.high * Nat.pow 10 (gridOrigin - shift)
  if r.endsIncluded then low ≤ scaled && scaled ≤ high else low < scaled && scaled < high

/-- Of the two neighbours of the value on the grid of `10 ^ (shift - gridOrigin)` the nearer one
that denotes the number, if any does; of two equally near the even one. -/
def Rounding.onGrid (r : Rounding) (shift : Nat) : Option Nat :=
  let value := r.value * Nat.pow 10 (gridOrigin - shift)
  let unit := r.denominator * Nat.pow 10 (shift - gridOrigin)
  let below := value / unit
  let twice := 2 * (value % unit)
  let downwards := twice < unit || (twice == unit && below % 2 == 0)
  let nearest := if downwards then [below, below + 1] else [below + 1, below]
  nearest.find? fun digits => digits > 0 && r.holds digits shift

/-- Tries coarser grids before finer ones; zero lies on none. -/
def Rounding.shortest? (r : Rounding) : Option (List Char × Int) :=
  if r.value = 0 then none
  else (List.range (2 * gridOrigin)).reverse.findSome? fun shift =>
    (r.onGrid shift).map fun digits => (Nat.toDigits 10 digits, (shift : Int) - gridOrigin)

/-- The most digits before the point, and the most zeros right behind it, of a number written
without an exponent. -/
def maxWhole : Nat := 16
def maxLeadingZeros : Nat := 4

/-- `digits * 10 ^ exponent` with a point in it or, far from one, with an exponent. -/
def layOut (digits : List Char) (exponent : Int) : List Char :=
  let point := digits.length + exponent
  if 0 ≤ exponent ∧ point ≤ maxWhole then
    digits ++ List.replicate exponent.toNat '0' ++ ['.', '0']
  else if 0 < point ∧ point ≤ maxWhole then
    digits.take point.toNat ++ '.' :: digits.drop point.toNat
  else if -maxLeadingZeros ≤ point ∧ point ≤ 0 then
    ['0', '.'] ++ List.replicate (-point).toNat '0' ++ digits
  else
    let decimals := if digits.length = 1 then [] else '.' :: digits.tail
    let sign := if point - 1 < 0 then '-' else '+'
    digits.take 1 ++ decimals ++ 'e' :: sign :: Nat.toDigits 10 (point - 1).natAbs

def decimal (x : Float) : String :=
  let bits := x.toBits
  let sign := if bits.toNat / Nat.pow 2 63 = 1 then ['-'] else []
  let size := match (Rounding.ofBits bits).shortest? with
    | some (digits, exponent) => layOut digits exponent
    | none => ['0', '.', '0']
  String.ofList (sign ++ size)

end RailBus.Text
