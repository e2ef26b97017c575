/-!
# The shortest decimal of a floating-point number

A double stands for all reals that are rounded to it: an interval around its own value.  Written in
decimal it takes the fewest digits of any number in that interval, and of the numbers with so few
digits the one nearest to its own value.

`Interval` holds the interval exactly, as fractions with one denominator.  On the decimal grid of a
given step, the only candidates are the two points next to the value; `shortest` tries the grids
from the coarsest to the finest.
-/

namespace DoxygenRest.Decimal

/-- The reals that are rounded to a positive double.  Its own value is `value / unit`, and the ends
of the interval are `low / unit` and `high / unit`. -/
structure Interval where
  low : Nat
  value : Nat
  high : Nat
  unit : Nat
  /-- Whether the ends belong to the interval. -/
  closed : Bool
  deriving DecidableEq

/-- The interval of `significand * 2 ^ power`.  The ends lie halfway to the neighbours, and a tie
is rounded to the even significand.  Below a power of two the neighbour is at half the distance,
which `narrow` says. -/
def Interval.ofParts (significand : Nat) (power : Int) (narrow : Bool) : Interval :=
  let scale := Nat.pow 2 power.toNat
  { low := (4 * significand - if narrow then 1 else 2) * scale
    value := 4 * significand * scale
    high := (4 * significand + 2) * scale
    unit := 4 * Nat.pow 2 (-power).toNat
    closed := significand % 2 == 0 }

/-- The interval of a positive finite double. -/
def Interval.ofFloat (x : Float) : Interval :=
  let bits := x.toBits.toNat
  let exponent : Nat := bits / Nat.pow 2 52 % Nat.pow 2 11
  let fraction : Nat := bits % Nat.pow 2 52
  if exponent = 0 then .ofParts fraction (-1074) false
  else .ofParts (Nat.pow 2 52 + fraction) ((exponent : Int) - 1075) (fraction == 0 && 1 < exponent)

/-- Whether `digits * 10 ^ power` lies in the interval. -/
def Interval.has (interval : Interval) (digits : Nat) (power : Int) : Bool :=
  let point := digits * Nat.pow 10 power.toNat * interval.unit
  let low := interval.low * Nat.pow 10 (-power).toNat
  let high := interval.high * Nat.pow 10 (-power).toNat
  if interval.closed then low ≤ point && point ≤ high else low < point && point < high

/-- Of the two points with step `10 ^ power` next to the value, the one in the interval that is
nearer to the value, or the even one if they are equally near. -/
def Interval.candidate? (interval : Interval) (power : Int) : Option Nat :=
  let value := interval.value * Nat.pow 10 (-power).toNat
  let step := interval.unit * Nat.pow 10 power.toNat
  let below := value / step
  let above := below + 1
  let middle := (2 * below + 1) * step
  match interval.has below power, interval.has above power with
  | false, false => none
  | true, false => some below
  | false, true => some above
  | true, true =>
    if 2 * value < middle then some below
    else if middle < 2 * value then some above
    else if below % 2 = 0 then some below
    else some above

/-- The number of decimal digits of a natural number. -/
def digitCount (n : Nat) : Nat :=
  (Nat.toDigits 10 n).length

/-- The least power of ten above the value. -/
def Interval.scale (interval : Interval) : Int :=
  if interval.unit ≤ interval.value then digitCount (interval.value / interval.unit)
  else 1 - (digitCount ((interval.unit - 1) / interval.value) : Int)

/-- The most digits that are ever needed. -/
def maxDigits : Nat := 17

/-- The shortest decimal in an interval, as digits and the power of ten they are multiplied by. -/
def Interval.shortest (interval : Interval) : Nat × Int :=
  let grids := (List.range maxDigits).map fun (n : Nat) => interval.scale - ((n : Int) + 1)
  match grids.findSome? fun power => (interval.candidate? power).map (·, power) with
  | some decimal => decimal
  | none => (0, 0)

/-- A decimal without the zeros at the end of its digits. -/
def withoutZeros (digits : Nat) (power : Int) : Nat × Int :=
  if digits = 0 then (0, 0)
  else if digits % 10 = 0 then withoutZeros (digits / 10) (power + 1)
  else (digits, power)
termination_by digits
decreasing_by omega

/-- How `digits * 10 ^ power` is written.  The point is set where it belongs if the leading digit
stands for `10 ^ -5` up to `10 ^ 15`; otherwise it is set behind the leading digit, and a power of
ten follows. -/
def layOut (digits : Nat) (power : Int) : String :=
  let written := Nat.toDigits 10 digits
  let leading := power + (written.length - 1)
  if -5 ≤ leading ∧ leading ≤ 15 then
    if 0 ≤ power then String.ofList (written ++ List.replicate power.toNat '0') ++ ".0"
    else if 0 ≤ leading then
      String.ofList (written.take (leading.toNat + 1)) ++ "." ++
        String.ofList (written.drop (leading.toNat + 1))
    else "0." ++ String.ofList (List.replicate (-leading - 1).toNat '0' ++ written)
  else
    let fraction := written.drop 1
    String.ofList (written.take 1) ++ (if fraction.isEmpty then "" else "." ++ String.ofList fraction) ++
      (if leading < 0 then "e-" else "e+") ++ toString leading.natAbs

/-- The text of a finite double. -/
def text (x : Float) : String :=
  let sign := if x.toBits.toNat < Nat.pow 2 63 then "" else "-"
  if x == 0 then sign ++ "0.0"
  else
    let (digits, power) := (Interval.ofFloat x.abs).shortest
    let (digits, power) := withoutZeros digits power
    sign ++ layOut digits power

end DoxygenRest.Decimal
