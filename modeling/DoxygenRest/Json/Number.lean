import DoxygenRest.Decimal.Shortest
import DoxygenRest.Json.Source

/-!
# Numbers in JSON text

A number is an integer if it is written like one and fits in 64 bits, as an unsigned number or, with
a minus sign, as a signed one; all other numbers are floating-point numbers.  Of the digits of a
number as many count as fit in 64 bits; the digits behind them only scale it.
-/

namespace DoxygenRest.Json

/-- The value of a number. -/
inductive Number where
  | integer (value : Int)
  | floating (value : Float)

/-- How a number is named in messages. -/
def Number.describe : Number → String
  | integer value => "integer `" ++ toString value ++ "`"
  | floating value => "floating point `" ++ Decimal.text value ++ "`"

/-! ### Values -/

/-- The largest significand. -/
def maxSignificand : Nat := Nat.pow 2 64 - 1

/-- The largest exponent. -/
def maxExponent : Nat := Nat.pow 2 31 - 1

/-- Append digits to a number for as long as it stays within a limit.  The answer holds the number
and the digits that are left over. -/
def appendDigits (limit value : Nat) : List Char → Nat × List Char
  | [] => (value, [])
  | c :: rest =>
    let next := value * 10 + (c.toNat - 0x30)
    if next ≤ limit then appendDigits limit next rest else (value, c :: rest)

/-- The largest power of ten that is a double. -/
def maxPower : Nat := 308

/-- A power of ten as a double. -/
def powerOfTen (power : Nat) : Float :=
  Float.ofScientific 1 false power

/-- Divide by a power of ten, in steps that are doubles. -/
def divideByPower (x : Float) (power : Nat) : Float :=
  if power ≤ maxPower then x / powerOfTen power
  else if x == 0 then x
  else divideByPower (x / powerOfTen maxPower) (power - maxPower)
termination_by power
decreasing_by simp only [maxPower] at *; omega

/-- The double `significand * 10 ^ exponent`, unless it is too large. -/
def floating? (significand : Nat) (exponent : Int) : Option Float :=
  let x := Float.ofScientific significand false 0
  if exponent < 0 then some (divideByPower x exponent.natAbs)
  else if x == 0 then some x
  else if maxPower < exponent.natAbs then none
  else
    let scaled := x * powerOfTen exponent.natAbs
    if scaled.isInf then none else some scaled

/-! ### Reading -/

/-- Whether a character is a decimal digit. -/
def isDigit (c : Char) : Bool :=
  '0' ≤ c && c ≤ '9'

/-- Take the digits in front of the point, of which there is at least one; zero stands alone.
`lacking` says what a text lacks that ends right here. -/
def wholeDigits (lacking : Cause) : Read (List Char) := do
  match ← peek with
  | none => failHere lacking
  | some c =>
    if !isDigit c then failAhead .invalidNumber
    else if c = '0' then
      advance
      match ← peek with
      | some next => if isDigit next then failAhead .invalidNumber else return [c]
      | none => return [c]
    else takeRun isDigit

/-- Take the sign of an exponent.  The answer tells a minus sign. -/
def exponentSign : Read Bool := do
  match ← peek with
  | some '+' =>
    advance
    return false
  | some '-' =>
    advance
    return true
  | _ => return false

/-- Take a point and the digits behind it, of which there is at least one. -/
def fractionDigits (lacking : Cause) : Read (List Char) := do
  if !(← takeIf (· == '.')) then return []
  match ← takeRun isDigit with
  | [] =>
    match ← peek with
    | none => failHere lacking
    | some _ => failAhead .invalidNumber
  | digits => return digits

/-- The number `significand * 10 ^ exponent`, whose text has just been read. -/
def floating (negative : Bool) (significand : Nat) (exponent : Int) : Read Number := do
  match floating? significand exponent with
  | some value => return .floating (if negative then -value else value)
  | none => failHere .numberOutOfRange

/-- Read an exponent, whose letter comes next, behind a significand that is to be scaled by a power
of ten anyway.  An exponent beyond all bounds gives zero, unless it makes the number too large. -/
def withExponent (negative : Bool) (significand : Nat) (scale : Int) : Read Number := do
  advance
  let divides ← exponentSign
  match ← peek with
  | none => failHere (.ended .value)
  | some c =>
    if !isDigit c then failAhead .invalidNumber
    let source ← get
    let (exponent, excess) := appendDigits maxExponent 0 (← takeRun isDigit)
    if excess.isEmpty then
      floating negative significand (if divides then scale - exponent else scale + exponent)
    else if significand ≠ 0 ∧ !divides then
      let taken := (source.rest.takeWhile isDigit).length - excess.length + 1
      throw ⟨.numberOutOfRange, source.offset + taken⟩
    else return .floating (if negative then -0.0 else 0.0)

/-- Whether a character starts an exponent. -/
def isExponentMark (c : Char) : Bool :=
  c == 'e' || c == 'E'

/-- The integer with these digits if it is one, or else the floating-point number. -/
def integerOr (negative : Bool) (significand : Nat) : Read Number :=
  if !negative then return .integer significand
  else if 1 ≤ significand ∧ significand ≤ Nat.pow 2 63 then return .integer (-significand)
  else floating true significand 0

/-- Read a number, whose minus sign has been taken. -/
def number (negative : Bool) : Read Number := do
  let whole ← wholeDigits (.ended .value)
  let (significand, dropped) := appendDigits maxSignificand 0 whole
  let hasFraction := (← peek) == some '.'
  let fraction ← fractionDigits (.ended .value)
  let (significand, left) := appendDigits maxSignificand significand fraction
  let scale := (dropped.length : Int) - (fraction.length - left.length)
  match ← peek with
  | some c =>
    if isExponentMark c then withExponent negative significand scale
    else if hasFraction ∨ !dropped.isEmpty then floating negative significand scale
    else integerOr negative significand
  | none =>
    if hasFraction ∨ !dropped.isEmpty then floating negative significand scale
    else integerOr negative significand

/-- Move past a number, whose minus sign has been taken. -/
def skipNumber : Read Unit := do
  discard (wholeDigits .invalidNumber)
  discard (fractionDigits .invalidNumber)
  if ← takeIf isExponentMark then
    discard exponentSign
    match ← peek with
    | some c => if isDigit c then discard (takeRun isDigit) else failAhead .invalidNumber
    | none => failHere .invalidNumber

end DoxygenRest.Json
