import DoxygenRest.Json.Source
import DoxygenRest.Text.White

/-!
# Strings in JSON text

Between its quotes a string holds characters other than controls, and escapes.  An escape by number
gives a unit of 16 bits; two of them together give a character beyond the first 2 ^ 16.

`string` reads a string for its content; `skipString` only looks for its end, and does not mind
units that give no character.
-/

namespace DoxygenRest.Json

/-- The character that a letter behind a backslash stands for. -/
def letterEscape? (c : Char) : Option Char :=
  if c = '\x22' ∨ c = '\\' ∨ c = '/' then some c
  else if c = 'b' then some '\x08'
  else if c = 'f' then some '\x0c'
  else if c = 'n' then some '\n'
  else if c = 'r' then some '\x0d'
  else if c = 't' then some '\t'
  else none

/-- The value of a hexadecimal digit. -/
def hexDigit? (c : Char) : Option Nat :=
  let n := c.toNat
  if 0x30 ≤ n ∧ n ≤ 0x39 then some (n - 0x30)
  else if 0x61 ≤ n ∧ n ≤ 0x66 then some (n - 0x61 + 10)
  else if 0x41 ≤ n ∧ n ≤ 0x46 then some (n - 0x41 + 10)
  else none

/-- The number written by hexadecimal digits. -/
def hexValue? (digits : List Char) : Option Nat :=
  digits.foldlM (fun value c => (hexDigit? c).map (value * 16 + ·)) 0

/-- The four bytes in which an escape writes a unit. -/
def unit : Read Nat := do
  let source ← get
  let size := Text.byteSize source.rest
  if size < 4 then throw ⟨.ended .string, source.offset + size⟩
  match hexValue? (source.rest.take 4) with
  | some value =>
    set (Source.mk (source.rest.drop 4) (source.offset + 4))
    return value
  | none => throw ⟨.invalidEscape, source.offset + 4⟩

/-- Whether a unit is the first half of a pair. -/
def isLeading (unit : Nat) : Bool :=
  0xD800 ≤ unit && unit ≤ 0xDBFF

/-- Whether a unit is the second half of a pair. -/
def isTrailing (unit : Nat) : Bool :=
  0xDC00 ≤ unit && unit ≤ 0xDFFF

/-- The character of a pair of units. -/
def pairOf (leading trailing : Nat) : Char :=
  Char.ofNat (0x10000 + (leading - 0xD800) * 0x400 + (trailing - 0xDC00))

/-- Take one character of the second escape of a pair. -/
def takeOfPair (expected : Char) : Read Unit := do
  match ← peek with
  | none => failHere (.ended .string)
  | some c => if c = expected then advance else failAhead .unfinishedPair

/-- The character written by number, behind the letter that says so. -/
def numberedChar : Read Char := do
  let leading ← unit
  if isTrailing leading then failHere .loneSurrogate
  else if isLeading leading then
    takeOfPair '\\'
    takeOfPair 'u'
    let trailing ← unit
    if isTrailing trailing then return pairOf leading trailing
    else failHere .loneSurrogate
  else return Char.ofNat leading

/-- The next character of a string, or none at its closing quote, which is taken. -/
def nextChar : Read (Option Char) := do
  match ← peek with
  | none => failHere (.ended .string)
  | some c =>
    if c = '\x22' then
      advance
      return none
    else if c = '\\' then
      advance
      match ← peek with
      | none => failHere (.ended .string)
      | some letter =>
        if letter = 'u' then
          advance
          some <$> numberedChar
        else
          match letterEscape? letter with
          | some c =>
            advance
            return some c
          | none => failAhead .invalidEscape
    else if c.toNat < 0x20 then failAhead .controlCharacter
    else
      advance
      return some c

/-- The content of a string whose opening quote has been taken. -/
def string : Read String :=
  repeatUntil (fun content => do
    match ← nextChar with
    | some c => return .inl (c :: content)
    | none => return .inr (String.ofList content.reverse)) []

/-- Whether a character stands for itself in a string. -/
def isPlain (c : Char) : Bool :=
  c != '\x22' && c != '\\' && 0x20 ≤ c.toNat

/-- Move past the end of a string whose opening quote has been taken. -/
def skipString : Read Unit :=
  repeatUntil (fun _ => do
    discard (takeRun isPlain)
    match ← peek with
    | none => failHere (.ended .string)
    | some c =>
      if c = '\x22' then
        advance
        return .inr ()
      else if c = '\\' then
        advance
        match ← peek with
        | none => failHere (.ended .string)
        | some letter =>
          if letter = 'u' then
            advance
            discard unit
            return .inl ()
          else if (letterEscape? letter).isSome then
            advance
            return .inl ()
          else failAhead .invalidEscape
      else failHere .controlCharacter) ()

end DoxygenRest.Json
