import DoxygenRest.Text.White
import DoxygenRest.Xml.Error

/-!
# References in XML text

Characters that would be taken for markup are written as references: `escapeText` writes them for
the text of an element, `escapeValue` for an attribute value, where quotes count as markup too.
`resolve` reads references back.  It knows the five predefined entities and the numbers of
characters, in decimal or hexadecimal digits.
-/

namespace DoxygenRest.Xml

/-- How a character of an element's text is written. -/
def escapeTextChar (c : Char) : List Char :=
  if c = '<' then ['&', 'l', 't', ';']
  else if c = '>' then ['&', 'g', 't', ';']
  else if c = '&' then ['&', 'a', 'm', 'p', ';']
  else [c]

/-- How a character of an attribute value is written. -/
def escapeValueChar (c : Char) : List Char :=
  if c = '\x27' then ['&', 'a', 'p', 'o', 's', ';']
  else if c = '\x22' then ['&', 'q', 'u', 'o', 't', ';']
  else escapeTextChar c

/-- The written form of an element's text. -/
def escapeText (s : String) : String :=
  String.ofList (s.toList.flatMap escapeTextChar)

/-- The written form of an attribute value. -/
def escapeValue (s : String) : String :=
  String.ofList (s.toList.flatMap escapeValueChar)

/-- The character that a predefined entity stands for. -/
def predefined? (name : String) : Option Char :=
  if name = "lt" then some '<'
  else if name = "gt" then some '>'
  else if name = "amp" then some '&'
  else if name = "apos" then some '\x27'
  else if name = "quot" then some '\x22'
  else none

/-- The value of a digit in a base of at most 16. -/
def digit? (base : Nat) (c : Char) : Option Nat :=
  let n := c.toNat
  let value :=
    if c.isDigit then n - 0x30
    else if 0x61 ≤ n ∧ n ≤ 0x66 then n - 0x61 + 10
    else if 0x41 ≤ n ∧ n ≤ 0x46 then n - 0x41 + 10
    else base
  if value < base then some value else none

/-- Read on in a number of 32 bits, of which the digits so far give `value`. -/
def numberFrom (base : Nat) (value : Nat) : List Char → Except NumberError Nat
  | [] => .ok value
  | c :: rest =>
    match digit? base c with
    | none => .error .badDigit
    | some digit =>
      let next := value * base + digit
      if next < 2 ^ 32 then numberFrom base next rest else .error .tooLarge

/-- Read the digits of a character reference as a number. -/
def number (base : Nat) (digits : List Char) : Except CharacterError Nat :=
  match digits with
  | [] => .error (.number .noDigits)
  | c :: _ =>
    if c = '+' ∨ c = '-' then .error .signedNumber
    else (numberFrom base 0 digits).mapError .number

/-- The character with a given number. -/
def characterOf (code : Nat) : Except CharacterError Char :=
  if code = 0 then .error .nullCharacter
  else if code.isValidChar then .ok (Char.ofNat code)
  else .error (.noCharacter code)

/-- The character whose number is written with the given digits. -/
def numbered (base : Nat) (digits : List Char) : Except ReferenceError Char :=
  (number base digits >>= characterOf).mapError .character

/-- The character that a reference stands for, given what it holds between the ampersand, which
precedes offset `start`, and the semicolon. -/
def referent (start : Nat) (body : List Char) : Except ReferenceError Char :=
  match body with
  | '#' :: 'x' :: digits => numbered 16 digits
  | '#' :: digits => numbered 10 digits
  | _ =>
    match predefined? (String.ofList body) with
    | some c => .ok c
    | none => .error (.unknownEntity start (start + Text.byteSize body) (String.ofList body))

/-- Whether a character ends the name in a reference, one way or the other. -/
def endsReference (c : Char) : Bool :=
  c == '&' || c == ';'

/-- Read the references in a text whose rest starts at byte `offset` and which ends at byte
`stop`.  The leftmost fault is reported. -/
def resolveFrom (stop : Nat) (offset : Nat) (cs : List Char) : Except ReferenceError (List Char) :=
  match cs with
  | [] => .ok []
  | '&' :: rest =>
    let body := rest.takeWhile fun c => !endsReference c
    match h : rest.dropWhile fun c => !endsReference c with
    | ';' :: after => do
      let c ← referent (offset + 1) body
      let text ← resolveFrom stop (offset + 1 + Text.byteSize body + 1) after
      pure (c :: text)
    | _ => .error (.unterminated offset stop)
  | c :: rest => do
    let text ← resolveFrom stop (offset + c.utf8Size) rest
    pure (c :: text)
termination_by cs.length
decreasing_by
  · have := (List.dropWhile_sublist (fun c => !endsReference c) (l := rest)).length_le
    rw [h] at this
    simp only [List.length_cons] at this ⊢
    omega
  · simp

/-- Read the references in a text or an attribute value. -/
def resolve (cs : List Char) : Except ReferenceError String :=
  (resolveFrom (Text.byteSize cs) 0 cs).map String.ofList

end DoxygenRest.Xml
