/-!
# Faults in JSON text

What can be wrong with a JSON text, or with the use that is made of it, each with its wording.  A
fault is reported with the line and the column where reading stopped; columns count bytes.
-/

namespace DoxygenRest.Json

/-- Something that a text can end in the middle of. -/
inductive Construct where
  | list
  | object
  | string
  | value
  deriving DecidableEq

/-- The name of a construct. -/
def Construct.name : Construct → String
  | list => "a list"
  | object => "an object"
  | string => "a string"
  | value => "a value"

/-- What is wrong. -/
inductive Cause where
  /-- The text ends too early. -/
  | ended (construct : Construct)
  | expectedColon
  /-- Something other than a comma or a closing bracket behind an item. -/
  | expectedItemEnd
  /-- Something other than a comma or a closing brace behind a member. -/
  | expectedMemberEnd
  /-- A word other than `true`, `false` and `null`. -/
  | expectedWord
  | expectedValue
  | invalidEscape
  | invalidNumber
  | numberOutOfRange
  | controlCharacter
  | keyNotString
  /-- Half of a pair of escapes for one character. -/
  | loneSurrogate
  /-- The first half of such a pair, with no escape behind it. -/
  | unfinishedPair
  | trailingComma
  | trailingCharacters
  /-- A value of another kind than the one needed. -/
  | wrongKind (found expected : String)
  /-- A member that is there already. -/
  | repeatedMember (name : String)
  deriving DecidableEq

/-- The wording of a cause. -/
def Cause.message : Cause → String
  | ended construct => "EOF while parsing " ++ construct.name
  | expectedColon => "expected `:`"
  | expectedItemEnd => "expected `,` or `]`"
  | expectedMemberEnd => "expected `,` or `\x7d`"
  | expectedWord => "expected ident"
  | expectedValue => "expected value"
  | invalidEscape => "invalid escape"
  | invalidNumber => "invalid number"
  | numberOutOfRange => "number out of range"
  | controlCharacter =>
    "control character (\\u0000-\\u001F) found while parsing a string"
  | keyNotString => "key must be a string"
  | loneSurrogate => "lone leading surrogate in hex escape"
  | unfinishedPair => "unexpected end of hex escape"
  | trailingComma => "trailing comma"
  | trailingCharacters => "trailing characters"
  | wrongKind found expected => "invalid type: " ++ found ++ ", expected " ++ expected
  | repeatedMember name => "duplicate field `" ++ name ++ "`"

/-- A cause and the byte offset at which reading stopped for it. -/
structure Fault where
  cause : Cause
  offset : Nat
  deriving DecidableEq

/-- The line and the column of a byte offset in the rest of a text, which starts at the given
line and column.  Lines are counted from 1 and columns from 0. -/
def position (line column offset : Nat) : List Char → Nat × Nat
  | [] => (line, column + offset)
  | c :: rest =>
    if offset < c.utf8Size then (line, column + offset)
    else if c = '\n' then position (line + 1) 0 (offset - c.utf8Size) rest
    else position line (column + c.utf8Size) (offset - c.utf8Size) rest

/-- The wording of a fault in a given text. -/
def Fault.message (fault : Fault) (text : String) : String :=
  let (line, column) := position 1 0 fault.offset text.toList
  fault.cause.message ++ " at line " ++ toString line ++ " column " ++ toString column

end DoxygenRest.Json
