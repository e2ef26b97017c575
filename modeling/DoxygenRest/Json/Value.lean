import DoxygenRest.Json.Number
import DoxygenRest.Json.Text
import DoxygenRest.Text.Quoted

/-!
# Values in JSON text

Readers for values of a known kind.  A value of another kind is refused as soon as it is clear what
it is: a string or a number once it has been read, a list or an object at its first character.
`skip` moves past a value of any kind.
-/

namespace DoxygenRest.Json

/-! ### Values of a known kind -/

/-- Name the kind of the value that starts with the next character.  A value without parts is
read on the way. -/
def kindOfNext : Read String := do
  match ← peek with
  | some 'n' =>
    takeWord ['n', 'u', 'l', 'l']
    return "null"
  | some 't' =>
    takeWord ['t', 'r', 'u', 'e']
    return "boolean `true`"
  | some 'f' =>
    takeWord ['f', 'a', 'l', 's', 'e']
    return "boolean `false`"
  | some '\x22' =>
    advance
    return "string " ++ Text.quoted (← string)
  | some '[' => return "sequence"
  | some '\x7b' => return "map"
  | some '-' =>
    advance
    return (← number true).describe
  | some c => if isDigit c then return (← number false).describe else failAhead .expectedValue
  | none => failAhead .expectedValue

/-- Refuse the next value, which is not of the expected kind. -/
def refuse {α : Type} (expected : String) : Read α := do
  failHere (.wrongKind (← kindOfNext) expected)

/-- The first character of the next value. -/
def peekValue : Read Char := do
  match ← peekPart with
  | some c => return c
  | none => failHere (.ended .value)

/-- Read a text. -/
def text : Read String := do
  if (← peekValue) = '\x22' then
    advance
    string
  else refuse "a string"

/-- Read a value, or `null` for none. -/
def optional {α : Type} (value : Read α) : Read (Option α) := do
  if (← peekPart) == some 'n' then
    takeWord ['n', 'u', 'l', 'l']
    return none
  else some <$> value

/-! ### Lists and objects -/

/-- Whether a list, whose bracket or last item has been taken, goes on.  A comma in front of the
next item is taken. -/
def nextItem (first : Bool) : Read Bool := do
  match ← peekPart with
  | none => failHere (.ended .list)
  | some ']' => return false
  | some c =>
    if first then return true
    else if c = ',' then
      advance
      match ← peekPart with
      | none => failHere (.ended .value)
      | some ']' => failAhead .trailingComma
      | some _ => return true
    else failAhead .expectedItemEnd

/-- Take the bracket that closes a list. -/
def endList : Read Unit := do
  match ← peekPart with
  | none => failHere (.ended .list)
  | some ']' => advance
  | some ',' =>
    advance
    if (← peekPart) == some ']' then failAhead .trailingComma else failAhead .trailingCharacters
  | some _ => failAhead .trailingCharacters

/-- Read a list of values. -/
def listOf {α : Type} (item : Read α) : Read (List α) := do
  if (← peekValue) = '[' then
    advance
    let items ← repeatUntil (fun items => do
      if ← nextItem items.isEmpty then return .inl ((← item) :: items)
      else return .inr items.reverse) []
    endList
    return items
  else refuse "a sequence"

/-- The key of the next member of an object whose brace or last member has been taken, or none if
there are no more. -/
def nextKey (first : Bool) : Read (Option String) := do
  match ← peekPart with
  | none => failHere (.ended .object)
  | some '\x7d' => return none
  | some c =>
    if !first then
      if c = ',' then advance else failAhead .expectedMemberEnd
    match ← peekPart with
    | none => failHere (.ended .value)
    | some '\x22' =>
      advance
      some <$> string
    | some '\x7d' => failAhead .trailingComma
    | some _ => failAhead .keyNotString

/-- Take the colon behind a key. -/
def colon : Read Unit := do
  match ← peekPart with
  | none => failHere (.ended .object)
  | some ':' => advance
  | some _ => failAhead .expectedColon

/-- Refuse a member for the key just read.  Where the object ends right behind that key, it is
read to its end. -/
def refuseRepeated {α : Type} (name : String) : Read α := do
  discard peekPart
  discard (takeIf (· == '\x7d'))
  failHere (.repeatedMember name)

/-- Check that nothing but white space is left. -/
def endText : Read Unit := do
  if (← peekPart).isSome then failAhead .trailingCharacters

/-! ### Values of any kind -/

/-- A list or an object that has not been closed. -/
inductive Opened where
  | list
  | object

/-- The character that closes. -/
def Opened.closer : Opened → Char
  | list => ']'
  | object => '\x7d'

/-- What a text lacks that ends inside. -/
def Opened.construct : Opened → Construct
  | list => .list
  | object => .object

/-- What is expected behind an item or a member. -/
def Opened.expectedEnd : Opened → Cause
  | list => .expectedItemEnd
  | object => .expectedMemberEnd

/-- What is read next on the way past a value, inside the lists and objects opened so far. -/
inductive Skipping where
  | value (opened : List Opened)
  /-- The rest of the innermost list or object, of which something has been read or nothing yet. -/
  | rest (innermost : Opened) (outer : List Opened) (begun : Bool)

/-- Go on after a value. -/
def afterValue : List Opened → Skipping ⊕ Unit
  | [] => .inr ()
  | innermost :: outer => .inl (.rest innermost outer true)

/-- Move past what stands in front of a value in a list or an object. -/
def skipToValue : Opened → Read Unit
  | .list => return
  | .object => do
    match ← peekPart with
    | none => failHere (.ended .object)
    | some '\x22' =>
      advance
      skipString
      colon
    | some _ => failAhead .keyNotString

/-- Move past a value without parts, or the first character of one with parts. -/
def skipValue (opened : List Opened) : Read (Skipping ⊕ Unit) := do
  match ← peekValue with
  | '[' =>
    advance
    return .inl (.rest .list opened false)
  | '\x7b' =>
    advance
    return .inl (.rest .object opened false)
  | '\x22' =>
    advance
    skipString
    return afterValue opened
  | 'n' =>
    takeWord ['n', 'u', 'l', 'l']
    return afterValue opened
  | 't' =>
    takeWord ['t', 'r', 'u', 'e']
    return afterValue opened
  | 'f' =>
    takeWord ['f', 'a', 'l', 's', 'e']
    return afterValue opened
  | '-' =>
    advance
    skipNumber
    return afterValue opened
  | c =>
    if isDigit c then
      skipNumber
      return afterValue opened
    else failAhead .expectedValue

/-- Move on inside a list or an object, or past its end. -/
def skipRest (innermost : Opened) (outer : List Opened) (begun : Bool) :
    Read (Skipping ⊕ Unit) := do
  match ← peekPart with
  | none => failHere (.ended innermost.construct)
  | some c =>
    if c = innermost.closer then
      advance
      return afterValue outer
    else
      if begun then
        if c = ',' then advance else failAhead innermost.expectedEnd
      skipToValue innermost
      return .inl (.value (innermost :: outer))

/-- Move one step on the way past a value. -/
def Skipping.step : Skipping → Read (Skipping ⊕ Unit)
  | value opened => skipValue opened
  | rest innermost outer begun => skipRest innermost outer begun

/-- Move past a value. -/
def skip : Read Unit :=
  repeatUntil Skipping.step (.value [])

end DoxygenRest.Json
