import DoxygenRest.Query.Basic
import DoxygenRest.Text.Letter
import DoxygenRest.Text.White

/-!
# Reading path queries

The written form of a query, read from left to right.  Each part of the grammar is a function from
the text that is left to what it reads and the text that is left after it.

A name holds letters, numbers, underscores, hyphens, points and colons, but no double colon, which
separates an axis from its name test.  The axis `child` need not be written, a single point stands
for the element itself and two points stand for its parent.
-/

namespace DoxygenRest

namespace Query

/-- Why a text is no query. -/
inductive Fault where
  | empty
  /-- There is no name at the start of this text. -/
  | expectedName (rest : String)
  /-- A value does not start with a quote. -/
  | expectedQuote
  /-- A value has no closing quote. -/
  | openQuote
  /-- This text is left over. -/
  | leftOver (rest : String)
  /-- A predicate has no closing bracket. -/
  | openBracket
  /-- There is no axis of this name. -/
  | unknownAxis (name : String)
  /-- The position does not fit in a machine word. -/
  | hugePosition
  | positionZero
  deriving DecidableEq

/-- The wording of a fault. -/
def Fault.message : Fault → String
  | empty => "empty query"
  | expectedName rest => "expected a name at '" ++ rest ++ "'"
  | expectedQuote => "expected a quoted value"
  | openQuote => "unterminated string"
  | leftOver rest => "unexpected '" ++ rest ++ "'"
  | openBracket => "expected ']'"
  | unknownAxis name => "unsupported axis '" ++ name ++ "'"
  | hugePosition => "invalid position"
  | positionZero => "positions start at 1"

/-- What a part of the grammar makes of the text that is left: a value with the text left after it,
or a fault. -/
abbrev Read (α : Type) := List Char → Except Fault (α × List Char)

/-- Read a token if it comes next. -/
def eat? (token : String) (cs : List Char) : Option (List Char) :=
  token.toList.isPrefixOf? cs

/-- The characters of a name. -/
def isNameChar (c : Char) : Bool :=
  c == '_' || c == '-' || c == '.' || c == ':' || Text.isAlphanumeric c

/-- The part of a text before its first double colon. -/
def beforeDoubleColon : List Char → List Char
  | [] => []
  | ':' :: ':' :: _ => []
  | c :: rest => c :: beforeDoubleColon rest

/-- Read a name. -/
def readName : Read String := fun cs =>
  let name := beforeDoubleColon (cs.takeWhile isNameChar)
  if name.isEmpty then .error (.expectedName (String.ofList cs))
  else .ok (String.ofList name, cs.drop name.length)

/-- Read a value in single or double quotes. -/
def readQuoted : Read String := fun cs =>
  match cs with
  | [] => .error .expectedQuote
  | quote :: body =>
    if quote = '\x27' ∨ quote = '\x22' then
      match body.dropWhile (· != quote) with
      | [] => .error .openQuote
      | _ :: rest => .ok (String.ofList (body.takeWhile (· != quote)), rest)
    else .error .expectedQuote

/-- Read what follows the at sign of an attribute test: a name, and perhaps an equals sign and a
value. -/
def readAttribute : Read (String × Option String) := fun cs => do
  let (name, cs) ← readName cs
  match eat? "=" cs with
  | none => pure ((name, none), cs)
  | some cs =>
    let (value, cs) ← readQuoted cs
    pure ((name, some value), cs)

/-- The value of a row of decimal digits. -/
def numberOf (digits : List Char) : Nat :=
  digits.foldl (fun n c => n * 10 + (c.toNat - 0x30)) 0

/-- Read a position that starts with a digit and has something behind its last digit. -/
def readPosition? (cs : List Char) : Option (Except Fault (Nat × List Char)) :=
  let digits := cs.takeWhile Char.isDigit
  let rest := cs.dropWhile Char.isDigit
  if digits.isEmpty || rest.isEmpty then none
  else
    let place := numberOf digits
    if Nat.pow 2 64 ≤ place then some (.error .hugePosition)
    else if place = 0 then some (.error .positionZero)
    else some (.ok (place, rest))

/-- Read what stands between the brackets of a predicate. -/
def readPredicate : Read Predicate := fun cs =>
  match readPosition? cs with
  | some result => result.map fun (place, cs) => (.position place, cs)
  | none =>
    match eat? "self::" cs with
    | some cs => (readName cs).map fun (name, cs) => (.selfTag name, cs)
    | none =>
      match eat? "@" cs with
      | some cs => (readAttribute cs).map fun ((name, value), cs) => (.attribute name value, cs)
      | none => (readName cs).map fun (name, cs) => (.hasChild name, cs)

/-- All axes. -/
def axes : List Axis :=
  [.child, .self, .parent, .ancestor, .descendant, .precedingSibling, .followingSibling]

/-- Read an axis.  Without one the axis is `child`, unless a double colon follows somewhere behind
what could only be meant as the name of an axis. -/
def readAxis : Read Axis := fun cs =>
  match axes.findSome? fun axis => (eat? axis.write cs).map fun cs => (axis, cs) with
  | some found => .ok found
  | none =>
    let name := beforeDoubleColon cs
    if name.length < cs.length && !name.any (fun c => c == '/' || c == '[') then
      .error (.unknownAxis (String.ofList name))
    else .ok (.child, cs)

/-- Read a name test. -/
def readTest : Read NameTest := fun cs =>
  match eat? "*" cs with
  | some cs => .ok (.any, cs)
  | none => (readName cs).map fun (name, cs) => (.tag name, cs)

/-- Read predicates as long as brackets open.  The number of characters left bounds the number of
predicates. -/
def readPredicates : (bound : Nat) → Read (List Predicate)
  | 0, cs => .ok ([], cs)
  | bound + 1, cs =>
    match eat? "[" cs with
    | none => .ok ([], cs)
    | some cs => do
      let (predicate, cs) ← readPredicate cs
      match eat? "]" cs with
      | none => .error .openBracket
      | some cs =>
        let (predicates, cs) ← readPredicates bound cs
        pure (predicate :: predicates, cs)

/-- Read a step. -/
def readStep : Read Step := fun cs =>
  match eat? ".." cs with
  | some cs => .ok (⟨.parent, .any, []⟩, cs)
  | none =>
    if cs = ['.'] ∨ ['.', '/'].isPrefixOf cs then .ok (⟨.self, .any, []⟩, cs.drop 1)
    else do
      let (axis, cs) ← readAxis cs
      let (test, cs) ← readTest cs
      let (predicates, cs) ← readPredicates cs.length cs
      pure (⟨axis, test, predicates⟩, cs)

/-- Read the steps after the first, each behind a slash.  The number of characters left bounds the
number of steps. -/
def readSteps : (bound : Nat) → Read (List Step)
  | 0, cs => .ok ([], cs)
  | bound + 1, cs =>
    match eat? "/" cs with
    | none => .ok ([], cs)
    | some cs => do
      let (step, cs) ← readStep cs
      let (steps, cs) ← readSteps bound cs
      pure (step :: steps, cs)

/-- Read a query, in front of which a point and a slash mean nothing. -/
def readExpr : Read Expr := fun cs =>
  match eat? "@" cs with
  | some cs => (readAttribute cs).map fun ((name, value), cs) => (.attribute name value, cs)
  | none => do
    let (step, cs) ← readStep ((eat? "./" cs).getD cs)
    let (steps, cs) ← readSteps cs.length cs
    pure (.path (step :: steps), cs)

/-- Read a query that takes up the whole text, but for white space around it. -/
def Expr.parse (source : String) : Except Fault Expr := do
  let cs := (Text.trim source).toList
  if cs.isEmpty then throw .empty
  let (expr, rest) ← readExpr cs
  if rest.all Text.isWhite then pure expr
  else throw (.leftOver (String.ofList rest))

end Query

/-- A query together with the text it was read from. -/
structure Query where
  source : String
  expr : Query.Expr
  deriving DecidableEq

namespace Query

/-- Read a query. -/
def parse (source : String) : Except Fault Query :=
  (Expr.parse source).map fun expr => ⟨source, expr⟩

/-- The elements that a query selects from `n`, without repetition. -/
def select (q : Query) (t : Tree) (n : NodeId) : List NodeId :=
  q.expr.select t n

/-- Whether a query selects anything from `n`. -/
def holds (q : Query) (t : Tree) (n : NodeId) : Bool :=
  !(q.select t n).isEmpty

end Query

end DoxygenRest
