import DoxygenRest.Json.Fault

/-!
# Reading JSON text piece by piece

A text is read from left to right by readers, each of which takes what it knows from the front of
the rest.  There is no going back, so that of two faults in a text the one further left is reported,
be it a fault in the text or a value that nobody asked for.
-/

namespace DoxygenRest.Json

/-- What is still to be read, and the byte offset where it starts. -/
structure Source where
  rest : List Char
  offset : Nat := 0
  deriving DecidableEq

/-- A reader of the front of a text. -/
abbrev Read := EStateM Fault Source

/-- The next character. -/
def peek : Read (Option Char) := do
  return (← get).rest.head?

/-- Move past the next character. -/
def advance : Read Unit :=
  modify fun source =>
    match source.rest with
    | [] => source
    | c :: rest => ⟨rest, source.offset + c.utf8Size⟩

/-- Stop right here. -/
def failHere {α : Type} (cause : Cause) : Read α := do
  throw ⟨cause, (← get).offset⟩

/-- Stop behind the first byte of what follows, or at the end. -/
def failAhead {α : Type} (cause : Cause) : Read α := do
  let source ← get
  throw ⟨cause, if source.rest.isEmpty then source.offset else source.offset + 1⟩

/-- Take the longest run of characters that satisfy `p`. -/
def takeRun (p : Char → Bool) : Read (List Char) := do
  let source ← get
  let run := source.rest.takeWhile p
  let size := run.foldr (fun c size => c.utf8Size + size) 0
  set (Source.mk (source.rest.dropWhile p) (source.offset + size))
  return run

/-- White space between the parts of a text: spaces, tabs and line ends. -/
def isGap (c : Char) : Bool :=
  c == ' ' || c == '\t' || c == '\n' || c == '\x0d'

/-- The next character that is no white space. -/
def peekPart : Read (Option Char) := do
  discard (takeRun isGap)
  peek

/-- Take the next character if it satisfies `p`. -/
def takeIf (p : Char → Bool) : Read Bool := do
  match ← peek with
  | some c =>
    if p c then
      advance
      return true
    else return false
  | none => return false

/-- Take the rest of a word whose first character has been taken. -/
def takeWord : List Char → Read Unit
  | [] => return
  | expected :: word => do
    match ← peek with
    | none => failHere (.ended .value)
    | some c =>
      if c = expected then
        advance
        takeWord word
      else failAhead .expectedWord

/-- Repeat a round, at most `steps` times, until it comes to a result. -/
def repeatFor {σ α : Type} (round : σ → Read (σ ⊕ α)) : (steps : Nat) → σ → Read α
  | 0, _ => failHere (.ended .value)
  | steps + 1, s => do
    match ← round s with
    | .inl s => repeatFor round steps s
    | .inr result => return result

/-- Repeat a round until it comes to a result.  At least every second round has to read
something; then the rounds do not outlast the text. -/
def repeatUntil {σ α : Type} (round : σ → Read (σ ⊕ α)) (start : σ) : Read α := do
  repeatFor round (2 * (← get).rest.length + 2) start

end DoxygenRest.Json
