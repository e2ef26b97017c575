import DoxygenRest.Xml.Escape

/-!
# Attributes of a tag

The attributes behind the name of a start tag, as a row of `name = "value"` items with blanks
around each part.  Faults are found from left to right: the items before a fault are read in full,
references in their values included, before the fault itself is reported.  All offsets count bytes
from the first character of the tag's name.
-/

namespace DoxygenRest.Xml

/-- The blanks that separate the parts of a tag. -/
def isSpace (c : Char) : Bool :=
  c == ' ' || c == '\t' || c == '\n' || c == '\x0d'

/-- The characters that go on with the name of an attribute. -/
def isNamePart (c : Char) : Bool :=
  !(c == '=' || isSpace c)

/-- The characters that open, and close, a quoted value. -/
def isQuote (c : Char) : Bool :=
  c == '\x22' || c == '\x27'

/-- An attribute as it is written: references in its value are not yet read. -/
structure WrittenAttribute where
  name : List Char
  value : List Char
  /-- The number of characters from the name's first to the closing quote. -/
  width : Nat

/-- Read one attribute from the start of `cs`, which lies at offset `start` of a tag that ends at
offset `stop`.  `seen` holds the names before it with their offsets.  Any character may begin a
name. -/
def attributeAt (stop start : Nat) (seen : List (List Char × Nat)) (cs : List Char) :
    Except AttributeError WrittenAttribute :=
  let name := cs.take 1 ++ (cs.drop 1).takeWhile isNamePart
  let afterName := (cs.drop 1).dropWhile isNamePart
  let gap := afterName.takeWhile isSpace
  match afterName.dropWhile isSpace with
  | [] => .error (.missingEquals stop)
  | '=' :: afterEquals =>
    match seen.lookup name with
    | some previous => .error (.duplicate start previous)
    | none =>
      let pad := afterEquals.takeWhile isSpace
      match afterEquals.dropWhile isSpace with
      | [] => .error (.missingValue stop)
      | quote :: afterQuote =>
        if isQuote quote then
          let value := afterQuote.takeWhile (· != quote)
          if value.length < afterQuote.length then
            .ok ⟨name, value, name.length + gap.length + pad.length + value.length + 3⟩
          else .error (.openQuote stop quote)
        else .error (.unquotedValue (start + Text.byteSize name + gap.length + 1 + pad.length))
  | _ => .error (.missingEquals (start + Text.byteSize name + gap.length))

/-- Read the attributes in `cs`, which lies at byte `offset` of a tag that ends at offset
`stop`. -/
def attributesFrom (stop offset : Nat) (seen : List (List Char × Nat)) (cs : List Char) :
    Except Error (List (String × String)) :=
  match h : cs.dropWhile isSpace with
  | [] => .ok []
  | first :: rest => do
    let start := offset + (cs.takeWhile isSpace).length
    let item ← (attributeAt stop start seen (first :: rest)).mapError .inTag
    let value ← (resolve item.value).mapError .reference
    let others ← attributesFrom stop
      (start + Text.byteSize ((first :: rest).take item.width)) ((item.name, start) :: seen)
      (rest.drop (item.width - 1))
    pure ((String.ofList item.name, value) :: others)
termination_by cs.length
decreasing_by
  have := (List.dropWhile_sublist isSpace (l := cs)).length_le
  rw [h] at this
  simp only [List.length_cons, List.length_drop] at this ⊢
  omega

/-- The name in a tag: what stands before the first blank. -/
def tagName (content : List Char) : List Char :=
  content.takeWhile fun c => !isSpace c

/-- The attributes in a tag, in the order in which they are written. -/
def attributes (content : List Char) : Except Error (List (String × String)) :=
  attributesFrom (Text.byteSize content) (Text.byteSize (tagName content)) []
    (content.dropWhile fun c => !isSpace c)

end DoxygenRest.Xml
