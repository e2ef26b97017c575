import DoxygenRest.Xml.Attribute

/-!
# Reading XML text

A document is read as a row of events: tags with their attributes, runs of text, CDATA sections,
and the markup that carries no content.  Each event comes with the byte offset of its first
character; a byte order mark in front counts for nothing.

The reader keeps the names of the open elements and refuses an end tag that does not close the
element opened last.  It asks no more of a document: a document may end while elements are open,
and may have several elements, or none, at the top.
-/

namespace DoxygenRest.Xml

/-- A piece of a document. -/
inductive Event where
  /-- A start tag. -/
  | start (tag : String) (attributes : List (String × String))
  /-- A tag that opens and closes an element at once. -/
  | empty (tag : String) (attributes : List (String × String))
  /-- An end tag. -/
  | stop (tag : String)
  /-- A run of text with its references read. -/
  | text (content : String)
  /-- A section of text without references. -/
  | cdata (content : String)
  | comment
  /-- A processing instruction or the XML declaration. -/
  | instruction
  | doctype
  deriving DecidableEq

/-- The events read from a document, each with its offset, up to the end or the first fault. -/
structure Reading where
  events : List (Nat × Event)
  failure? : Option (Nat × Error)
  deriving DecidableEq

/-- A reading that starts with one more event. -/
def Reading.cons (position : Nat) (event : Event) (r : Reading) : Reading :=
  { r with events := (position, event) :: r.events }

/-! ### Where markup ends

Every piece of markup ends at a `>`, but not every `>` ends it.  Each kind of markup has a test on
what lies between its `<` and a `>`, and the first `>` that passes is the end. -/

/-- A comment ends in two hyphens besides the two that open it. -/
def endsComment (body : List Char) : Bool :=
  4 < body.length && ['-', '-'].isSuffixOf body

/-- A CDATA section ends in two closing brackets. -/
def endsCdata (body : List Char) : Bool :=
  [']', ']'].isSuffixOf body

/-- A document type ends where each inner `<` has met its `>`. -/
def endsDoctype (body : List Char) : Bool :=
  body.count '<' == body.count '>'

/-- A processing instruction ends in a question mark. -/
def endsInstruction (body : List Char) : Bool :=
  ['?'].isSuffixOf body

/-- The quote that is open after `cs`, if `open?` was open before. -/
def openQuote? (open? : Option Char) : List Char → Option Char
  | [] => open?
  | c :: rest =>
    match open? with
    | none => openQuote? (if isQuote c then some c else none) rest
    | some quote => openQuote? (if c = quote then none else some quote) rest

/-- A tag ends outside of quotes. -/
def endsTag (body : List Char) : Bool :=
  (openQuote? none body).isNone

/-- Cut `cs` at the first `>` for which what was `taken` before it passes the test `ends`.  The
characters taken so far are kept in reverse order. -/
def cutFrom (ends : List Char → Bool) (taken : List Char) :
    List Char → Option (List Char × List Char)
  | [] => none
  | c :: rest =>
    if c = '>' ∧ ends taken.reverse then some (taken.reverse, rest)
    else cutFrom ends (c :: taken) rest

/-- What a cut leaves is shorter than what was cut. -/
theorem length_lt_of_cutFrom {ends : List Char → Bool} {taken cs body rest : List Char}
    (h : cutFrom ends taken cs = some (body, rest)) : rest.length < cs.length := by
  induction cs generalizing taken with
  | nil => simp [cutFrom] at h
  | cons c cs ih =>
    unfold cutFrom at h
    split at h
    · simp only [Option.some.injEq, Prod.mk.injEq] at h
      simp [h.2]
    · have := ih h
      simp only [List.length_cons]
      omega

/-- The kind of markup that begins with `cs`, given as the test for its end and the fault reported
if no end is found. -/
def markupKind (cs : List Char) : Except MarkupError ((List Char → Bool) × MarkupError) :=
  match cs with
  | '!' :: '[' :: _ => .ok (endsCdata, .openCdata)
  | '!' :: '-' :: _ => .ok (endsComment, .openComment)
  | '!' :: 'D' :: _ => .ok (endsDoctype, .openDoctype)
  | '!' :: 'd' :: _ => .ok (endsDoctype, .openDoctype)
  | '!' :: _ => .error .unknownDeclaration
  | '?' :: _ => .ok (endsInstruction, .openInstruction)
  | _ => .ok (endsTag, .openTag)

/-- Cut the markup whose `<` stands before `cs` from what follows its `>`. -/
def cutMarkup (cs : List Char) : Except MarkupError (List Char × List Char) := do
  let (ends, fault) ← markupKind cs
  match cutFrom ends [] cs with
  | some cut => .ok cut
  | none => .error fault

/-- What a piece of markup leaves is shorter than what it was cut from. -/
theorem length_lt_of_cutMarkup {cs body rest : List Char}
    (h : cutMarkup cs = .ok (body, rest)) : rest.length < cs.length := by
  unfold cutMarkup at h
  cases hk : markupKind cs with
  | error e => simp [hk, bind, Except.bind] at h
  | ok kind =>
    simp only [hk, bind, Except.bind] at h
    split at h
    · rename_i cut hcut
      simp only [Except.ok.injEq] at h
      subst h
      exact length_lt_of_cutFrom hcut
    · simp at h

/-! ### What markup says -/

/-- Whether `cs` starts with a keyword, which is given in upper case, in any case. -/
def startsWithKeyword (keyword cs : List Char) : Bool :=
  (cs.take keyword.length).map Char.toUpper == keyword

/-- The name in an end tag: blanks behind it do not belong to it, but a tag made of blanks alone is
its own name. -/
def endTagName (content : List Char) : List Char :=
  if content.all isSpace then content else Text.dropEndWhile isSpace content

/-- Read an end tag while the elements named in `opened` are open, innermost first. -/
def endTag (opened : List String) (content : List Char) : Except Error (Event × List String) :=
  let name := String.ofList (endTagName content)
  match opened with
  | [] => .error (.form (.strayEndTag name))
  | expected :: outer =>
    if name = expected then .ok (.stop name, outer)
    else .error (.form (.crossedEndTag expected name))

/-- Read a start tag while the elements named in `opened` are open. -/
def startTag (opened : List String) (content : List Char) : Except Error (Event × List String) :=
  if ['/'].isSuffixOf content then do
    let content := content.dropLast
    pure (.empty (String.ofList (tagName content)) (← attributes content), opened)
  else do
    let name := String.ofList (tagName content)
    pure (.start name (← attributes content), name :: opened)

/-- Read what stands between the `<` and the `>` of a piece of markup, while the elements named in
`opened` are open.  The answer holds the event and the names open after it. -/
def interpret (opened : List String) (body : List Char) : Except Error (Event × List String) :=
  match body with
  | '!' :: '[' :: _ =>
    if "![CDATA[".toList.isPrefixOf body then
      .ok (.cdata (String.ofList (body.drop 8).dropLast.dropLast), opened)
    else .error (.markup .openCdata)
  | '!' :: '-' :: _ =>
    if ['!', '-', '-'].isPrefixOf body then .ok (.comment, opened)
    else .error (.markup .openComment)
  | '!' :: _ =>
    if startsWithKeyword "!DOCTYPE".toList body then
      if (body.drop 8).all isSpace then .error (.form .namelessDoctype)
      else .ok (.doctype, opened)
    else .error (.markup .openDoctype)
  | '?' :: more =>
    if more.isEmpty then .error (.markup .openInstruction) else .ok (.instruction, opened)
  | '/' :: content => endTag opened content
  | content => startTag opened content

/-- Read on from byte `position`, where the elements named in `opened` are open, innermost
first. -/
def readFrom (opened : List String) (position : Nat) (cs : List Char) : Reading :=
  match cs with
  | [] => ⟨[], none⟩
  | '<' :: rest =>
    match _h : cutMarkup rest with
    | .error cause => ⟨[], some (position, .markup cause)⟩
    | .ok (body, after) =>
      match interpret opened body with
      | .error cause => ⟨[], some (position, cause)⟩
      | .ok (event, opened) =>
        (readFrom opened (position + Text.byteSize body + 2) after).cons position event
  | c :: rest =>
    let run := c :: rest.takeWhile (· != '<')
    match resolve run with
    | .error cause => ⟨[], some (position, .reference cause)⟩
    | .ok content =>
      (readFrom opened (position + Text.byteSize run) (rest.dropWhile (· != '<'))).cons position
        (.text content)
termination_by cs.length
decreasing_by
  · have := length_lt_of_cutMarkup _h
    simp only [List.length_cons]
    omega
  · have := (List.dropWhile_sublist (· != '<') (l := rest)).length_le
    simp only [List.length_cons]
    omega

/-- The characters of a document without its byte order mark. -/
def withoutByteOrderMark : List Char → List Char
  | '\uFEFF' :: cs => cs
  | cs => cs

/-- Read a document. -/
def read (document : String) : Reading :=
  readFrom [] 0 (withoutByteOrderMark document.toList)

end DoxygenRest.Xml
