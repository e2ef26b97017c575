/-!
# Errors in XML text

The causes for which a piece of XML text is refused, from the outermost rule (markup that never
ends) to the innermost (a character reference that names no character), each with its wording.
Positions inside a tag, an attribute value or a text count bytes of UTF-8.
-/

namespace DoxygenRest.Xml

/-- Markup that cannot be told apart from what follows it. -/
inductive MarkupError where
  /-- After an exclamation mark comes neither a comment, nor CDATA, nor a document type. -/
  | unknownDeclaration
  | openComment
  | openCdata
  | openDoctype
  | openInstruction
  | openTag
  deriving DecidableEq

/-- The wording of a markup error. -/
def MarkupError.message : MarkupError → String
  | unknownDeclaration => "unknown or missed symbol in markup"
  | openComment => "comment not closed: `-->` not found before end of input"
  | openCdata => "CDATA not closed: `]]>` not found before end of input"
  | openDoctype => "DOCTYPE not closed: `>` not found before end of input"
  | openInstruction =>
    "processing instruction or xml declaration not closed: `?>` not found before end of input"
  | openTag => "tag not closed: `>` not found before end of input"

/-- Markup that is readable but has no place in a document. -/
inductive FormError where
  /-- A document type declaration without a name. -/
  | namelessDoctype
  /-- An end tag where no element is open. -/
  | strayEndTag (name : String)
  /-- An end tag for another element than the one open last. -/
  | crossedEndTag (expected found : String)
  deriving DecidableEq

/-- The wording of a form error. -/
def FormError.message : FormError → String
  | namelessDoctype =>
    "`<!DOCTYPE>` declaration does not contain a name of a document type"
  | strayEndTag name => "close tag `</" ++ name ++ ">` does not match any open tag"
  | crossedEndTag expected found =>
    "expected `</" ++ expected ++ ">`, but `</" ++ found ++ ">` was found"

/-- A fault in the attributes of a tag, with its byte offset in the tag. -/
inductive AttributeError where
  /-- A name without an equals sign behind it. -/
  | missingEquals (position : Nat)
  /-- An equals sign with nothing behind it. -/
  | missingValue (position : Nat)
  /-- A value that does not start with a quote. -/
  | unquotedValue (position : Nat)
  /-- A value without its closing quote. -/
  | openQuote (position : Nat) (quote : Char)
  /-- A name that stands at an earlier offset already. -/
  | duplicate (position previous : Nat)
  deriving DecidableEq

/-- The wording of an attribute error. -/
def AttributeError.message : AttributeError → String
  | missingEquals position =>
    "position " ++ toString position ++
      ": attribute key must be directly followed by `=` or space"
  | missingValue position =>
    "position " ++ toString position ++ ": `=` must be followed by an attribute value"
  | unquotedValue position =>
    "position " ++ toString position ++ ": attribute value must be enclosed in `\"` or `'`"
  | openQuote position quote =>
    "position " ++ toString position ++ ": missing closing quote `" ++ quote.toString ++
      "` in attribute value"
  | duplicate position previous =>
    "position " ++ toString position ++ ": duplicated attribute, previous declaration at position " ++
      toString previous

/-- Why the digits of a character reference are no number. -/
inductive NumberError where
  | noDigits
  | badDigit
  /-- The number does not fit in 32 bits. -/
  | tooLarge
  deriving DecidableEq

/-- The wording of a number error. -/
def NumberError.message : NumberError → String
  | noDigits => "cannot parse integer from empty string"
  | badDigit => "invalid digit found in string"
  | tooLarge => "number too large to fit in target type"

/-- Why the number in a character reference stands for no character. -/
inductive CharacterError where
  /-- A sign in front of the digits. -/
  | signedNumber
  | number (cause : NumberError)
  /-- The null character. -/
  | nullCharacter
  /-- A number that no character has. -/
  | noCharacter (code : Nat)
  deriving DecidableEq

namespace CharacterError

/-- The wording of a character error. -/
def message : CharacterError → String
  | signedNumber => "unexpected number sign"
  | number cause => cause.message
  | nullCharacter => "0x0 character is not permitted in XML"
  | noCharacter code => "`" ++ toString code ++ "` is not a valid codepoint"

/-- The wordings from the error to its innermost cause. -/
def causes (e : CharacterError) : List String :=
  e.message :: match e with
    | number cause => [cause.message]
    | _ => []

end CharacterError

/-- Why a reference in text stands for no text; ranges count bytes of the text it occurs in. -/
inductive ReferenceError where
  /-- An ampersand without a semicolon before the next ampersand or the end. -/
  | unterminated (start stop : Nat)
  /-- A name that is not predefined. -/
  | unknownEntity (start stop : Nat) (name : String)
  /-- A reference by number that names no character. -/
  | character (cause : CharacterError)
  deriving DecidableEq

namespace ReferenceError

/-- The wording of a reference error. -/
def message : ReferenceError → String
  | unterminated start stop =>
    "Error while escaping character at range " ++ toString start ++ ".." ++ toString stop ++
      ": Cannot find ';' after '&'"
  | unknownEntity start stop name =>
    "at " ++ toString start ++ ".." ++ toString stop ++ ": unrecognized entity `" ++ name ++ "`"
  | character cause => "invalid character reference: " ++ cause.message

/-- The wordings from the error to its innermost cause. -/
def causes (e : ReferenceError) : List String :=
  e.message :: match e with
    | character cause => cause.causes
    | _ => []

end ReferenceError

/-- Why XML text is refused. -/
inductive Error where
  | markup (cause : MarkupError)
  | form (cause : FormError)
  | inTag (cause : AttributeError)
  | reference (cause : ReferenceError)
  deriving DecidableEq

namespace Error

/-- The wording of an error; faults of references speak for themselves. -/
def message : Error → String
  | markup cause => "syntax error: " ++ cause.message
  | form cause => "ill-formed document: " ++ cause.message
  | inTag cause => "error while parsing attribute: " ++ cause.message
  | reference cause => cause.message

/-- The wordings from the error to its innermost cause. -/
def causes (e : Error) : List String :=
  e.message :: match e with
    | markup cause => [cause.message]
    | form cause => [cause.message]
    | inTag cause => [cause.message]
    | reference cause => cause.causes

end Error

end DoxygenRest.Xml
