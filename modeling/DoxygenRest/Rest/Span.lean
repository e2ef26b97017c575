import DoxygenRest.Rest.Escape
import DoxygenRest.Text.Punctuation

/-!
# Inline markup spans

In reStructuredText the start of inline markup is seen only behind white space or certain
punctuation, and its end only in front of white space or certain punctuation.  A span that touches
other text is set apart by an escape, a backslash and a blank in front of it (`\ `) and a backslash
behind it, neither of which shows: `x**bold**y` is written `x\ **bold**\y`.

The start of a span is not seen either between an opening quote or bracket and its partner, so that
`(*)` is no emphasis; there the escape is needed as well.
-/

namespace DoxygenRest.Rest

/-! ### Quotes and brackets -/

/-- The quotes whose partner depends on the language, with all their partners. -/
def quotePartners : List (Char × List Char) :=
  [('\u00AB', ['\u00BB']), ('\u00BB', ['\u00AB', '\u00BB']), ('\u2018', ['\u2019', '\u201A']),
   ('\u2019', ['\u2019']), ('\u201A', ['\u2018', '\u2019']), ('\u201C', ['\u201D', '\u201E']),
   ('\u201D', ['\u201D']), ('\u201E', ['\u201C', '\u201D']), ('\u2039', ['\u203A']),
   ('\u203A', ['\u2039', '\u203A'])]

/-- The partners of the ASCII quotes and brackets. -/
def asciiPartners : List (Char × Char) :=
  [('\x27', '\x27'), ('\x22', '\x22'), ('<', '>'), ('(', ')'), ('[', ']'), ('\x7b', '\x7d')]

/-- Whether a character opens a quotation or a bracket. -/
def opens (c : Char) : Bool :=
  (asciiPartners.lookup c).isSome || Text.isOpening c || Text.isInitialQuote c ||
    Text.isFinalQuote c

/-- Whether `close` closes what `opener` opens.  Brackets beyond ASCII stand next to their partners
in the code chart. -/
def closes (opener close : Char) : Bool :=
  match asciiPartners.lookup opener, quotePartners.lookup opener with
  | some partner, _ => close == partner
  | none, some partners => partners.contains close
  | none, none =>
    Text.isOpening opener && Text.isClosing close && opener.toNat + 1 == close.toNat

/-! ### Where a span needs to be set apart -/

/-- Whether a span that begins with `first` has to be set apart from `before`, the character in front
of it. -/
def needsLeadingEscape (before first : Option Char) : Bool :=
  match before with
  | none => false
  | some before =>
    if before == '*' || before == '\x60' || before == '|' || before == '_' then true
    else if opens before then first.any (closes before)
    else if Text.isWhite before || before == '-' || before == ':' || before == '/' then false
    else !(Text.isDash before || Text.isOtherPunctuation before)

/-- The ASCII characters in front of which the end of a span is seen. -/
def asciiFollowers : List Char :=
  ['.', ',', ';', ':', '!', '?', '\\', '/', '\x27', '\x22', ')', ']', '\x7d', '>', '-']

/-- Whether a span has to be set apart from `after`, the character behind it. -/
def needsTrailingEscape (after : Option Char) : Bool :=
  match after with
  | none => false
  | some after =>
    if Text.isWhite after || asciiFollowers.contains after then false
    else !(Text.isClosing after || Text.isDash after || Text.isOtherPunctuation after ||
      Text.isInitialQuote after || Text.isFinalQuote after)

/-- What sets a span that begins with `first` apart from the text in front of it. -/
def leadingEscape (before : String) (first : Option Char) : String :=
  if needsLeadingEscape before.toList.getLast? first then "\\ " else ""

/-- What sets a span apart from the text behind it. -/
def trailingEscape (tail : String) : String :=
  if needsTrailingEscape tail.toList.head? then "\\" else ""

/-- Put finished text between delimiters, behind the text `before` and in front of `tail`, which is
running text. -/
def wrap (opening inner closing tail before : String) : String :=
  leadingEscape before inner.toList.head? ++ opening ++ inner ++ closing ++
    trailingEscape (escape tail) ++ escape tail

/-! ### The spans -/

/-- A kind of span. -/
structure Span where
  /-- What stands in front of the content. -/
  opening : String
  /-- What stands behind the content. -/
  closing : String
  /-- Whether the content is running text, to be escaped, or is taken as it is. -/
  escapes : Bool
  deriving DecidableEq

namespace Span

def bold : Span := ⟨"**", "**", true⟩

def emphasis : Span := ⟨"*", "*", true⟩

def literal : Span := ⟨"``", "``", false⟩

def subscript : Span := ⟨":sub:`", "`", true⟩

def superscript : Span := ⟨":sup:`", "`", true⟩

def math : Span := ⟨":math:`", "`", false⟩

/-- A reference whose target is not known. -/
def unresolved : Span := ⟨"`!", "`", true⟩

/-- The span of a text, behind `before` and in front of `tail`. -/
def render (s : Span) (text tail before : String) : String :=
  wrap s.opening (if s.escapes then escape text else text) s.closing tail before

end Span

end DoxygenRest.Rest
