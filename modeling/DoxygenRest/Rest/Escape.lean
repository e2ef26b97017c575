import DoxygenRest.Text.Letter
import DoxygenRest.Text.White

/-!
# Escaping running text

In reStructuredText the asterisk, the backquote, the vertical bar and the backslash are markup
wherever they stand, and an underscore is markup where it ends a word, for `name_` is a reference.
`escape` puts a backslash in front of each of them.  `unescape` takes the backslashes away again.
-/

namespace DoxygenRest.Rest

/-- Whether a character, in front of `next?`, would be taken for markup. -/
def isMarkup (c : Char) (next? : Option Char) : Bool :=
  c == '\\' || c == '*' || c == '\x60' || c == '|' || (c == '_' && !next?.any Text.isWord)

/-- Put a backslash in front of each markup character. -/
def escapeChars : List Char → List Char
  | [] => []
  | c :: rest =>
    if isMarkup c rest.head? then '\\' :: c :: escapeChars rest else c :: escapeChars rest

/-- Take away each backslash that stands in front of a character, and keep that character. -/
def unescapeChars : List Char → List Char
  | [] => []
  | ['\\'] => ['\\']
  | '\\' :: c :: rest => c :: unescapeChars rest
  | c :: rest => c :: unescapeChars rest

/-- Running text with its markup characters escaped. -/
def escape (text : String) : String :=
  String.ofList (escapeChars text.toList)

/-- Escaped text with its escapes undone. -/
def unescape (text : String) : String :=
  String.ofList (unescapeChars text.toList)

end DoxygenRest.Rest
