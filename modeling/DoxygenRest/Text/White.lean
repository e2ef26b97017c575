/-!
# White space

White space is Unicode's `White_Space` property: the ASCII controls from tab to carriage return,
the space, and the spaces and separators beyond ASCII.  Trimming and blankness are defined here
once, on lists of characters, and lifted to strings.
-/

namespace DoxygenRest.Text

/-- Unicode's `White_Space` property. -/
def isWhite (c : Char) : Bool :=
  let n := c.toNat
  (9 ≤ n && n ≤ 13) || n == 0x20 || n == 0x85 || n == 0xA0 || n == 0x1680 ||
    (0x2000 ≤ n && n ≤ 0x200A) || n == 0x2028 || n == 0x2029 || n == 0x202F || n == 0x205F ||
    n == 0x3000

/-- Drop the longest run at the end whose items all satisfy `p`. -/
def dropEndWhile {α : Type} (p : α → Bool) (cs : List α) : List α :=
  (cs.reverse.dropWhile p).reverse

/-- The longest run at the end whose items all satisfy `p`. -/
def takeEndWhile {α : Type} (p : α → Bool) (cs : List α) : List α :=
  (cs.reverse.takeWhile p).reverse

/-- A list is cut in two by its longest run at the end. -/
theorem dropEndWhile_append_takeEndWhile {α : Type} (p : α → Bool) (cs : List α) :
    dropEndWhile p cs ++ takeEndWhile p cs = cs := by
  rw [dropEndWhile, takeEndWhile, ← List.reverse_append, List.takeWhile_append_dropWhile,
    List.reverse_reverse]

/-- A text without its leading white space. -/
def trimStart (s : String) : String :=
  String.ofList (s.toList.dropWhile isWhite)

/-- A text without its trailing white space. -/
def trimEnd (s : String) : String :=
  String.ofList (dropEndWhile isWhite s.toList)

/-- A text without its leading and trailing white space. -/
def trim (s : String) : String :=
  trimEnd (trimStart s)

/-- A text is blank if it holds nothing but white space; the empty text is blank. -/
def isBlank (s : String) : Bool :=
  s.toList.all isWhite

/-- Split a text into its leading white space, its body and its trailing white space.  A blank text
is all leading. -/
def splitBlanks (s : String) : String × String × String :=
  let rest := s.toList.dropWhile isWhite
  (String.ofList (s.toList.takeWhile isWhite), String.ofList (dropEndWhile isWhite rest),
    String.ofList (takeEndWhile isWhite rest))

/-- Whether a text starts or ends with white space. -/
def hasOuterBlanks (s : String) : Bool :=
  s.toList.head?.any isWhite || s.toList.getLast?.any isWhite

/-- The number of bytes a list of characters takes in UTF-8. -/
def byteSize (cs : List Char) : Nat :=
  cs.foldr (fun c size => c.utf8Size + size) 0

end DoxygenRest.Text
