import DoxygenRest.Text.White

/-!
# Blocks of text

The body of a block is indented below its marker.  Blank lines are left as they are, so that they
hold no trailing blanks.
-/

namespace DoxygenRest.Rest

/-- A row of blanks. -/
def blanks (width : Nat) : List Char :=
  List.replicate width ' '

/-- Indent a line, unless it is blank. -/
def indentLine (width : Nat) (line : List Char) : List Char :=
  if line.all Text.isWhite then line else blanks width ++ line

/-- Indent each line of a text that is not blank. -/
def indent (text : String) (width : Nat) : String :=
  String.ofList (['\n'].intercalate ((text.toList.splitOn '\n').map (indentLine width)))

/-- The indentation of the body of a directive. -/
def directiveIndent : Nat := 3

/-- A directive with its body. -/
def directive (header body : String) : String :=
  header ++ "\n\n" ++ indent body directiveIndent ++ "\n\n"

/-- Paragraphs with blank lines between them. -/
def joinParagraphs (paragraphs : List String) : String :=
  "\n\n".intercalate paragraphs

/-- A formula without the dollar signs around it: one in front and one behind, each with the white
space around it. -/
def stripDollars (formula : String) : String :=
  let cs := formula.toList
  let opened :=
    match cs.dropWhile Text.isWhite with
    | '$' :: rest => rest.dropWhile Text.isWhite
    | _ => cs
  let trimmed := Text.dropEndWhile Text.isWhite opened
  String.ofList <|
    if trimmed.getLast? = some '$' then Text.dropEndWhile Text.isWhite trimmed.dropLast else opened

end DoxygenRest.Rest
