import DoxygenRest.Query.Basic

/-!
# Writing path queries

The full written form of a query.  Every step names its axis, and a value stands in single quotes
unless it holds one itself.  So each query has one form, where a reader may accept several: `title`,
`./title` and `child::title` are all written `child::title`.
-/

namespace DoxygenRest.Query

/-- A value in quotes.  A value that holds both kinds of quotes has no written form. -/
def writeValue (value : String) : String :=
  if value.toList.contains '\x27' then "\"" ++ value ++ "\"" else "'" ++ value ++ "'"

/-- An attribute test: an at sign, the name, and the value if there is one. -/
def writeAttribute (name : String) : (value : Option String) → String
  | none => "@" ++ name
  | some value => "@" ++ name ++ "=" ++ writeValue value

/-- The written form of a name test. -/
def NameTest.write : NameTest → String
  | .any => "*"
  | .tag name => name

/-- What stands between the brackets of a predicate. -/
def Predicate.write : Predicate → String
  | .position place => toString place
  | .selfTag name => "self::" ++ name
  | .hasChild name => name
  | .attribute name value => writeAttribute name value

/-- The written form of a step. -/
def Step.write (s : Step) : String :=
  s.axis.write ++ s.test.write ++
    String.join (s.predicates.map fun predicate => "[" ++ predicate.write ++ "]")

/-- The written form of a query. -/
def Expr.write : Expr → String
  | .path steps => "/".intercalate (steps.map Step.write)
  | .attribute name value => writeAttribute name value

end DoxygenRest.Query
