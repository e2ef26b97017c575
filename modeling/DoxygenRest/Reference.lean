/-!
# Targets of references

What the documentation refers to, as far as the choice of a role in the output goes.  A resolver
finds the target of a reference by its identifier; a reference without target is no error.
-/

namespace DoxygenRest

/-- The kind of thing that a reference points at. -/
inductive TargetKind where
  | function
  | define
  | typedef
  | struct
  | union
  | enum
  | enumerator
  | var
  | other
  deriving DecidableEq

/-- The kind that an index names. -/
def TargetKind.ofIndexKind (kind : String) : TargetKind :=
  if kind = "function" then .function
  else if kind = "define" then .define
  else if kind = "typedef" then .typedef
  else if kind = "struct" then .struct
  else if kind = "union" then .union
  else if kind = "enum" then .enum
  else if kind = "enumvalue" then .enumerator
  else if kind = "variable" then .var
  else .other

/-- The name of a kind in the output. -/
def TargetKind.name : TargetKind → String
  | function => "function"
  | define => "macro"
  | typedef => "typedef"
  | struct => "struct"
  | union => "union"
  | enum => "enum"
  | enumerator => "enumerator"
  | var => "variable"
  | other => "other"

/-- What a reference points at. -/
structure Target where
  kind : TargetKind
  name : String
  deriving DecidableEq

/-- Finds the target of a reference by its identifier. -/
abbrev Resolver := String → Option Target

/-- The resolver that finds nothing. -/
def Resolver.none : Resolver := fun _ => Option.none

end DoxygenRest
