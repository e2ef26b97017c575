import DoxygenRest.Files.Basic
import DoxygenRest.Index.Basic
import DoxygenRest.Xml.Document

/-!
# Directories of documentation

A directory of documentation holds an index document and one document for each compound.  The
definition of a compound is an element of its own document; that of a member is an element of the
document of the compound it is listed under.
-/

namespace DoxygenRest

/-- Why an index does not yield what was asked of it. -/
inductive IndexError where
  /-- A file cannot be read. -/
  | file (cause : FileError)
  /-- A file is no document. -/
  | document (cause : Xml.DocumentError)
  | unknownListing (refid : String)
  /-- The document in this file defines no such thing. -/
  | undefined (tag refid fileName : String)
  /-- The document in this file defines the same thing more than once. -/
  | ambiguous (tag refid fileName : String)
  deriving DecidableEq

namespace IndexError

/-- The wording of an index error. -/
def message : IndexError → String
  | file cause => "IO error: " ++ cause.message
  | document cause => "Tree error: " ++ cause.message
  | unknownListing refid =>
    "Lookup failed: No compound or member with refid " ++ Text.quoted refid
  | undefined tag refid fileName =>
    "Lookup failed: No <" ++ tag ++ "> with id " ++ Text.quoted refid ++ " in " ++ fileName
  | ambiguous tag refid fileName =>
    "Lookup failed: Multiple <" ++ tag ++ ">s with id " ++ Text.quoted refid ++ " in " ++ fileName

/-- The wordings from the error to its innermost cause. -/
def causes (e : IndexError) : List String :=
  e.message :: match e with
    | file cause => [cause.message]
    | document cause => cause.causes
    | _ => []

end IndexError

/-- An element together with the document that owns it. -/
structure Definition where
  document : Tree
  node : NodeId

namespace Index

variable {m : Type → Type} [Monad m] [Files m]

/-- Read a document of a directory, without its blank text. -/
def readDocument (directory fileName : String) : ExceptT IndexError m Tree := do
  let text ← ExceptT.adapt .file (Files.readText (Files.join directory fileName))
  match Tree.parse .strip text with
  | .ok document => return document
  | .error cause => throw (.document cause)

/-- Read the index of a directory. -/
def load (directory : String) : ExceptT IndexError m Index := do
  return { directory, document := ← readDocument directory "index.xml" }

/-- The first listing with this identifier, whose absence is an error. -/
def listing (index : Index) (refid : String) : Except IndexError NodeId :=
  match index.get? refid with
  | some n => .ok n
  | none => .error (.unknownListing refid)

/-- The one element with this tag and identifier in the document that a file holds. -/
def definedIn (document : Tree) (tag refid fileName : String) : Except IndexError NodeId :=
  match (document.descendants Tree.root).filter fun n =>
      document.tag n == tag && document.attribute? n "id" == some refid with
  | [n] => .ok n
  | [] => .error (.undefined tag refid fileName)
  | _ => .error (.ambiguous tag refid fileName)

/-- The definition of a listed compound or member.  Its document is read anew every time. -/
def definition (index : Index) (n : NodeId) : ExceptT IndexError m Definition := do
  let (owner, tag) := match index.compound? n with
    | some compound => (compound, "memberdef")
    | none => (n, "compounddef")
  let fileName := index.refid owner ++ ".xml"
  let document ← readDocument index.directory fileName
  let node ← liftExcept (definedIn document tag (index.refid n) fileName)
  return { document, node }

end Index

end DoxygenRest
