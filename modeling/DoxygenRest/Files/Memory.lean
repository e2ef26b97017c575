import DoxygenRest.Files.Basic
import DoxygenRest.Text.White

/-!
# Files in memory

A directory tree as a value, for hosts without a disk.  A path is followed name by name from the
root or from the working directory; every name but the last has to be that of a directory, and the
names `.` and `..` and the empty name need one to stand in, too.
-/

namespace DoxygenRest

/-- What stands at a place of a directory tree. -/
inductive Memory.Item where
  | file (content : ByteArray)
  | directory

/-- A directory tree.  A place is given by the names that lead to it from the root. -/
structure Memory where
  /-- The working directory. -/
  current : List String := []
  /-- What stands where, the root excepted; of two items at a place the first counts. -/
  items : List (List String × Memory.Item) := []

namespace Memory

/-- What stands at a place. -/
def item? (memory : Memory) (place : List String) : Option Item :=
  if place = [] then some .directory else memory.items.lookup place

/-- Whether a directory stands at a place. -/
def hasDirectory (memory : Memory) (place : List String) : Bool :=
  match memory.item? place with
  | some .directory => true
  | _ => false

/-- Put an item at a place. -/
def put (memory : Memory) (place : List String) (item : Item) : Memory :=
  { memory with items := (place, item) :: memory.items }

/-- Make a directory at a place, and at every place on the way to it. -/
def putDirectory (memory : Memory) (place : List String) : Memory :=
  (List.range (place.length + 1)).foldl (fun memory depth =>
    let place := place.take depth
    if (memory.item? place).isNone then memory.put place .directory else memory) memory

/-- Put a file at a place, in a directory that is made if need be. -/
def putFile (memory : Memory) (place : List String) (content : ByteArray) : Memory :=
  (memory.putDirectory place.dropLast).put place (.file content)

/-! ### Following paths -/

/-- The names in a path: what stands between its slashes, empty or not. -/
def names (path : String) : List String :=
  (path.toList.splitOn '/').map String.ofList

/-- The most bytes in a path. -/
def maxPathSize : Nat := 4095

/-- The most bytes in a name. -/
def maxNameSize : Nat := 255

/-- The place from which a path is followed, for a path that can be followed at all. -/
def origin (memory : Memory) (path : String) : Except FileError (List String) :=
  if path = "" then .error .notFound
  else if path.toList.contains '\x00' then .error .nullInPath
  else if maxPathSize < Text.byteSize path.toList then .error .nameTooLong
  else if Files.isAbsolute path then .ok []
  else .ok memory.current

/-- Go one name further from a place. -/
def enter (memory : Memory) (place : List String) (name : String) :
    Except FileError (List String) :=
  if !memory.hasDirectory place then .error .notDirectory
  else if name = "" ∨ name = "." then .ok place
  else if name = ".." then .ok place.dropLast
  else if maxNameSize < Text.byteSize name.toList then .error .nameTooLong
  else if (memory.item? (place ++ [name])).isSome then .ok (place ++ [name])
  else .error .notFound

/-- The place that a path leads to. -/
def find (memory : Memory) (path : String) : Except FileError (List String) := do
  (names path).foldlM memory.enter (← memory.origin path)

/-- The content of the file that a path leads to. -/
def read (memory : Memory) (path : String) : Except FileError ByteArray := do
  match memory.item? (← memory.find path) with
  | some (.file content) => .ok content
  | some .directory => .error .isDirectory
  | none => .error .notFound

/-- Write the file that a path leads to.  The path may end in a name that is not there yet. -/
def write (memory : Memory) (path : String) (content : ByteArray) : Except FileError Memory := do
  let start ← memory.origin path
  let shortened := Text.dropEndWhile (· = "") (names path)
  let directory ← shortened.dropLast.foldlM memory.enter start
  if !memory.hasDirectory directory then .error .notDirectory
  else if shortened ≠ names path then .error .isDirectory
  else
    let name := shortened.getLastD ""
    if name = "" ∨ name = "." ∨ name = ".." then .error .isDirectory
    else if maxNameSize < Text.byteSize name.toList then .error .nameTooLong
    else if memory.hasDirectory (directory ++ [name]) then .error .isDirectory
    else .ok (memory.put (directory ++ [name]) (.file content))

end Memory

instance : Files (StateM Memory) where
  isDirectory path := do
    let memory ← get
    match memory.find path with
    | .ok place => return memory.hasDirectory place
    | .error _ => return false
  isPresent path := do
    match (← get).find path with
    | .ok _ => return true
    | .error _ => return false
  readBytes path := do
    return (← get).read path
  writeBytes path content := do
    match (← get).write path content with
    | .ok memory =>
      set memory
      return .ok ()
    | .error failure => return .error failure

end DoxygenRest
