import TypeScribe.Text.Bytes

/-!
# Files

What a path leads to, and a directory as the list of all files and folders around it, every one of
which may be read and written. Places are given from that directory: names lead down, and in front of
them as many names `..` as the way first leads up. The folders above the directory are there as well,
up to the root, from which absolute paths are followed.
-/

namespace TypeScribe

open Text

inductive FileState where
  | missing
  | file (content : ByteArray)
  /-- A folder, or anything else that exists and cannot be read as a file. -/
  | occupied

namespace FileState

def isPresent : FileState → Bool
  | .missing => false
  | _ => true

def text? : FileState → Option String
  | .file content => String.fromUTF8? content
  | _ => none

end FileState

inductive Entry where
  | file (content : ByteArray)
  | folder

-- Deriving would leave open by which of several instances contents are compared.
instance : DecidableEq Entry
  | .file content, .file content' =>
      match ByteArray.instDecidableEq content content' with
      | isTrue h => isTrue (congrArg Entry.file h)
      | isFalse h => isFalse fun heq => h (Entry.file.inj heq)
  | .folder, .folder => isTrue rfl
  | .file _, .folder => isFalse Entry.noConfusion
  | .folder, .file _ => isFalse Entry.noConfusion

structure Directory where
  /-- The names on the way from the directory up to the root, its own name first. -/
  home : List String
  /-- The files and folders, each under the names that lead to it. -/
  entries : List (List String × Entry)
  deriving DecidableEq

namespace Directory

/-- The directory `/tmp/work`, with nothing in it and nothing around it. -/
def empty : Directory := ⟨["work", "tmp"], []⟩

/-- Whether `place` is the directory itself or a folder above it. -/
def isAbove (place : List String) : Bool := place.all (· == "..")

def find? (directory : Directory) (place : List String) : Option Entry :=
  if isAbove place then some .folder else directory.entries.lookup place

def root (directory : Directory) : List String := directory.home.map fun _ => ".."

/-- The folder that `place` is in. The root is in itself. -/
def parent (directory : Directory) (place : List String) : List String :=
  if isAbove place then
    if place.length < directory.home.length then place ++ [".."] else place
  else place.dropLast

/-- The place of this name in the folder at `place`. From above, a name may lead back down to the
directory. -/
def child (directory : Directory) (place : List String) (name : String) : List String :=
  if isAbove place ∧ 0 < place.length ∧ directory.home[place.length - 1]? = some name then
    place.dropLast
  else place ++ [name]

/-- The names in a path. A slash at either end stands beside an empty name. -/
def pathNames (path : List Char) : List Char × List (List Char) :=
  match path with
  | [] => ([], [])
  | c :: rest =>
      let names := pathNames rest
      if c = '/' then ([], names.1 :: names.2) else (c :: names.1, names.2)

/-- Follows names from `place`, each of which has to be looked up in a folder. -/
def follow (directory : Directory) (place : List String) : List String → Option (List String)
  | [] => some place
  | name :: names =>
      if directory.find? place = some .folder then
        if name = "" ∨ name = "." then follow directory place names
        else if name = ".." then follow directory (directory.parent place) names
        else follow directory (directory.child place name) names
      else none

def nameLimit : Nat := 255

def pathLimit : Nat := 4095

/-- The place that a path leads to. Something need not stand there, but it does stand, or could be
made, in a folder. A path that is too long or has a name that is too long leads nowhere, and so does
one with a null character. -/
def locate? (directory : Directory) (path : String) : Option (List String) :=
  match path.toList with
  | [] => none
  | c :: rest =>
      let chars := c :: rest
      let names := (pathNames chars).1 :: (pathNames chars).2
      if chars.contains '\x00' || pathLimit < byteLength chars ||
          names.any fun name => nameLimit < byteLength name then none
      else directory.follow (if c = '/' then directory.root else []) (names.map String.ofList)

def state (directory : Directory) (path : String) : FileState :=
  match (directory.locate? path).bind directory.find? with
  | none => .missing
  | some (.file content) => .file content
  | some .folder => .occupied

/-- The directory with `entry` at `place`, in the order in which places were first filled. -/
def put (directory : Directory) (place : List String) (entry : Entry) : Directory :=
  { directory with
    entries :=
      if (directory.entries.lookup place).isSome then
        directory.entries.map fun old => if old.1 = place then (place, entry) else old
      else directory.entries ++ [(place, entry)] }

/-- The directory after a file is written, unless the path leads nowhere or to a folder. -/
def write? (directory : Directory) (path : String) (content : ByteArray) : Option Directory := do
  let place ← directory.locate? path
  if directory.find? place = some .folder then none
  else return directory.put place (.file content)

/-- The directory with a folder at the end of `names`, below `place`, and at each name on the way. -/
def makeFolders (directory : Directory) (place : List String) : List String → Directory
  | [] => directory
  | name :: names =>
      let place := place ++ [name]
      let directory :=
        if (directory.find? place).isSome then directory else directory.put place .folder
      makeFolders directory place names

def remove (directory : Directory) (place : List String) : Directory :=
  { directory with entries := directory.entries.filter fun entry => !place.isPrefixOf entry.1 }

end Directory

end TypeScribe
