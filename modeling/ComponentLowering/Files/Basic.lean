import ComponentLowering.Files.Name
/-!
Trees of files, and what is found in one under a name. Absolute names lead from the root, and all
others from the directory that a program works in.
-/

namespace ComponentLowering

inductive Entry where
  | file (content : ByteArray)
  /-- Entries with their names, in ascending order. -/
  | directory (entries : List (String × Entry))

inductive FileError where
  | notFound
  | notADirectory
  | isADirectory
  | nameTooLong
  /-- A name with a NUL in it, which no file can have. -/
  | nulInName
  | notText
  /-- Anything else that keeps a file from being read, in the words of the system. -/
  | other (text : String)
  deriving DecidableEq, Repr

def FileError.message : FileError → String
  | notFound => "No such file or directory (os error 2)"
  | notADirectory => "Not a directory (os error 20)"
  | isADirectory => "Is a directory (os error 21)"
  | nameTooLong => "File name too long (os error 36)"
  | nulInName => "file name contained an unexpected NUL byte"
  | notText => "stream did not contain valid UTF-8"
  | other text => text

namespace Entry

instance : Inhabited Entry :=
  ⟨.directory []⟩

def isDirectory : Entry → Bool
  | file _ => false
  | directory _ => true

/-- The entries of a directory, and none of a file. -/
def entries : Entry → List (String × Entry)
  | file _ => []
  | directory entries => entries

/-- Puts an entry into its place among others, instead of one that has its name. -/
def place (name : String) (entry : Entry) : List (String × Entry) → List (String × Entry)
  | [] => [(name, entry)]
  | (other, old) :: rest =>
    if name = other then (name, entry) :: rest
    else if name < other then (name, entry) :: (other, old) :: rest
    else (other, old) :: place name entry rest

/-- Puts an entry at a path, making the directories on the way. An existing directory is kept when a
directory is put in its place. -/
def insert (old : Entry) (path : List String) (added : Entry) : Entry :=
  match path with
  | [] => if added.isDirectory ∧ old.isDirectory then old else added
  | name :: path =>
    let inside := (old.entries.lookup name).getD (.directory [])
    .directory (place name (inside.insert path added) old.entries)

end Entry

/-- A place that a name leads to: the entry there, and the directories it lies in, innermost
first. -/
structure Location where
  entry : Entry
  parents : List Entry

/-- A step from one place to another. The root lies in itself. -/
def Location.step (location : Location) (name : String) : Except FileError Location :=
  match location.entry with
  | .file _ => .error .notADirectory
  | .directory entries =>
    if name = "" ∨ name = "." then .ok location
    else if name = ".." then
      match location.parents with
      | [] => .ok location
      | parent :: parents => .ok ⟨parent, parents⟩
    else if FileName.stepSizeLimit < name.utf8ByteSize then .error .nameTooLong
    else
      match entries.lookup name with
      | none => .error .notFound
      | some entry => .ok ⟨entry, location.entry :: location.parents⟩

/-- All files from the root on, and the path of the directory that a program works in. -/
structure FileTree where
  root : Entry
  workingDirectory : List String

/-- A directory that a program works in, when there is nothing else below the root. -/
def Entry.inRoot (directory : Entry) : FileTree where
  root := .directory [("work", directory)]
  workingDirectory := ["work"]

namespace FileTree

/-- What is under a name. A name is judged as a whole before any step is taken. -/
def locate (tree : FileTree) (name : FileName) : Except FileError Location :=
  if name.text.toList.contains '\x00' then .error .nulInName
  else if name.text = "" then .error .notFound
  else if FileName.sizeLimit < name.text.utf8ByteSize then .error .nameTooLong
  else
    let before := if name.isAbsolute then [] else tree.workingDirectory
    (before ++ name.steps).foldlM Location.step ⟨tree.root, []⟩

def contains (tree : FileTree) (name : FileName) : Bool :=
  (tree.locate name).toBool

def hasDirectory (tree : FileTree) (name : FileName) : Bool :=
  match tree.locate name with
  | .ok location => location.entry.isDirectory
  | .error _ => false

def list (tree : FileTree) (name : FileName) : Except FileError (List (String × Entry)) := do
  match (← tree.locate name).entry with
  | .file _ => throw .notADirectory
  | .directory entries => return entries

def read (tree : FileTree) (name : FileName) : Except FileError String := do
  match (← tree.locate name).entry with
  | .directory _ => throw .isADirectory
  | .file content =>
    match String.fromUTF8? content with
    | some text => return text
    | none => throw .notText

end FileTree

end ComponentLowering
