/-!
File names. Two names are the same when they have the same parts: separators may be doubled, and a
part `.` says nothing unless it comes first.
-/

namespace ComponentLowering

structure FileName where
  text : String
  deriving DecidableEq, Repr

namespace FileName

/-- The greatest size of a name that can be followed, in bytes. -/
def sizeLimit : Nat := 4095

/-- The greatest size of one step of a name, in bytes. -/
def stepSizeLimit : Nat := 255

/-- The texts between slashes, of which there is always one. -/
def betweenSlashes : List Char → List (List Char)
  | [] => [[]]
  | c :: rest =>
    match betweenSlashes rest with
    | [] => [[c]]
    | first :: more => if c = '/' then [] :: first :: more else (c :: first) :: more

/-- The steps of a name, empty ones between doubled slashes included. -/
def steps (name : FileName) : List String :=
  (betweenSlashes name.text.toList).map String.ofList

def isAbsolute (name : FileName) : Bool :=
  name.text.toList.head? = some '/'

/-- What tells a name from other names. -/
def parts (name : FileName) : List String :=
  let telling := fun step => step ≠ "" ∧ step ≠ "."
  match name.steps with
  | [] => []
  | first :: rest =>
    if name.isAbsolute then "/" :: rest.filter telling
    else if first = "" then rest.filter telling
    else first :: rest.filter telling

/-- Where a step leads from a path. The root lies in itself. -/
def stepFrom (path : List String) (step : String) : List String :=
  if step = "" ∨ step = "." then path
  else if step = ".." then path.dropLast
  else path ++ [step]

/-- Where steps lead from a path, after each of them. -/
def stepsFrom (path : List String) : List String → List (List String)
  | [] => []
  | step :: steps => stepFrom path step :: stepsFrom (stepFrom path step) steps

/-- The paths from the root that a name leads over, if it is followed from a directory. -/
def way (directory : List String) (name : FileName) : List (List String) :=
  stepsFrom (if name.isAbsolute then [] else directory) name.steps

/-- The path from the root that a name leads to. -/
def path (directory : List String) (name : FileName) : List String :=
  (name.way directory).getLast?.getD directory

def same (a b : FileName) : Bool :=
  a.parts = b.parts

theorem same_iff {a b : FileName} : a.same b = true ↔ a.parts = b.parts := by
  simp [same]

def isHere (name : FileName) : Bool :=
  name.parts = ["."]

def append (directory : FileName) (name : String) : FileName :=
  if directory.text.toList.getLast? = some '/' then ⟨directory.text ++ name⟩
  else ⟨directory.text ++ "/" ++ name⟩

/-- The name of something in a directory; the working directory is not named. -/
def child (directory : FileName) (name : String) : FileName :=
  if directory.isHere then ⟨name⟩ else directory.append name

end FileName

end ComponentLowering
