import ComponentLowering.Files.Pattern
/-!
The files there are, as a program comes to know them: by what it gets for a name or a pattern. Trees
of files answer it, from whatever directory it works in.
-/

namespace ComponentLowering

/-- Why a pattern gives no names at all. -/
inductive MatchError where
  | noPattern (error : PatternError)
  | unlisted (failure : ListFailure)
  deriving DecidableEq, Repr

/-- What a program is told of files. They do not change while it runs. -/
structure Files where
  /-- The text of a file. -/
  read : FileName → Except FileError String
  /-- Whether there is anything of a name. -/
  contains : FileName → Bool
  /-- The names that are like a pattern, in order. -/
  matching : String → Except MatchError (List FileName)

namespace FileTree

def matching (tree : FileTree) (pattern : String) : Except MatchError (List FileName) := do
  let pattern ← (Pattern.ofString pattern).mapError .noPattern
  (tree.namesLike pattern).mapError .unlisted

def files (tree : FileTree) : Files :=
  ⟨tree.read, tree.contains, tree.matching⟩

end FileTree

namespace Entry

/-- What is matched in a working directory. -/
def matching (directory : Entry) : String → Except MatchError (List FileName) :=
  directory.inRoot.matching

instance : Coe Entry Files :=
  ⟨fun directory => directory.inRoot.files⟩

end Entry

end ComponentLowering
