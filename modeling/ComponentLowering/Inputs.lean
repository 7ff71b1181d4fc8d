import ComponentLowering.Files.Access
/-!
The documents that patterns ask for, in the order of the patterns and each once.
-/

namespace ComponentLowering

/-- Why patterns give no list of documents. -/
inductive InputError where
  | unreadablePattern (pattern : String) (error : PatternError)
  | unlisted (failure : ListFailure)
  /-- The pattern adds no document to those of the patterns before it. -/
  | noMatch (pattern : String)
  deriving DecidableEq, Repr

def InputError.message : InputError → String
  | unreadablePattern pattern error =>
    "Failed to read glob pattern " ++ pattern ++ ": " ++ error.message
  | unlisted failure => failure.message
  | noMatch pattern => "No IR documents match " ++ pattern

def MatchError.within (pattern : String) : MatchError → InputError
  | noPattern error => .unreadablePattern pattern error
  | unlisted failure => .unlisted failure

namespace Inputs

def add (inputs : List FileName) (name : FileName) : List FileName :=
  if inputs.any (·.same name) then inputs else inputs ++ [name]

/-- Adds the documents of one pattern, of which one must be new. -/
def expandOne (matching : String → Except MatchError (List FileName)) (inputs : List FileName)
    (pattern : String) : Except InputError (List FileName) :=
  match matching pattern with
  | .error error => .error (error.within pattern)
  | .ok names =>
    let more := names.foldl add inputs
    if more.length = inputs.length then .error (.noMatch pattern) else .ok more

/-- The documents of all patterns, with `matching` giving those of each. -/
def expand (matching : String → Except MatchError (List FileName)) (patterns : List String) :
    Except InputError (List FileName) :=
  patterns.foldlM (expandOne matching) []

end Inputs

end ComponentLowering
