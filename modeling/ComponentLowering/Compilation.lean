import ComponentLowering.Config
import ComponentLowering.Node.Reader
import ComponentLowering.Pass.ComplexContent
/-!
Compiling documents: each is loaded, lowered by the pipeline and, if asked for, written again. The
results are kept by document, in the order of the inputs.
-/

namespace ComponentLowering

structure Lowered where
  diagnostics : List Diagnostic
  /-- The text of the lowered tree, if it was asked for. -/
  tree : Option String
  deriving DecidableEq, Repr

inductive LoadError where
  | unreadable (error : FileError)
  | unusable (error : DocumentError)

namespace LoadError

def message : LoadError → String
  | unreadable error => "failed to read IR document: " ++ error.message
  | unusable error => error.message

def causes : LoadError → List String
  | unreadable error => [(unreadable error).message, error.message]
  | unusable error => error.causes

end LoadError

structure LoadFailure where
  path : FileName
  error : LoadError

def LoadFailure.context (failure : LoadFailure) : String :=
  "Failed to load " ++ failure.path.text

abbrev Outcome : Type :=
  Except LoadFailure Lowered

/-- What became of documents, each under the name it was first given. -/
structure Compilation where
  files : List (FileName × Outcome)

namespace Node

/-- The document in a file. It names the file as its place, unless it names one itself. -/
def load (files : Files) (path : FileName) : Except LoadError Node :=
  match files.read path with
  | .error error => .error (.unreadable error)
  | .ok text =>
    match documentOfText text with
    | .error error => .error (.unusable error)
    | .ok document => .ok (document.withFilePath path.text)

end Node

namespace Compilation

/-- Compiles the document in a file. Messages name the file. -/
def compileFile (files : Files) (pipeline : Pipeline) (showTree : Bool) (path : FileName) :
    LogM Outcome :=
  match Node.load files path with
  | .error error => return .error ⟨path, error⟩
  | .ok document =>
    LogM.inScope path.text do
      LogM.debug "compiling"
      let lowered ← pipeline.run document
      return .ok {
        diagnostics := lowered.allDiagnostics
        tree := if showTree then some (lowered.render .indented) else none }

/-- Records what became of a document. A document that is there already keeps its place. -/
def record (files : List (FileName × Outcome)) (path : FileName) (outcome : Outcome) :
    List (FileName × Outcome) :=
  match files with
  | [] => [(path, outcome)]
  | (other, old) :: rest =>
    if other.same path then (other, outcome) :: rest
    else (other, old) :: record rest path outcome

def compile (files : Files) (config : Config) (inputs : List FileName) : LogM Compilation := do
  let pipeline := Pipeline.standard
  LogM.info ("compiling " ++ decimal inputs.length ++ " documents with passes [" ++
    ", ".intercalate pipeline.names ++ "]")
  let outcomes ← inputs.mapM fun path => do
    return (path, ← compileFile files pipeline config.showsTrees path)
  return ⟨outcomes.foldl (fun found (path, outcome) => record found path outcome) []⟩

/-- All diagnostics with the documents they are about, in order. -/
def diagnostics (compilation : Compilation) : List (FileName × Diagnostic) :=
  compilation.files.flatMap fun (path, outcome) =>
    match outcome with
    | .ok lowered => lowered.diagnostics.map (path, ·)
    | .error _ => []

/-- Whether a document could not be loaded or has a diagnostic that counts as a failure. -/
def hasFailures (compilation : Compilation) (failsOnWarnings : Bool) : Bool :=
  compilation.files.any (fun (_, outcome) => !outcome.toBool) ||
    compilation.diagnostics.any fun (_, diagnostic) => diagnostic.isError || failsOnWarnings

end Compilation

end ComponentLowering
