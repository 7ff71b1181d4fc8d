import ComponentLowering.Log
import ComponentLowering.Node.Basic
/-!
Passes over a document and pipelines of passes. A pass never fails: what it finds wrong it reports
as diagnostics in the tree. A pipeline keeps its passes in ascending order, and passes of equal
order as they were added.
-/

namespace ComponentLowering

structure Pass where
  name : String
  /-- Lower orders run first. -/
  order : Int := 0
  execute : Node → LogM Node

/-- Passes that run one after the other. -/
structure Pipeline where
  passes : List Pass

namespace Pipeline

def empty : Pipeline :=
  ⟨[]⟩

/-- Adds a pass behind all passes of at most its order. -/
def add (pipeline : Pipeline) (pass : Pass) : Pipeline :=
  ⟨(pipeline.passes ++ [pass]).mergeSort fun a b => decide (a.order ≤ b.order)⟩

def names (pipeline : Pipeline) : List String :=
  pipeline.passes.map Pass.name

def size (pipeline : Pipeline) : Nat :=
  pipeline.passes.length

def isEmpty (pipeline : Pipeline) : Bool :=
  pipeline.passes.isEmpty

/-- Runs one pass, and says so first. -/
def step (node : Node) (pass : Pass) : LogM Node := do
  LogM.debug ("running pass " ++ pass.name ++ " (order " ++
    String.ofList (Number.digits pass.order) ++ ")")
  pass.execute node

/-- Runs every pass on what the passes before it left. -/
def run (pipeline : Pipeline) (node : Node) : LogM Node :=
  pipeline.passes.foldlM step node

end Pipeline

end ComponentLowering
