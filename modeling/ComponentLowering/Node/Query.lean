import ComponentLowering.Node.Path
/-!
Finding nodes by kind, and gathering the diagnostics of a tree. Both walk the tree in pre-order: a
node comes before its descendants, and these come before its later siblings.
-/

namespace ComponentLowering

/-- A set of kinds: the bit of a kind stands at its index. -/
abbrev KindSet : Type :=
  BitVec 11

namespace KindSet

def singleton (tag : Tag) : KindSet :=
  BitVec.twoPow 11 tag.index

def attributes : KindSet :=
  singleton .propertyBinding ||| singleton .htmlAttribute

def all : KindSet :=
  BitVec.allOnes 11

def contains (kinds : KindSet) (tag : Tag) : Bool :=
  kinds.getLsbD tag.index

end KindSet

namespace Node

def isAnyOf (node : Node) (kinds : KindSet) : Bool :=
  kinds.contains node.tag

mutual

/-- The paths from a root to its descendants of some kinds, in pre-order. -/
def find (kinds : KindSet) : Node → List Path
  | ⟨_, children, _, _⟩ => findAmong kinds 0 children

/-- The paths from the parent of siblings, the first of which has the given index, to those of them
and of their descendants that are of some kinds. -/
def findAmong (kinds : KindSet) (index : Nat) : List Node → List Path
  | [] => []
  | node :: rest =>
    (if node.isAnyOf kinds then [[index]] else []) ++
      (find kinds node).map (index :: ·) ++ findAmong kinds (index + 1) rest

end

mutual

/-- The diagnostics attached anywhere in a tree, in pre-order. -/
def allDiagnostics : Node → List Diagnostic
  | ⟨_, children, diagnostics, _⟩ => diagnostics ++ diagnosticsOfAll children

def diagnosticsOfAll : List Node → List Diagnostic
  | [] => []
  | node :: rest => node.allDiagnostics ++ diagnosticsOfAll rest

end

def hasErrors (node : Node) : Bool :=
  node.allDiagnostics.any Diagnostic.isError

end Node

end ComponentLowering
