/-!
The versions of the compiler and of its command line.
-/

namespace ComponentLowering.Version

def compiler : String := "0.1.0"

def commandLine : String := "0.1.0"

/-- The line by which the program introduces itself. -/
def banner : String :=
  "Component Compiler CLI v" ++ commandLine ++ " (compiler v" ++ compiler ++ ")"

end ComponentLowering.Version
