import ComponentLowering.CommandLine
/-!
The program `compc`: it looks at the files that its arguments may lead to, answers them and writes
the answer out.
-/

namespace ComponentLowering

/-- Puts what is at a path of the system into its place, and what is below it down to a number of
levels, by names alone. No file is read. -/
def outline (levels : Nat) (root : Entry) (path : List String) : IO Entry := do
  let here := (← IO.currentDir) / ("/" ++ "/".intercalate path)
  if ← here.isDir then
    let root := root.insert path (.directory [])
    match levels with
    | 0 => return root
    | levels + 1 =>
      let items ← try here.readDir catch _ => pure #[]
      items.foldlM (fun root item => outline levels root (path ++ [item.fileName])) root
  else if ← here.pathExists then return root.insert path (.file .empty)
  else return root

/-- Puts what a name leads over into its place, and what is below it down to a number of levels. -/
def follow (tree : FileTree) (name : FileName) (levels : Nat) : IO FileTree := do
  let root ← (name.way tree.workingDirectory).foldlM (outline 0) tree.root
  return { tree with root := ← outline levels root (name.path tree.workingDirectory) }

/-- Reads a file into its place, if it is there. -/
def fill (tree : FileTree) (name : FileName) : IO FileTree := do
  match tree.locate name with
  | .ok ⟨.file _, _⟩ =>
    let path := name.path tree.workingDirectory
    let content ← IO.FS.readBinFile ("/" ++ "/".intercalate path)
    return { tree with root := tree.root.insert path (.file content) }
  | _ => return tree

end ComponentLowering

open ComponentLowering

def main (arguments : List String) : IO UInt32 := do
  let here : FileName := ⟨(← IO.currentDir).toString⟩
  let bare ← follow ⟨.directory [], here.path []⟩ here 0
  let outlined ← (CommandLine.reach arguments).foldlM
    (fun tree (name, levels) => follow tree name levels) bare
  let tree ← (CommandLine.needed outlined.files arguments).foldlM fill outlined
  let answer := CommandLine.run tree.files arguments
  answer.stdout.forM fun text => IO.println text
  answer.stderr.forM fun text => IO.eprintln text
  return answer.exitCode
