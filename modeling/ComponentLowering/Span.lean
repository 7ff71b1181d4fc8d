import ComponentLowering.Json.Skip
/-!
Places in source files: where they are shown, written and read.
-/

namespace ComponentLowering

structure Span where
  filePath : String
  offset : UInt64
  line : UInt64
  col : UInt64
  length : UInt64
  deriving DecidableEq, Repr

namespace Span

/-- A place as people are told of it. -/
def text (span : Span) : String :=
  span.filePath ++ "@" ++ decimal span.line.toNat ++ ":" ++ decimal span.col.toNat

def toJson (span : Span) : Json :=
  .obj [
    ("file_path", .str span.filePath),
    ("offset", .natural span.offset.toNat),
    ("line", .natural span.line.toNat),
    ("col", .natural span.col.toNat),
    ("length", .natural span.length.toNat)]

/-- A span among the records of a text. -/
def form : RecordForm :=
  ⟨"SourceSpan", 5⟩

/-- The fields of a span that were read so far. -/
structure Draft where
  filePath : Option String := none
  offset : Option UInt64 := none
  line : Option UInt64 := none
  col : Option UInt64 := none
  length : Option UInt64 := none

open Json Json.Reader

def Draft.readMember (draft : Draft) (key : String) : Reader Draft := do
  match key with
  | "file_path" => return { draft with filePath := ← once key draft.filePath string }
  | "offset" => return { draft with offset := ← once key draft.offset natural }
  | "line" => return { draft with line := ← once key draft.line natural }
  | "col" => return { draft with col := ← once key draft.col natural }
  | "length" => return { draft with length := ← once key draft.length natural }
  | _ => colon; skip; return draft

def Draft.complete (draft : Draft) : Reader Span := do
  return {
    filePath := ← required "file_path" draft.filePath
    offset := ← required "offset" draft.offset
    line := ← required "line" draft.line
    col := ← required "col" draft.col
    length := ← required "length" draft.length }

def readElements : Reader Span := do
  let span : Span := {
    filePath := ← field form 0 string
    offset := ← field form 1 natural
    line := ← field form 2 natural
    col := ← field form 3 natural
    length := ← field form 4 natural }
  closeArray
  return span

def read (depth : Nat) : Reader Span :=
  record form depth (fun _ => do (← members Draft.readMember {}).complete) (fun _ => readElements)

def ofText (text : String) : Except ReadError Span :=
  (read depthLimit).run text.toList

end Span

end ComponentLowering
