import ComponentLowering.Span
/-!
Diagnostics: what is reported about a node of a document.
-/

namespace ComponentLowering

inductive DiagnosticCode where
  /-- An attribute of a component mixes markup and code, or holds a code block. -/
  | unsupportedComplexContent
  deriving DecidableEq, Repr

namespace DiagnosticCode

instance : Named DiagnosticCode where
  all := [unsupportedComplexContent]
  name
    | unsupportedComplexContent => "UnsupportedComplexContent"
  mem_all a := by cases a; simp
  name_injective a b := by cases a; cases b; simp

def number : DiagnosticCode → Nat
  | unsupportedComplexContent => 9986

/-- The code under which a diagnostic is known to people. -/
def label (code : DiagnosticCode) : String :=
  "CMP" ++ decimal code.number

end DiagnosticCode

inductive Severity where
  | warning
  | error
  deriving DecidableEq, Repr

instance : Named Severity where
  all := [.warning, .error]
  name
    | .warning => "warning"
    | .error => "error"
  mem_all a := by cases a <;> simp
  name_injective a b := by cases a <;> cases b <;> simp

structure Diagnostic where
  code : DiagnosticCode
  severity : Severity
  message : String
  span : Option Span
  deriving DecidableEq, Repr

namespace Diagnostic

/-- The report that an attribute of a component has content of an unsupported shape. -/
def unsupportedComplexContent (span : Option Span) (attributeName : String) :
    Diagnostic where
  code := .unsupportedComplexContent
  severity := .error
  message :=
    "Component attributes do not support complex content (mixed code and markup). Attribute: '" ++
      attributeName ++ "'"
  span := span

def isError (diagnostic : Diagnostic) : Bool :=
  diagnostic.severity = .error

/-- A report as people are told of it, with its place if that is known. -/
def text (diagnostic : Diagnostic) : String :=
  Named.name diagnostic.severity ++ " " ++ diagnostic.code.label ++ ": " ++ diagnostic.message ++
    match diagnostic.span with
    | some span => " (" ++ span.text ++ ")"
    | none => ""

def toJson (diagnostic : Diagnostic) : Json :=
  .obj (
    [("code", .str (Named.name diagnostic.code)),
      ("severity", .str (Named.name diagnostic.severity)),
      ("message", .str diagnostic.message)] ++
    (diagnostic.span.map fun span => ("span", span.toJson)).toList)

/-- A diagnostic among the records of a text. -/
def form : RecordForm :=
  ⟨"Diagnostic", 4⟩

/-- The fields of a diagnostic that were read so far. -/
structure Draft where
  code : Option DiagnosticCode := none
  severity : Option Severity := none
  message : Option String := none
  span : Option (Option Span) := none

open Json Json.Reader

def Draft.readMember (depth : Nat) (draft : Draft) (key : String) : Reader Draft := do
  match key with
  | "code" => return { draft with code := ← once key draft.code (variant depth) }
  | "severity" => return { draft with severity := ← once key draft.severity (variant depth) }
  | "message" => return { draft with message := ← once key draft.message string }
  | "span" => return { draft with span := ← once key draft.span (optional (Span.read depth)) }
  | _ => colon; skip; return draft

def Draft.complete (draft : Draft) : Reader Diagnostic := do
  return {
    code := ← required "code" draft.code
    severity := ← required "severity" draft.severity
    message := ← required "message" draft.message
    span := draft.span.join }

def readElements (depth : Nat) : Reader Diagnostic := do
  let code ← field form 0 (variant depth)
  let severity ← field form 1 (variant depth)
  let message ← field form 2 string
  if ← nextElement false then
    let span ← optional (Span.read depth)
    closeArray
    return ⟨code, severity, message, span⟩
  else return ⟨code, severity, message, none⟩

def read (depth : Nat) : Reader Diagnostic :=
  record form depth (fun depth => do (← members (Draft.readMember depth) {}).complete) readElements

def ofText (text : String) : Except ReadError Diagnostic :=
  (read depthLimit).run text.toList

end Diagnostic

end ComponentLowering
