import ComponentLowering.Files.Access
import ComponentLowering.Json.Skip
import ComponentLowering.Log
/-!
Settings of a compilation, all of which may be left open.
-/

namespace ComponentLowering

structure Config where
  logLevel : Option Level := none
  emitTree : Option Bool := none
  warningsAsErrors : Option Bool := none
  deriving DecidableEq, Repr

namespace Config

/-- The level below which messages are dropped: warnings are shown unless the settings differ. -/
def level (config : Config) : Level :=
  config.logLevel.getD .warn

def showsTrees (config : Config) : Bool :=
  config.emitTree.getD false

def failsOnWarnings (config : Config) : Bool :=
  config.warningsAsErrors.getD false

/-- Settings among the records of a text. -/
def form : RecordForm :=
  ⟨"CompilerConfig", 3⟩

/-- The settings that were read so far. -/
structure Draft where
  logLevel : Option (Option Level) := none
  emitTree : Option (Option Bool) := none
  warningsAsErrors : Option (Option Bool) := none

open Json Json.Reader

def Draft.readMember (depth : Nat) (draft : Draft) (key : String) : Reader Draft := do
  match key with
  | "logLevel" =>
    return { draft with logLevel := ← once key draft.logLevel (optional (variant depth)) }
  | "emitTree" => return { draft with emitTree := ← once key draft.emitTree (optional bool) }
  | "warningsAsErrors" =>
    return { draft with warningsAsErrors := ← once key draft.warningsAsErrors (optional bool) }
  | _ => colon; skip; return draft

def Draft.complete (draft : Draft) : Config :=
  ⟨draft.logLevel.join, draft.emitTree.join, draft.warningsAsErrors.join⟩

def readElements (depth : Nat) : Reader Config := do
  let config : Config := {
    logLevel := ← field form 0 (optional (variant depth))
    emitTree := ← field form 1 (optional bool)
    warningsAsErrors := ← field form 2 (optional bool) }
  closeArray
  return config

def read (depth : Nat) : Reader Config :=
  record form depth
    (fun depth => return (← members (Draft.readMember depth) {}).complete) readElements

def ofText (text : String) : Except ReadError Config :=
  (read depthLimit).run text.toList

end Config

inductive ConfigError where
  | unreadable (error : FileError)
  | unusable (error : ReadError)

def ConfigError.message : ConfigError → String
  | unreadable error => error.message
  | unusable error => error.message

def Config.load (files : Files) (name : FileName) : Except ConfigError Config :=
  match files.read name with
  | .error error => .error (.unreadable error)
  | .ok text => (Config.ofText text).mapError .unusable

end ComponentLowering
