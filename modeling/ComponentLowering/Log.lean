import ComponentLowering.Named
/-!
Messages with a severity, the loggers that filter and scope them, and computations that write to a
logger. A logger decides twice: which severities it enables, and how a line that passes is written.
-/

namespace ComponentLowering

inductive Level where
  | debug
  | info
  | warn
  | error
  deriving DecidableEq, Repr

namespace Level

/-- The rank of a level, from the least severe on. -/
def severity : Level → Nat
  | debug => 0
  | info => 1
  | warn => 2
  | error => 3

instance : LE Level := ⟨fun a b => a.severity ≤ b.severity⟩

instance (a b : Level) : Decidable (a ≤ b) :=
  inferInstanceAs (Decidable (a.severity ≤ b.severity))

def label : Level → String
  | debug => "DEBUG"
  | info => "INFO"
  | warn => "WARN"
  | error => "ERROR"

instance : Named Level where
  all := [debug, info, warn, error]
  name
    | debug => "debug"
    | info => "info"
    | warn => "warn"
    | error => "error"
  mem_all a := by cases a <;> simp
  name_injective a b := by cases a <;> cases b <;> simp

structure Unknown where
  text : String

def Unknown.message (unknown : Unknown) : String :=
  "unknown log level `" ++ unknown.text ++ "`"

/-- Levels as people type them: letter case is free within ASCII, and `warning` means `warn`. -/
def parse (text : String) : Except Unknown Level :=
  let folded := text.map Char.toLower
  if folded = "warning" then
    .ok warn
  else
    match Named.ofName? folded with
    | some level => .ok level
    | none => .error ⟨folded⟩

end Level

/-- One message as it reached the console. -/
structure Line where
  level : Level
  text : String
  deriving DecidableEq, Repr

def Line.render (line : Line) : String :=
  "[" ++ line.level.label ++ "] " ++ line.text

inductive Logger where
  /-- Writes lines of at least the given level. -/
  | console (level : Level)
  /-- Writes nothing, and enables errors only. -/
  | null
  /-- Hands on to another logger, naming its scope in front of every message. -/
  | nested (inner : Logger) (scope : String)
  deriving DecidableEq, Repr

namespace Logger

/-- The least severe level that is written. -/
def level : Logger → Level
  | console level => level
  | null => .error
  | nested inner _ => inner.level

def isEnabled (logger : Logger) (level : Level) : Bool :=
  logger.level ≤ level

def write : Logger → Level → String → List Line
  | console _, level, message => [⟨level, message⟩]
  | null, _, _ => []
  | nested inner scope, level, message => inner.write level (scope ++ ": " ++ message)

/-- The lines a message makes: none below the level of the logger. -/
def log (logger : Logger) (level : Level) (message : String) : List Line :=
  if logger.isEnabled level then logger.write level message else []

/-- Wraps a logger in scopes, so that messages name the scopes in the order given. -/
def within (logger : Logger) (scopes : List String) : Logger :=
  scopes.foldl nested logger

end Logger

/-- A computation that may write to the logger it is given. -/
def LogM (α : Type) : Type :=
  Logger → α × List Line

namespace LogM

instance : Monad LogM where
  pure a := fun _ => (a, [])
  bind m f := fun logger =>
    let (a, before) := m logger
    let (b, after) := f a logger
    (b, before ++ after)

instance : LawfulMonad LogM :=
  LawfulMonad.mk' LogM
    (fun m => by funext logger; simp [Functor.map, Function.comp])
    (fun a f => by funext logger; simp [pure, bind])
    (fun m f g => by funext logger; simp [bind])

/-- Runs a computation: its result and the lines it wrote, in order. -/
def run {α : Type} (m : LogM α) (logger : Logger) : α × List Line :=
  m logger

def tell (level : Level) (message : String) : LogM Unit :=
  fun logger => ((), logger.log level message)

def debug (message : String) : LogM Unit :=
  tell .debug message

def info (message : String) : LogM Unit :=
  tell .info message

/-- Runs a computation whose messages name `scope`. -/
def inScope {α : Type} (scope : String) (m : LogM α) : LogM α :=
  fun logger => m (.nested logger scope)

/-- A result does not depend on the lines written before. -/
theorem fst_run_bind {α β : Type} (m : LogM α) (f : α → LogM β) (logger : Logger) :
    ((m >>= f).run logger).1 = ((f (m.run logger).1).run logger).1 := rfl

theorem fst_run_mapM {α β : Type} (f : α → LogM β) (values : List α) (logger : Logger) :
    ((values.mapM f).run logger).1 = values.map fun value => ((f value).run logger).1 := by
  induction values with
  | nil => rfl
  | cons value rest ih =>
      rw [List.mapM_cons, fst_run_bind, fst_run_bind, ih, List.map_cons]
      rfl

/-- The lines of a computation come before those of what goes on with its result. -/
theorem snd_run_bind {α β : Type} (m : LogM α) (f : α → LogM β) (logger : Logger) :
    ((m >>= f).run logger).2 = (m.run logger).2 ++ ((f (m.run logger).1).run logger).2 := rfl

theorem snd_run_mapM {α β : Type} (f : α → LogM β) (values : List α) (logger : Logger) :
    ((values.mapM f).run logger).2 = values.flatMap fun value => ((f value).run logger).2 := by
  induction values with
  | nil => rfl
  | cons value rest ih =>
      rw [List.mapM_cons, snd_run_bind, snd_run_bind, ih, List.flatMap_cons]
      exact congrArg _ (List.append_nil _)

theorem snd_run_forM {α : Type} (f : α → LogM Unit) (values : List α) (logger : Logger) :
    ((values.forM f).run logger).2 = values.flatMap fun value => ((f value).run logger).2 := by
  induction values with
  | nil => rfl
  | cons value rest ih =>
      rw [List.flatMap_cons, ← ih]
      rfl

end LogM

end ComponentLowering
