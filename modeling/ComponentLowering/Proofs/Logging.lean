import ComponentLowering.Proofs.ExitCode
import ComponentLowering.Proofs.Fields
import ComponentLowering.Proofs.Messages
/-!
What a logger has a say in. A computation that only writes to its logger tells a list of messages
that is fixed before there is a logger (`WriteOnly.run_eq`); the logger drops some of them and names
its scopes in front of the others (`Logger.log_within`). So no tree, no exit code and nothing on the
standard output depends on the level that is chosen (`level_only_filters`).
-/

namespace ComponentLowering

/-! ### Scopes and levels -/

namespace Logger

/-- Scopes are named in front of a message, the outermost first. -/
theorem log_within (logger : Logger) (scopes : List String) (level : Level) (message : String) :
    (logger.within scopes).log level message =
      logger.log level (": ".intercalate (scopes ++ [message])) := by
  induction scopes generalizing logger with
  | nil => rfl
  | cons scope rest ih =>
      have hrest : rest ++ [message] ≠ [] := by simp
      rw [List.cons_append, String.intercalate_cons_of_ne_nil hrest]
      exact ih (.nested logger scope)

theorem log_console (least level : Level) (message : String) :
    (console least).log level message =
      if least ≤ level then [⟨level, message⟩] else [] := by
  simp only [log, isEnabled, decide_eq_true_eq]
  rfl

/-- What messages come to, one after the other. -/
def logAll (logger : Logger) (told : List Line) : List Line :=
  told.flatMap fun line => logger.log line.level line.text

end Logger

/-- A line as it is written within scopes. -/
def Line.within (scopes : List String) (line : Line) : Line :=
  ⟨line.level, ": ".intercalate (scopes ++ [line.text])⟩

/-- Scopes around scopes are named before them. -/
theorem Line.within_append (outer scopes : List String) (line : Line) :
    line.within (outer ++ scopes) = (line.within scopes).within outer := by
  have htext : ": ".intercalate (outer ++ (scopes ++ [line.text])) =
      ": ".intercalate (outer ++ [": ".intercalate (scopes ++ [line.text])]) := by
    induction outer with
    | nil => rfl
    | cons scope rest ih =>
        rw [List.cons_append, List.cons_append, String.intercalate_cons_of_ne_nil (by simp),
          String.intercalate_cons_of_ne_nil (by simp), ih]
  rw [within, List.append_assoc, htext]
  rfl

namespace Logger

theorem logAll_debug (told : List Line) : (console .debug).logAll told = told := by
  induction told with
  | nil => rfl
  | cons line rest ih =>
      have hdebug : Level.debug ≤ line.level := Nat.zero_le _
      rw [logAll, List.flatMap_cons, log_console, if_pos hdebug]
      exact congrArg (line :: ·) ih

theorem logAll_within (level : Level) (scopes : List String) (told : List Line) :
    ((console level).within scopes).logAll told =
      (told.filter fun line => level ≤ line.level).map (Line.within scopes) := by
  induction told with
  | nil => rfl
  | cons line rest ih =>
      rw [logAll, List.flatMap_cons, log_within, log_console, List.filter_cons]
      by_cases hlevel : level ≤ line.level
      · rw [if_pos hlevel, if_pos (decide_eq_true hlevel), List.map_cons, ← ih]
        rfl
      · rw [if_neg hlevel, if_neg (by simpa using hlevel), ← ih]
        rfl

end Logger

theorem Line.filter_within {level higher : Level} (h : level ≤ higher) (scopes : List String)
    (lines : List Line) :
    (lines.filter fun line => higher ≤ line.level).map (within scopes) =
      ((lines.filter fun line => level ≤ line.level).map (within scopes)).filter
        fun line => higher ≤ line.level := by
  rw [List.filter_map, List.filter_filter]
  congr 1
  apply List.filter_congr
  intro line _
  have hle : higher ≤ line.level → level ≤ line.level := Nat.le_trans h
  show decide (higher ≤ line.level) = (decide (higher ≤ line.level) && decide (level ≤ line.level))
  by_cases hhigher : higher ≤ line.level
  · rw [decide_eq_true hhigher, decide_eq_true (hle hhigher)]
    rfl
  · rw [decide_eq_false hhigher]
    rfl

/-! ### Computations that only write -/

namespace LogM

/-- Computations that write messages, some of them within scopes, and learn nothing of their
logger. -/
inductive WriteOnly : {α : Type} → LogM α → Prop
  | pure {α : Type} (a : α) : WriteOnly (pure a : LogM α)
  | tell (level : Level) (message : String) : WriteOnly (tell level message)
  | bind {α β : Type} {m : LogM α} {f : α → LogM β} :
      WriteOnly m → (∀ a, WriteOnly (f a)) → WriteOnly (m >>= f)
  | inScope {α : Type} {m : LogM α} (scope : String) : WriteOnly m → WriteOnly (inScope scope m)

namespace WriteOnly

variable {α β : Type} {m : LogM α}

/-- The result and the messages are fixed before the logger is. -/
theorem run_eq (h : WriteOnly m) : ∃ (a : α) (told : List Line),
    ∀ logger, m.run logger = (a, logger.logAll told) := by
  induction h with
  | pure a => exact ⟨a, [], fun _ => rfl⟩
  | tell level message =>
      refine ⟨(), [⟨level, message⟩], ?_⟩
      intro logger
      exact Prod.ext rfl (List.append_nil _).symm
  | @bind α β m f _ _ ihm ihf =>
      obtain ⟨a, before, hm⟩ := ihm
      obtain ⟨b, after, hf⟩ := ihf a
      refine ⟨b, before ++ after, ?_⟩
      intro logger
      apply Prod.ext
      · rw [fst_run_bind, hm, hf]
      · rw [snd_run_bind, hm, hf]
        exact List.flatMap_append.symm
  | inScope scope _ ih =>
      obtain ⟨a, told, hm⟩ := ih
      refine ⟨a, told.map fun line => ⟨line.level, scope ++ ": " ++ line.text⟩, ?_⟩
      intro logger
      rw [Logger.logAll, List.flatMap_map]
      exact hm (.nested logger scope)

theorem fst_run (h : WriteOnly m) (logger logger' : Logger) :
    (m.run logger).1 = (m.run logger').1 := by
  obtain ⟨a, told, hrun⟩ := h.run_eq
  rw [hrun, hrun]

/-- A console writes the lines of the least severe level that are severe enough, each with the
scopes in front. -/
theorem snd_run_within (h : WriteOnly m) (level : Level) (scopes : List String) :
    (m.run ((Logger.console level).within scopes)).2 =
      ((m.run (.console .debug)).2.filter fun line => level ≤ line.level).map
        (Line.within scopes) := by
  obtain ⟨a, told, hrun⟩ := h.run_eq
  rw [hrun, hrun, Logger.logAll_within, Logger.logAll_debug]

/-! ### Loops -/

theorem forM {values : List α} {f : α → LogM Unit} (h : ∀ value ∈ values, WriteOnly (f value)) :
    WriteOnly (values.forM f) := by
  induction values with
  | nil => exact .pure ()
  | cons value rest ih =>
      obtain ⟨hvalue, hrest⟩ := List.forall_mem_cons.mp h
      exact .bind hvalue fun _ => ih hrest

theorem mapM {values : List α} {f : α → LogM β} (h : ∀ value ∈ values, WriteOnly (f value)) :
    WriteOnly (values.mapM f) := by
  induction values with
  | nil => exact .pure []
  | cons value rest ih =>
      obtain ⟨hvalue, hrest⟩ := List.forall_mem_cons.mp h
      rw [List.mapM_cons]
      exact .bind hvalue fun b => .bind (ih hrest) fun bs => .pure (b :: bs)

theorem foldlM {values : List α} {f : β → α → LogM β}
    (h : ∀ value ∈ values, ∀ b, WriteOnly (f b value)) (b : β) :
    WriteOnly (values.foldlM f b) := by
  induction values generalizing b with
  | nil => exact .pure b
  | cons value rest ih =>
      obtain ⟨hvalue, hrest⟩ := List.forall_mem_cons.mp h
      rw [List.foldlM_cons]
      exact .bind (hvalue b) fun b' => ih hrest b'

end WriteOnly

end LogM

/-! ### Passes and pipelines -/

namespace ComplexContent

theorem writeOnly_visit (gate : Descriptor → Bool) (node : Node) : (visit gate node).WriteOnly := by
  induction node using Node.bySize with
  | step node ih =>
      rw [visit]
      apply LogM.WriteOnly.bind
      · apply LogM.WriteOnly.forM
        intro event _
        rw [ContentEvent.log_eq]
        exact .tell event.level event.message
      · intro _
        apply LogM.WriteOnly.bind
        · apply LogM.WriteOnly.mapM
          rintro ⟨child, hchild⟩ _
          apply ih
          exact Nat.lt_of_lt_of_le (Node.size_lt_of_mem hchild) (size_checkNode_le gate node)
        · intro children
          exact .pure _

end ComplexContent

/-- A pass that only writes to its logger, whatever tree it is given. -/
def Pass.WriteOnly (pass : Pass) : Prop :=
  ∀ tree, (pass.execute tree).WriteOnly

theorem Pass.writeOnly_complexContent (gate : Descriptor → Bool) :
    (complexContent gate).WriteOnly := by
  intro tree
  show (ComplexContent.execute gate tree).WriteOnly
  unfold ComplexContent.execute
  split
  · exact .bind (.tell .debug _) fun _ => .pure tree
  · exact ComplexContent.writeOnly_visit gate tree

theorem Pipeline.writeOnly_run {pipeline : Pipeline} (h : ∀ pass ∈ pipeline.passes, pass.WriteOnly)
    (tree : Node) : (pipeline.run tree).WriteOnly := by
  apply LogM.WriteOnly.foldlM
  intro pass hpass before
  exact .bind (.tell .debug _) fun _ => h pass hpass before

/-! ### Settings that differ in the level only -/

/-- Answers that agree as far as there are results: both are errors, or the results agree. -/
theorem toOption_map_cases {ε α β : Type} {f : α → β} {answer answer' : Except ε α}
    (h : answer'.toOption.map f = answer.toOption.map f) :
    (∃ error error', answer = .error error ∧ answer' = .error error') ∨
      ∃ a a', answer = .ok a ∧ answer' = .ok a' ∧ f a' = f a := by
  cases answer with
  | error error =>
      cases answer' with
      | error error' => exact .inl ⟨error, error', rfl, rfl⟩
      | ok a' => cases h
  | ok a =>
      cases answer' with
      | error error' => cases h
      | ok a' => exact .inr ⟨a, a', rfl, rfl, Option.some.inj h⟩

theorem toOption_cases {ε α : Type} {answer answer' : Except ε α}
    (h : answer'.toOption = answer.toOption) :
    (∃ error error', answer = .error error ∧ answer' = .error error') ∨
      ∃ a, answer = .ok a ∧ answer' = .ok a := by
  rcases toOption_map_cases (congrArg (Option.map id) h) with herror | ⟨a, _, ha, ha', rfl⟩
  · exact .inl herror
  · exact .inr ⟨_, ha, ha'⟩

def Config.withoutLevel (config : Config) : Config :=
  { config with logLevel := none }

namespace CommandLine

def Arguments.withoutLevel (arguments : Arguments) : Arguments :=
  { arguments with logLevel := none }

def Request.withoutLevel : Request → Request
  | compile arguments => compile arguments.withoutLevel
  | request => request

/-- Two runs that differ in no more than the level of messages: the same is asked for, with the same
settings, and the documents asked for are the same. What is wrong with a request, with settings or
with a document does not matter. -/
structure SameButLevel (files files' : Files) (words words' : List String) : Prop where
  request :
    (Arguments.parse {} words').toOption.map Request.withoutLevel =
      (Arguments.parse {} words).toOption.map Request.withoutLevel
  settings : ∀ arguments arguments',
    Arguments.parse {} words = .ok (.compile arguments) →
    Arguments.parse {} words' = .ok (.compile arguments') →
      (loadConfig files' arguments').toOption.map Config.withoutLevel =
        (loadConfig files arguments).toOption.map Config.withoutLevel
  inputs : ∀ arguments, Arguments.parse {} words = .ok (.compile arguments) →
    (Inputs.expand files'.matching arguments.patterns).toOption =
      (Inputs.expand files.matching arguments.patterns).toOption
  documents : ∀ arguments inputs, Arguments.parse {} words = .ok (.compile arguments) →
    Inputs.expand files.matching arguments.patterns = .ok inputs →
      ∀ path ∈ inputs, (Node.load files' path).toOption = (Node.load files path).toOption

end CommandLine

namespace Compilation

open ComplexContent (outcome_logger)

variable {files files' : Files}

theorem toOption_compileFile {path : FileName}
    (h : (Node.load files' path).toOption = (Node.load files path).toOption) (showTree : Bool)
    (logger logger' : Logger) :
    ((compileFile files' .standard showTree path).run logger').1.toOption =
      ((compileFile files .standard showTree path).run logger).1.toOption := by
  rcases toOption_cases h with ⟨error, error', hload, hload'⟩ | ⟨document, hload, hload'⟩
  · rw [fst_run_compileFile_of_error .standard showTree logger hload,
      fst_run_compileFile_of_error .standard showTree logger' hload']
    rfl
  · rw [Pipeline.standard_eq_single, fst_run_compileFile_of_ok _ showTree logger hload,
      fst_run_compileFile_of_ok _ showTree logger' hload', outcome_logger _ logger logger']

section

variable {config config' : Config} {inputs : List FileName}

/-- Results that are told of alike: the documents that load and what comes of them. -/
theorem files_compile_congr (hsettings : config'.withoutLevel = config.withoutLevel)
    (hdistinct : Inputs.Distinct inputs)
    (hdocuments : ∀ path ∈ inputs,
      (Node.load files' path).toOption = (Node.load files path).toOption)
    (logger logger' : Logger) :
    ((compile files' config' inputs).run logger').1.files.map (fun entry => entry.2.toOption) =
      ((compile files config inputs).run logger).1.files.map fun entry => entry.2.toOption := by
  have hshows : config'.showsTrees = config.showsTrees :=
    (congrArg Config.showsTrees hsettings : config'.withoutLevel.showsTrees = _)
  rw [files_compile files config logger hdistinct, files_compile files' config' logger' hdistinct,
    List.map_map, List.map_map, hshows]
  apply List.map_congr_left
  intro path hpath
  exact toOption_compileFile (hdocuments path hpath) config.showsTrees logger logger'

end

end Compilation

namespace CommandLine

theorem trees_eq (compilation : Compilation) :
    trees compilation =
      (compilation.files.map fun entry => entry.2.toOption).filterMap (·.bind Lowered.tree) := by
  rw [List.filterMap_map]
  rfl

end CommandLine

theorem Compilation.hasFailures_eq (compilation : Compilation) (failsOnWarnings : Bool) :
    compilation.hasFailures failsOnWarnings =
      (compilation.files.map fun entry => entry.2.toOption).any fun lowered? =>
        lowered?.elim true fun lowered =>
          lowered.diagnostics.any fun diagnostic => diagnostic.isError || failsOnWarnings := by
  rw [Bool.eq_iff_iff, hasFailures_iff, List.any_map, List.any_eq_true]
  refine exists_congr fun entry => and_congr_right fun _ => ?_
  obtain ⟨path, outcome⟩ := entry
  cases outcome with
  | error failure => exact Iff.rfl
  | ok lowered => exact Iff.rfl

namespace CommandLine

variable {files files' : Files} {arguments arguments' : Arguments}

theorem withoutLevel_override (arguments : Arguments) (config : Config) :
    (arguments.override config).withoutLevel =
      arguments.withoutLevel.override config.withoutLevel := rfl

/-- Two runs that do not get as far as documents answer alike. -/
theorem compile_unstarted_congr
    (h : (∃ error, loadConfig files arguments = .error error) ∨
      ∃ error, Inputs.expand files.matching arguments.patterns = .error error)
    (h' : (∃ error, loadConfig files' arguments' = .error error) ∨
      ∃ error, Inputs.expand files'.matching arguments'.patterns = .error error) :
    (compile files' arguments').stdout = (compile files arguments).stdout ∧
      (compile files' arguments').exitCode = (compile files arguments).exitCode := by
  obtain ⟨hexit, hstdout⟩ := compile_unstarted h
  obtain ⟨hexit', hstdout'⟩ := compile_unstarted h'
  exact ⟨hstdout'.trans hstdout.symm, hexit'.trans hexit.symm⟩

theorem compile_congr (harguments : arguments'.withoutLevel = arguments.withoutLevel)
    (hsettings : (loadConfig files' arguments').toOption.map Config.withoutLevel =
      (loadConfig files arguments).toOption.map Config.withoutLevel)
    (hexpand : (Inputs.expand files'.matching arguments.patterns).toOption =
      (Inputs.expand files.matching arguments.patterns).toOption)
    (hdocuments : ∀ inputs, Inputs.expand files.matching arguments.patterns = .ok inputs →
      ∀ path ∈ inputs, (Node.load files' path).toOption = (Node.load files path).toOption) :
    (compile files' arguments').stdout = (compile files arguments).stdout ∧
      (compile files' arguments').exitCode = (compile files arguments).exitCode := by
  have hpatterns : arguments'.patterns = arguments.patterns :=
    (congrArg Arguments.patterns harguments : arguments'.withoutLevel.patterns = _)
  rcases toOption_map_cases hsettings with
    ⟨error, error', hconfig, hconfig'⟩ | ⟨config, config', hconfig, hconfig', hsame⟩
  · exact compile_unstarted_congr (.inl ⟨error, hconfig⟩) (.inl ⟨error', hconfig'⟩)
  · rcases toOption_cases hexpand with
      ⟨error, error', hinputs, hinputs'⟩ | ⟨inputs, hinputs, hinputs'⟩
    · rw [← hpatterns] at hinputs'
      exact compile_unstarted_congr (.inr ⟨error, hinputs⟩) (.inr ⟨error', hinputs'⟩)
    · rw [← hpatterns] at hinputs'
      obtain ⟨logger, hstdout, hexit⟩ := compile_started hconfig hinputs
      obtain ⟨logger', hstdout', hexit'⟩ := compile_started hconfig' hinputs'
      have hoverride : (arguments'.override config').withoutLevel =
          (arguments.override config).withoutLevel := by
        rw [withoutLevel_override, withoutLevel_override, harguments, hsame]
      have hfails : (arguments'.override config').failsOnWarnings =
          (arguments.override config).failsOnWarnings :=
        (congrArg Config.failsOnWarnings hoverride :
          (arguments'.override config').withoutLevel.failsOnWarnings = _)
      have hfiles := Compilation.files_compile_congr hoverride (Inputs.distinct_expand hinputs)
        (hdocuments inputs hinputs) logger logger'
      rw [hstdout, hstdout', hexit, hexit', trees_eq, trees_eq, Compilation.hasFailures_eq,
        Compilation.hasFailures_eq, hfails, hfiles]
      exact ⟨rfl, rfl⟩

theorem SameButLevel.of_parse {words words' : List String}
    (h : Arguments.parse {} words = .ok (.compile arguments))
    (h' : Arguments.parse {} words' = .ok (.compile arguments'))
    (harguments : arguments'.withoutLevel = arguments.withoutLevel)
    (hsettings : (loadConfig files' arguments').toOption.map Config.withoutLevel =
      (loadConfig files arguments).toOption.map Config.withoutLevel)
    (hexpand : (Inputs.expand files'.matching arguments.patterns).toOption =
      (Inputs.expand files.matching arguments.patterns).toOption)
    (hdocuments : ∀ inputs, Inputs.expand files.matching arguments.patterns = .ok inputs →
      ∀ path ∈ inputs, (Node.load files' path).toOption = (Node.load files path).toOption) :
    SameButLevel files files' words words' where
  request := by
    rw [h, h']
    exact congrArg (some ∘ Request.compile) harguments
  settings := by
    intro other other' hother hother'
    rw [h] at hother
    rw [h'] at hother'
    cases hother
    cases hother'
    exact hsettings
  inputs := by
    intro other hother
    rw [h] at hother
    cases hother
    exact hexpand
  documents := by
    intro other inputs hother
    rw [h] at hother
    cases hother
    exact hdocuments inputs

theorem run_congr {words words' : List String} (h : SameButLevel files files' words words') :
    (run files' words').stdout = (run files words).stdout ∧
      (run files' words').exitCode = (run files words).exitCode := by
  rcases toOption_map_cases h.request with
    ⟨error, error', hparse, hparse'⟩ | ⟨request, request', hparse, hparse', hsame⟩
  · rw [run, run, hparse, hparse']
    exact ⟨rfl, rfl⟩
  · cases request with
    | compile arguments =>
        cases request' with
        | compile arguments' =>
            rw [run, run, hparse, hparse']
            exact compile_congr (Request.compile.inj hsame)
              (h.settings arguments arguments' hparse hparse') (h.inputs arguments hparse)
              (h.documents arguments · hparse)
        | _ => cases hsame
    | version =>
        cases request' with
        | version => rw [run, run, hparse, hparse']; exact ⟨rfl, rfl⟩
        | _ => cases hsame
    | help =>
        cases request' with
        | help => rw [run, run, hparse, hparse']; exact ⟨rfl, rfl⟩
        | _ => cases hsame

/-! ### The level as an option -/

namespace Arguments

def withLevel (level : Level) (arguments : Arguments) : Arguments :=
  { arguments with logLevel := some level }

variable {before after : Arguments} {option : ValueOption} {value : String} {words : List String}

/-- What is set while no level is chosen is the name of the settings file. -/
theorem setValue_config (h : before.setValue option value = .ok after)
    (hnone : after.logLevel = none) :
    option = .config ∧ before.config = none ∧ after = { before with config := some value } := by
  cases option with
  | config =>
      simp only [setValue] at h
      split at h
      · cases h
      · rename_i hconfig
        cases h
        exact ⟨rfl, Option.not_isSome_iff_eq_none.mp hconfig, rfl⟩
  | logLevel =>
      simp only [setValue] at h
      split at h
      · cases h
      · split at h
        · cases h
          cases hnone
        · cases h

theorem setValue_withLevel (h : before.setValue option value = .ok after)
    (hnone : after.logLevel = none) (level : Level) :
    before.logLevel = none ∧
      (before.withLevel level).setValue option value = .ok (after.withLevel level) := by
  obtain ⟨rfl, hconfig, rfl⟩ := setValue_config h hnone
  refine ⟨hnone, ?_⟩
  simp only [setValue, withLevel, hconfig]
  rfl

/-- Arguments that choose no level are read alike behind a level that was chosen. -/
theorem parse_withLevel (h : parse before words = .ok (.compile arguments))
    (hnone : arguments.logLevel = none) (level : Level) :
    before.logLevel = none ∧
      parse (before.withLevel level) words = .ok (.compile (arguments.withLevel level)) := by
  fun_induction parse before words
  case case2 before hpatterns =>
    cases h
    exact ⟨hnone, if_neg hpatterns⟩
  case case3 before argument rest text hword ih =>
    obtain ⟨hbefore, hparse⟩ := ih h
    refine ⟨hbefore, ?_⟩
    rw [parse, hword]
    exact hparse
  case case5 before argument rest hword hemit ih =>
    obtain ⟨hbefore, hparse⟩ := ih h
    refine ⟨hbefore, ?_⟩
    simp only [parse, hword]
    exact (if_neg hemit).trans hparse
  case case9 before argument rest hword after hpatterns =>
    obtain rfl := Request.compile.inj (Except.ok.inj h)
    refine ⟨hnone, ?_⟩
    simp only [parse, hword]
    exact if_neg hpatterns
  case case11 before argument rest option value hword ih =>
    obtain ⟨after, hset, hrest⟩ := bind_eq_ok.mp h
    obtain ⟨hafter, hparse⟩ := ih after hrest
    obtain ⟨hbefore, hvalue⟩ := setValue_withLevel hset hafter level
    refine ⟨hbefore, ?_⟩
    simp only [parse, hword, hvalue]
    exact hparse
  case case13 before argument option hword word rest value hpattern ih =>
    obtain ⟨after, hset, hrest⟩ := bind_eq_ok.mp h
    obtain ⟨hafter, hparse⟩ := ih after hrest
    obtain ⟨hbefore, hvalue⟩ := setValue_withLevel hset hafter level
    refine ⟨hbefore, ?_⟩
    simp only [parse, hword, hpattern, hvalue]
    exact hparse
  all_goals cases h

theorem parse_logLevel (level : Level) (words : List String) :
    parse {} ("--log-level" :: Named.name level :: words) = parse (withLevel level {}) words := by
  have hoption : Word.ofArgument "--log-level" = .valued .logLevel none := by
    decide +kernel
  have hvalue : Word.ofArgument (Named.name level) = .pattern (Named.name level) := by
    cases level <;> decide +kernel
  rw [parse, hoption]
  simp only [hvalue, setValue, Named.ofName?_name]
  rfl

end Arguments

/-- A run with a level for an option differs from the run without in the level only. -/
theorem SameButLevel.of_logLevel {words : List String}
    (h : Arguments.parse {} words = .ok (.compile arguments)) (hnone : arguments.logLevel = none)
    (level : Level) (files : Files) :
    SameButLevel files files words ("--log-level" :: Named.name level :: words) := by
  have hparse := (Arguments.parse_withLevel h hnone level).2
  rw [← Arguments.parse_logLevel] at hparse
  exact of_parse h hparse rfl rfl rfl fun _ _ _ _ => rfl

end CommandLine

/-- A pipeline of passes that make content simple, and of passes that only write, leaves one tree
whatever logger it is given. On the console it writes the lines of a run that drops none, as far as
they are severe enough, each with its level and the scopes in front; so a higher level only drops
lines, and more scopes only stand in front of them. Nor does a run of the program answer or show
anything else when the level alone is chosen differently, be it in the settings or by an option. -/
theorem level_only_filters :
    (∀ (pipeline : Pipeline) (tree : Node),
      (∀ pass ∈ pipeline.passes, (∃ gate, pass = Pass.complexContent gate) ∨ pass.WriteOnly) →
        ∀ (level : Level) (scopes : List String),
          ((pipeline.run tree).run ((Logger.console level).within scopes)).1 =
              ((pipeline.run tree).run .null).1 ∧
            ((pipeline.run tree).run ((Logger.console level).within scopes)).2.map Line.render =
              (((pipeline.run tree).run (.console .debug)).2.filter
                  fun line => level ≤ line.level).map (fun line =>
                "[" ++ line.level.label ++ "] " ++ ": ".intercalate (scopes ++ [line.text])) ∧
            (∀ higher, level ≤ higher →
              ((pipeline.run tree).run ((Logger.console higher).within scopes)).2 =
                ((pipeline.run tree).run ((Logger.console level).within scopes)).2.filter
                  fun line => higher ≤ line.level) ∧
            ∀ outer,
              ((pipeline.run tree).run ((Logger.console level).within (outer ++ scopes))).2 =
                ((pipeline.run tree).run ((Logger.console level).within scopes)).2.map
                  (Line.within outer)) ∧
      (∀ (files files' : Files) (words words' : List String),
        CommandLine.SameButLevel files files' words words' →
          (CommandLine.run files' words').stdout = (CommandLine.run files words).stdout ∧
            (CommandLine.run files' words').exitCode = (CommandLine.run files words).exitCode) ∧
      ∀ (files : Files) (words : List String) (arguments : CommandLine.Arguments) (level : Level),
        CommandLine.Arguments.parse {} words = .ok (.compile arguments) →
          arguments.logLevel = none →
            (CommandLine.run files ("--log-level" :: Named.name level :: words)).stdout =
                (CommandLine.run files words).stdout ∧
              (CommandLine.run files ("--log-level" :: Named.name level :: words)).exitCode =
                (CommandLine.run files words).exitCode := by
  refine ⟨?_, ?_, ?_⟩
  · intro pipeline tree hpasses level scopes
    have hwrites : (pipeline.run tree).WriteOnly := by
      apply Pipeline.writeOnly_run
      intro pass hpass
      rcases hpasses pass hpass with ⟨gate, rfl⟩ | hwrites
      · exact Pass.writeOnly_complexContent gate
      · exact hwrites
    simp only [hwrites.snd_run_within]
    refine ⟨hwrites.fst_run _ _, ?_, ?_, ?_⟩
    · rw [List.map_map]
      rfl
    · intro higher hle
      exact Line.filter_within hle scopes _
    · intro outer
      rw [List.map_map]
      apply List.map_congr_left
      intro line _
      exact line.within_append outer scopes
  · intro files files' words words' h
    exact CommandLine.run_congr h
  · intro files words arguments level hparse hnone
    exact CommandLine.run_congr (.of_logLevel hparse hnone level files)

/-- A working directory with settings and one document. -/
def Entry.withSettings (settings : String) : Entry :=
  .directory [
    ("compc.json", .file settings.toUTF8),
    ("in", .file (ComplexContent.nestedTemplates.render .compact).toUTF8)]

theorem Entry.read_withSettings (settings : String) :
    (withSettings settings).inRoot.files.read ⟨"/work/in"⟩ =
      .ok (ComplexContent.nestedTemplates.render .compact) :=
  FileTree.read_of_locate
    (show (withSettings settings).inRoot.locate ⟨"/work/in"⟩ =
      .ok ⟨_, [withSettings settings, (withSettings settings).inRoot.root]⟩ from rfl)

/-- What is removed is told of at the level that is chosen, within the scopes, and that level is not
in the answer, whether the settings choose it or an option. -/
theorem level_only_filters_nestedTemplates :
    ((Pipeline.standard.run ComplexContent.nestedTemplates).run
          ((Logger.console .info).within ["run", "in"])).2.map Line.render =
        ["[INFO] run: in: removed attribute 'mixed' with complex content from component <Outer>"] ∧
      (CommandLine.run (Entry.withSettings "\x7b\x7d") ["/work/in"]).exitCode =
        (CommandLine.run (Entry.withSettings "\x7b\"logLevel\":\"error\"\x7d")
          ["/work/in"]).exitCode ∧
      (CommandLine.run (Entry.withSettings "\x7b\x7d")
          ["--log-level", "debug", "/work/in"]).exitCode =
        (CommandLine.run (Entry.withSettings "\x7b\x7d") ["/work/in"]).exitCode := by
  have hparse : CommandLine.Arguments.parse {} ["/work/in"] =
      .ok (.compile { patterns := ["/work/in"] }) := by
    decide +kernel
  refine ⟨?_, ?_, ?_⟩
  · have hpasses : ∀ pass ∈ Pipeline.standard.passes,
        (∃ gate, pass = Pass.complexContent gate) ∨ pass.WriteOnly := by
      intro pass hpass
      rw [Pipeline.standard_eq_single, Pipeline.passes_single, List.mem_singleton] at hpass
      exact .inl ⟨_, hpass⟩
    have hlines := (level_only_filters.1 Pipeline.standard ComplexContent.nestedTemplates hpasses
      .info ["run", "in"]).2.1
    rw [hlines]
    decide +kernel
  · apply And.right
    apply level_only_filters.2.1
    have hexpand : (Inputs.expand
        (Entry.withSettings "\x7b\"logLevel\":\"error\"\x7d").inRoot.files.matching
        ["/work/in"]).toOption = some [⟨"/work/in"⟩] := by
      decide +kernel
    apply CommandLine.SameButLevel.of_parse hparse hparse
    · rfl
    · decide +kernel
    · decide +kernel
    · intro inputs hinputs path hpath
      rw [hinputs] at hexpand
      obtain rfl := Option.some.inj hexpand
      obtain rfl := List.mem_singleton.mp hpath
      rw [Node.load, Node.load, Entry.read_withSettings, Entry.read_withSettings]
  · exact (level_only_filters.2.2 _ _ _ .debug hparse rfl).2

end ComponentLowering
