import ComponentLowering.CommandLine
import ComponentLowering.Proofs.Compiling
import ComponentLowering.Proofs.Expansion
import ComponentLowering.Proofs.Settings
import ComponentLowering.Proofs.Survivors
/-!
What the exit code of a run tells. Inputs are all different, so that the results keep one outcome
for each (`files_compile`), and whether an outcome counts as a failure is settled by the document
before the pass: by what the pass removes from it and what the nodes that stay carried
(`hasFailures_compile`).
-/

namespace ComponentLowering

open ComplexContent

/-! ### Results -/

namespace Compilation

theorem record_new {found : List (FileName × Outcome)} {path : FileName} (outcome : Outcome)
    (h : ∀ entry ∈ found, entry.1.same path = false) :
    record found path outcome = found ++ [(path, outcome)] := by
  induction found with
  | nil => rfl
  | cons entry rest ih =>
      obtain ⟨hentry, hrest⟩ := List.forall_mem_cons.mp h
      rw [record, hentry, ih hrest]
      rfl

theorem foldl_record {found outcomes : List (FileName × Outcome)}
    (h : (found ++ outcomes).Pairwise fun a b => a.1.same b.1 = false) :
    outcomes.foldl (fun found (path, outcome) => record found path outcome) found =
      found ++ outcomes := by
  induction outcomes generalizing found with
  | nil => exact (List.append_nil found).symm
  | cons entry rest ih =>
      obtain ⟨path, outcome⟩ := entry
      have hnew : ∀ other ∈ found, other.1.same path = false := by
        intro other hother
        exact (List.pairwise_append.mp h).2.2 other hother _ (List.mem_cons_self ..)
      rw [List.append_cons] at h ⊢
      rw [← ih h, ← record_new outcome hnew]
      rfl

/-- Every input has its outcome among the results, in the order of the inputs. -/
theorem files_compile (files : Files) (config : Config) (logger : Logger) {inputs : List FileName}
    (h : Inputs.Distinct inputs) :
    ((compile files config inputs).run logger).1.files =
      inputs.map fun path =>
        (path, ((compileFile files .standard config.showsTrees path).run logger).1) := by
  have hnames : ([] ++ inputs.map fun path =>
      (path, ((compileFile files .standard config.showsTrees path).run logger).1)).Pairwise
        fun (a b : FileName × Outcome) => a.1.same b.1 = false := List.pairwise_map.mpr h
  rw [compile, LogM.fst_run_bind, LogM.fst_run_bind, LogM.fst_run_mapM]
  exact foldl_record hnames

/-- What makes a run fail at a document: that it is not loaded, that the pass removes an attribute
from it, or that a node that stays in it came with a diagnostic that counts. -/
inductive Failing (files : Files) (failsOnWarnings : Bool) (path : FileName) : Prop
  | unloaded {error : LoadError} :
      Node.load files path = .error error → Failing files failsOnWarnings path
  | removal {document binding : Node} :
      Node.load files path = .ok document →
      binding ∈ removed Descriptor.isComponent document →
      Failing files failsOnWarnings path
  | diagnosed {document node : Node} {diagnostic : Diagnostic} :
      Node.load files path = .ok document →
      node ∈ remaining Descriptor.isComponent document → diagnostic ∈ node.diagnostics →
      (diagnostic.isError || failsOnWarnings) = true →
      Failing files failsOnWarnings path

/-- Whether an outcome counts as a failure. -/
def fails (failsOnWarnings : Bool) : Outcome → Bool
  | .error _ => true
  | .ok lowered => lowered.diagnostics.any fun diagnostic => diagnostic.isError || failsOnWarnings

theorem hasFailures_iff (compilation : Compilation) (failsOnWarnings : Bool) :
    compilation.hasFailures failsOnWarnings = true ↔
      ∃ entry ∈ compilation.files, fails failsOnWarnings entry.2 = true := by
  rw [hasFailures, diagnostics, Bool.or_eq_true, List.any_flatMap, List.any_eq_true,
    List.any_eq_true, ← exists_or]
  refine exists_congr fun entry => ?_
  rw [← and_or_left]
  refine and_congr_right fun _ => ?_
  obtain ⟨path, outcome⟩ := entry
  cases outcome with
  | error failure => simp [fails, Except.toBool]
  | ok lowered => simp [fails, Except.toBool]

theorem fails_compileFile (files : Files) (failsOnWarnings showTree : Bool) (path : FileName)
    (logger : Logger) :
    fails failsOnWarnings ((compileFile files .standard showTree path).run logger).1 = true ↔
      Failing files failsOnWarnings path := by
  cases hload : Node.load files path with
  | error error =>
      rw [fst_run_compileFile_of_error .standard showTree logger hload]
      exact ⟨fun _ => .unloaded hload, fun _ => rfl⟩
  | ok document =>
      rw [Pipeline.standard_eq_single,
        fst_run_compileFile_of_ok Descriptor.isComponent showTree logger hload, fails,
        List.any_eq_true]
      constructor
      · rintro ⟨diagnostic, hdiagnostic, hcounts⟩
        rcases (mem_allDiagnostics_outcome _ _ _ _).mp hdiagnostic with
          ⟨node, hnode, hold⟩ | ⟨binding, hbinding, rfl⟩
        · exact .diagnosed hload hnode hold hcounts
        · exact .removal hload hbinding
      · intro hfailing
        cases hfailing with
        | unloaded hload' => rw [hload] at hload'; cases hload'
        | removal hload' hbinding =>
            rw [hload] at hload'
            cases hload'
            exact ⟨_, (mem_allDiagnostics_outcome _ _ _ _).mpr (.inr ⟨_, hbinding, rfl⟩), rfl⟩
        | diagnosed hload' hnode hold hcounts =>
            rw [hload] at hload'
            cases hload'
            exact ⟨_, (mem_allDiagnostics_outcome _ _ _ _).mpr (.inl ⟨_, hnode, hold⟩), hcounts⟩

theorem hasFailures_compile (files : Files) (config : Config) (failsOnWarnings : Bool)
    (logger : Logger) {inputs : List FileName} (h : Inputs.Distinct inputs) :
    ((compile files config inputs).run logger).1.hasFailures failsOnWarnings = true ↔
      ∃ path ∈ inputs, Failing files failsOnWarnings path := by
  rw [hasFailures_iff, files_compile files config logger h]
  simp only [List.mem_map, exists_exists_and_eq_and, fails_compileFile]

end Compilation

/-! ### Runs -/

namespace CommandLine

open Compilation (Failing hasFailures_compile)

section

variable {files : Files} {arguments : Arguments}

theorem compile_unstarted
    (h : (∃ error, loadConfig files arguments = .error error) ∨
      ∃ error, Inputs.expand files.matching arguments.patterns = .error error) :
    (compile files arguments).exitCode = 2 ∧ (compile files arguments).stdout = [] := by
  unfold compile
  cases hconfig : loadConfig files arguments with
  | error error => exact ⟨rfl, rfl⟩
  | ok config =>
      rcases h with ⟨error, herror⟩ | ⟨error, herror⟩
      · rw [hconfig] at herror
        cases herror
      · simp only [herror, and_self]

/-- What a run answers that gets as far as its documents. -/
theorem compile_started {config : Config} {inputs : List FileName}
    (hconfig : loadConfig files arguments = .ok config)
    (hinputs : Inputs.expand files.matching arguments.patterns = .ok inputs) :
    ∃ logger,
      (compile files arguments).stdout =
          trees ((Compilation.compile files (arguments.override config) inputs).run logger).1 ∧
        (compile files arguments).exitCode =
          if ((Compilation.compile files (arguments.override config) inputs).run
              logger).1.hasFailures (arguments.override config).failsOnWarnings
          then 1 else 0 := by
  refine ⟨.console (arguments.override config).level, ?_⟩
  rw [compile, hconfig]
  simp only [hinputs, and_self]

theorem exitCode_compile {config : Config} {inputs : List FileName}
    (hconfig : loadConfig files arguments = .ok config)
    (hinputs : Inputs.expand files.matching arguments.patterns = .ok inputs) :
    (∃ path ∈ inputs, Failing files config.failsOnWarnings path) ∧
        (compile files arguments).exitCode = 1 ∨
      (¬∃ path ∈ inputs, Failing files config.failsOnWarnings path) ∧
        (compile files arguments).exitCode = 0 := by
  obtain ⟨logger, _, hexit⟩ := compile_started hconfig hinputs
  have hfailures := hasFailures_compile files (arguments.override config) config.failsOnWarnings
    logger (Inputs.distinct_expand hinputs)
  by_cases h : ∃ path ∈ inputs, Failing files config.failsOnWarnings path
  · exact .inl ⟨h, hexit.trans (if_pos (hfailures.mpr h))⟩
  · exact .inr ⟨h, hexit.trans (if_neg fun hfails => h (hfailures.mp hfails))⟩

theorem exitCode_compile_eq_two :
    (compile files arguments).exitCode = 2 ↔
      Unsettled files arguments ∨
        ∃ error, Inputs.expand files.matching arguments.patterns = .error error := by
  rw [← loadConfig_eq_error]
  refine ⟨?_, fun hunstarted => (compile_unstarted hunstarted).1⟩
  intro htwo
  cases hconfig : loadConfig files arguments with
  | error error => exact .inl ⟨error, rfl⟩
  | ok config =>
      cases hinputs : Inputs.expand files.matching arguments.patterns with
      | error error => exact .inr ⟨error, rfl⟩
      | ok inputs =>
          rcases exitCode_compile hconfig hinputs with ⟨_, hexit⟩ | ⟨_, hexit⟩
          · exact absurd (hexit.symm.trans htwo) (by decide)
          · exact absurd (hexit.symm.trans htwo) (by decide)

theorem exitCode_compile_of_settings {config : Config} {inputs : List FileName}
    (hsettings : Settings files arguments config)
    (hinputs : Inputs.expand files.matching arguments.patterns = .ok inputs) :
    ((compile files arguments).exitCode = 1 ↔
        ∃ path ∈ inputs, Failing files config.failsOnWarnings path) ∧
      ((compile files arguments).exitCode = 0 ↔
        ∀ path ∈ inputs, ¬Failing files config.failsOnWarnings path) := by
  rcases exitCode_compile (loadConfig_eq_ok.mpr hsettings) hinputs with
    ⟨hfailing, hexit⟩ | ⟨hnone, hexit⟩
  · rw [hexit]
    refine ⟨⟨fun _ => hfailing, fun _ => rfl⟩, ⟨fun hzero => absurd hzero (by decide), ?_⟩⟩
    intro hall
    obtain ⟨path, hpath, hfails⟩ := hfailing
    exact absurd hfails (hall path hpath)
  · rw [hexit]
    refine ⟨⟨fun hone => absurd hone (by decide), fun hfailing => absurd hfailing hnone⟩, ?_⟩
    refine ⟨?_, fun _ => rfl⟩
    intro _ path hpath hfails
    exact hnone ⟨path, hpath, hfails⟩

end

/-- A run that has no settings or no inputs to start with answers 2 and shows no tree. Any other run
answers 1 if it fails at one of its documents, and else 0. Its settings, which say whether warnings
count, are in the file that it is asked to take or in `compc.json`; the text of a value holds the
settings that the value stands for. -/
theorem exitCode_run (files : Files) {words : List String} {arguments : Arguments}
    (h : Arguments.parse {} words = .ok (.compile arguments)) :
    ((run files words).exitCode = 2 ↔
        Unsettled files arguments ∨
          ∃ error, Inputs.expand files.matching arguments.patterns = .error error) ∧
      ((run files words).exitCode = 2 → (run files words).stdout = []) ∧
      (∀ config inputs, Settings files arguments config →
        Inputs.expand files.matching arguments.patterns = .ok inputs →
          ((run files words).exitCode = 1 ↔
              ∃ path ∈ inputs, Failing files config.failsOnWarnings path) ∧
            ((run files words).exitCode = 0 ↔
              ∀ path ∈ inputs, ¬Failing files config.failsOnWarnings path)) ∧
      (∀ (value : Json) (layout : Layout) (config : Config), value.isWhole →
        (Config.ofText (value.render layout) = .ok config ↔ Config.Loads value config)) ∧
      ∀ (members : List (String × Json)) (config : Config), Config.Loads (.obj members) config →
        (config.failsOnWarnings = true ↔ valuesOf "warningsAsErrors" members = [.bool true]) := by
  have hrun : run files words = compile files arguments := by rw [run, h]
  rw [hrun]
  refine ⟨exitCode_compile_eq_two, ?_, ?_, ?_, ?_⟩
  · intro htwo
    have hunstarted := exitCode_compile_eq_two.mp htwo
    rw [← loadConfig_eq_error] at hunstarted
    exact (compile_unstarted hunstarted).2
  · intro config inputs hsettings hinputs
    exact exitCode_compile_of_settings hsettings hinputs
  · intro value layout config hwhole
    exact Config.ofText_eq_ok hwhole layout
  · intro members config hload
    exact hload.failsOnWarnings

/-- Settings by which warnings count. -/
def strict : Json :=
  .obj [("warningsAsErrors", .bool true)]

theorem loads_strict : Config.Loads strict { warningsAsErrors := some true } :=
  @Config.Loads.object _ none none (some (some true)) rfl rfl ⟨.bool true, rfl, nofun, rfl⟩

/-- A document that came with a warning. -/
def warned : Node where
  kind := .document .component (some "old")
  children := []
  diagnostics := [⟨.unsupportedComplexContent, .warning, "old", none⟩]

/-- A directory to work in with two documents, and settings in another one. -/
def site : FileTree where
  root := .directory [
    ("etc", .directory [("strict.json", .file (strict.render .compact).toUTF8)]),
    ("work", .directory [
      ("in", .file ((nestedTemplates.withFilePath "in").render .compact).toUTF8),
      ("old", .file (warned.render .compact).toUTF8)])]
  workingDirectory := ["work"]

section

variable {arguments : Arguments} {name : FileName} {failsOnWarnings : Bool}

theorem settings_site (h : arguments.config = none) : Settings site.files arguments {} := by
  refine .absent ?_
  rintro name (hasked | ⟨_, hthere⟩)
  · rw [h] at hasked
    cases hasked
  · have hnone : site.contains ⟨"compc.json"⟩ = false := by decide +kernel
    exact absurd (hnone.symm.trans hthere) Bool.false_ne_true

/-- A document with a warning fails a run where warnings count, and there only. -/
theorem failing_warned (h : site.read name = .ok (warned.render .compact)) :
    Failing site.files failsOnWarnings name ↔ failsOnWarnings = true := by
  have hload : Node.load site.files name = .ok warned :=
    Node.load_of_render rfl (by rw [Node.nesting_render]; decide +kernel) h
  have hwarned : ((Compilation.compileFile site.files .standard false name).run .null).1 =
      .ok (Compilation.lowered false
        (ComplexContent.outcome Descriptor.isComponent .null warned)) :=
    Compilation.fst_run_compileFile_of_ok Descriptor.isComponent false .null hload
  rw [← Compilation.fails_compileFile site.files failsOnWarnings false name .null, hwarned]
  cases failsOnWarnings <;> decide +kernel

end

/-- What is removed fails a run, and so does a warning if the settings say so. -/
theorem exitCode_site :
    (run site.files ["--emit-tree", "in"]).exitCode = 1 ∧
      (run site.files ["--config", "/etc/strict.json", "/work/old"]).exitCode = 1 ∧
      (run site.files ["../work/old"]).exitCode = 0 ∧
      (run site.files ["--config", "../etc", "old"]).exitCode = 2 := by
  refine ⟨?_, ?_, ?_, ?_⟩
  · have hparse : Arguments.parse {} ["--emit-tree", "in"] =
        .ok (.compile { patterns := ["in"], emitTree := true }) := by
      decide +kernel
    have hinputs : Inputs.expand site.matching ["in"] = .ok [⟨"in"⟩] := by
      decide +kernel
    have hload : Node.load site.files ⟨"in"⟩ = .ok (nestedTemplates.withFilePath "in") :=
      Node.load_of_render rfl (by rw [Node.nesting_render]; decide +kernel)
        (FileTree.read_of_locate rfl)
    have hremoved : Node.htmlAttribute "mixed" [.token "a", .token "b"] ∈
        removed Descriptor.isComponent (nestedTemplates.withFilePath "in") := by
      decide +kernel
    have hanswer := (exitCode_run site.files hparse).2.2.1 {} [⟨"in"⟩] (settings_site rfl) hinputs
    exact hanswer.1.mpr ⟨⟨"in"⟩, List.mem_singleton_self _, .removal hload hremoved⟩
  · have hparse : Arguments.parse {} ["--config", "/etc/strict.json", "/work/old"] =
        .ok (.compile { patterns := ["/work/old"], config := some "/etc/strict.json" }) := by
      decide +kernel
    have hinputs : Inputs.expand site.matching ["/work/old"] = .ok [⟨"/work/old"⟩] := by
      decide +kernel
    obtain ⟨_, _, hanswer, htext, _⟩ := exitCode_run site.files hparse
    have hsettings := (htext strict .compact _ rfl).mpr loads_strict
    refine (hanswer _ [⟨"/work/old"⟩]
      (.inFile (.asked rfl) (FileTree.read_of_locate rfl) hsettings) hinputs).1.mpr ?_
    exact ⟨⟨"/work/old"⟩, List.mem_singleton_self _,
      (failing_warned (FileTree.read_of_locate rfl)).mpr rfl⟩
  · have hparse : Arguments.parse {} ["../work/old"] =
        .ok (.compile { patterns := ["../work/old"] }) := by
      decide +kernel
    have hinputs : Inputs.expand site.matching ["../work/old"] = .ok [⟨"../work/old"⟩] := by
      decide +kernel
    have hanswer := (exitCode_run site.files hparse).2.2.1 {} [⟨"../work/old"⟩] (settings_site rfl)
      hinputs
    refine hanswer.2.mpr ?_
    intro path hpath hfailing
    obtain rfl := List.mem_singleton.mp hpath
    exact absurd ((failing_warned (FileTree.read_of_locate rfl)).mp hfailing) Bool.false_ne_true
  · have hparse : Arguments.parse {} ["--config", "../etc", "old"] =
        .ok (.compile { patterns := ["old"], config := some "../etc" }) := by
      decide +kernel
    exact (exitCode_run site.files hparse).1.mpr (.inl (.unreadable (.asked rfl) rfl))

end CommandLine

end ComponentLowering
