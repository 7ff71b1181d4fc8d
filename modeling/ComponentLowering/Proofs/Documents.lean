import ComponentLowering.Proofs.ExitCode
/-!
Documents and their results. Inputs that are the same document share one result, which stands where
the document first comes and is that of its last name (`files_compile_eq`). A document that has one
name only is therefore compiled as if it were alone.
-/

namespace ComponentLowering

/-! ### Documents among inputs -/

namespace Inputs

/-- The name under which a document comes last. -/
def lastName (inputs : List FileName) (document : FileName) : FileName :=
  (inputs.reverse.find? (·.same document)).getD document

/-- No input names a document in another way. -/
def Spelled (inputs : List FileName) (document : FileName) : Prop :=
  ∀ input ∈ inputs, input.same document = true → input = document

instance (inputs : List FileName) (document : FileName) : Decidable (Spelled inputs document) :=
  inferInstanceAs (Decidable (∀ input ∈ inputs, input.same document = true → input = document))

theorem foldl_add_nil (names : List FileName) :
    names.foldl add [] = names.eraseDupsBy FileName.same := by
  rw [foldl_add_eq, List.nil_append]
  simp

theorem distinct_eraseDupsBy (inputs : List FileName) :
    Distinct (inputs.eraseDupsBy FileName.same) := by
  rw [← foldl_add_nil]
  exact distinct_foldl_add .nil inputs

theorem mem_foldl_add {inputs names : List FileName} {name : FileName}
    (h : name ∈ names.foldl add inputs) : name ∈ inputs ∨ name ∈ names := by
  induction names generalizing inputs with
  | nil => exact .inl h
  | cons added rest ih =>
      rcases ih h with hadd | hrest
      · rw [add] at hadd
        split at hadd
        · exact .inl hadd
        · rcases List.mem_append.mp hadd with hold | hnew
          · exact .inl hold
          · exact .inr (List.mem_cons.mpr (.inl (List.mem_singleton.mp hnew)))
      · exact .inr (List.mem_cons_of_mem added hrest)

section

variable {inputs : List FileName} {document : FileName}

theorem mem_of_mem_eraseDupsBy (h : document ∈ inputs.eraseDupsBy FileName.same) :
    document ∈ inputs := by
  rw [← foldl_add_nil] at h
  exact (mem_foldl_add h).resolve_left List.not_mem_nil

theorem exists_mem_eraseDupsBy (h : document ∈ inputs) :
    ∃ first ∈ inputs.eraseDupsBy FileName.same, first.same document = true := by
  apply List.any_eq_true.mp
  rw [← foldl_add_nil, any_foldl_add, List.any_nil, Bool.false_or]
  exact any_of_mem h

/-- The last name of a document that comes at all. -/
theorem find?_lastName (h : document ∈ inputs) :
    inputs.reverse.find? (·.same document) = some (lastName inputs document) := by
  cases hfind : inputs.reverse.find? (·.same document) with
  | some name => rw [lastName, hfind, Option.getD_some]
  | none =>
      have hnone := List.find?_eq_none.mp hfind document (List.mem_reverse.mpr h)
      exact absurd document.same_refl hnone

theorem lastName_congr {other : FileName} (h : document.same other = true) (hmem : other ∈ inputs) :
    lastName inputs document = lastName inputs other := by
  have hsame : (fun input : FileName => input.same document) = fun input => input.same other := by
    funext input
    rw [input.same_comm, FileName.same_congr h, input.same_comm]
  rw [lastName, hsame, find?_lastName hmem, Option.getD_some]

/-- A document that is spelled in one way comes last as it comes first. -/
theorem lastName_of_spelled (h : Spelled inputs document) :
    lastName inputs document = document := by
  cases hfind : inputs.reverse.find? (·.same document) with
  | none => rw [lastName, hfind, Option.getD_none]
  | some name =>
      rw [lastName, hfind, Option.getD_some]
      apply h name (List.mem_reverse.mp (List.mem_of_find?_eq_some hfind))
      exact List.find?_some (p := fun input : FileName => input.same document) hfind

end

end Inputs

/-! ### Results -/

namespace Compilation

/-- The result that is kept for a document. -/
def outcome? (compilation : Compilation) (document : FileName) : Option Outcome :=
  (compilation.files.find? (·.1.same document)).map Prod.snd

section

variable (found : List (FileName × Outcome)) (name : FileName) (outcome : Outcome)

theorem names_record :
    (record found name outcome).map Prod.fst = Inputs.add (found.map Prod.fst) name := by
  induction found with
  | nil => rfl
  | cons entry rest ih =>
      obtain ⟨other, old⟩ := entry
      rw [record, Inputs.add]
      by_cases hsame : other.same name = true
      · simp [hsame]
      · rw [if_neg hsame, List.map_cons, ih, Inputs.add, List.map_cons, List.any_cons,
          Bool.eq_false_iff.mpr hsame, Bool.false_or]
        split <;> rfl

theorem outcome?_record (document : FileName) :
    (⟨record found name outcome⟩ : Compilation).outcome? document =
      if name.same document then some outcome
      else (⟨found⟩ : Compilation).outcome? document := by
  induction found with
  | nil =>
      rw [record, outcome?, List.find?_cons]
      cases name.same document <;> rfl
  | cons entry rest ih =>
      obtain ⟨other, old⟩ := entry
      rw [record]
      by_cases hsame : other.same name = true
      · rw [if_pos hsame, outcome?, outcome?, List.find?_cons, List.find?_cons,
          FileName.same_congr hsame]
        cases name.same document <;> rfl
      · rw [if_neg hsame]
        simp only [outcome?, List.find?_cons] at ih ⊢
        cases hother : other.same document with
        | false => exact ih
        | true =>
            have hname : name.same document = false := by
              rw [FileName.same_congr hother, document.same_comm] at hsame
              exact Bool.eq_false_iff.mpr hsame
            rw [hname]
            rfl

end

/-- What becomes of a list of documents, one after the other. -/
def recordAll (outcomes found : List (FileName × Outcome)) : List (FileName × Outcome) :=
  outcomes.foldl (fun found (name, outcome) => record found name outcome) found

theorem names_recordAll (outcomes found : List (FileName × Outcome)) :
    (recordAll outcomes found).map Prod.fst =
      (outcomes.map Prod.fst).foldl Inputs.add (found.map Prod.fst) := by
  induction outcomes generalizing found with
  | nil => rfl
  | cons entry rest ih =>
      rw [List.map_cons, List.foldl_cons, ← names_record found entry.1 entry.2]
      exact ih (record found entry.1 entry.2)

/-- The last outcome of a document is kept. -/
theorem outcome?_recordAll (outcomes found : List (FileName × Outcome)) (document : FileName) :
    (⟨recordAll outcomes found⟩ : Compilation).outcome? document =
      ((outcomes.reverse.find? (·.1.same document)).map Prod.snd).or
        ((⟨found⟩ : Compilation).outcome? document) := by
  induction outcomes generalizing found with
  | nil => rfl
  | cons entry rest ih =>
      have hrest := ih (record found entry.1 entry.2)
      rw [outcome?_record] at hrest
      rw [List.reverse_cons, List.find?_append, List.find?_singleton, Option.map_or]
      refine hrest.trans ?_
      rw [Option.or_assoc]
      cases entry.1.same document <;> rfl

/-- Results under distinct names are found by name. -/
theorem outcome?_of_mem {compilation : Compilation}
    (h : Inputs.Distinct (compilation.files.map Prod.fst)) :
    ∀ entry ∈ compilation.files, compilation.outcome? entry.1 = some entry.2 := by
  obtain ⟨files⟩ := compilation
  intro entry hentry
  obtain ⟨before, after, rfl⟩ := List.append_of_mem hentry
  have hbefore : before.find? (fun other => other.1.same entry.1) = none := by
    apply List.find?_eq_none.mpr
    intro other hother
    have hdistinct := (List.pairwise_append.mp (List.pairwise_map.mp h)).2.2 other hother entry
    rw [hdistinct (List.mem_cons_self ..)]
    exact Bool.false_ne_true
  rw [outcome?, List.find?_append, hbefore, Option.none_or, List.find?_cons, entry.1.same_refl]
  rfl

/-! ### Whole runs -/

/-- What compiling a document by itself comes to. -/
def alone (files : Files) (config : Config) (document : FileName) : Outcome :=
  ((compileFile files .standard config.showsTrees document).run .null).1

section

variable (files : Files) (config : Config) (logger : Logger) (inputs : List FileName)

/-- The logger has no part in an outcome. -/
theorem fst_run_compileFile (document : FileName) :
    ((compileFile files .standard config.showsTrees document).run logger).1 =
      alone files config document := by
  rw [alone]
  cases hload : Node.load files document with
  | error error =>
      rw [fst_run_compileFile_of_error _ _ _ hload, fst_run_compileFile_of_error _ _ _ hload]
  | ok tree =>
      rw [Pipeline.standard_eq_single, fst_run_compileFile_of_ok _ _ _ hload,
        fst_run_compileFile_of_ok _ _ _ hload,
        ComplexContent.outcome_logger Descriptor.isComponent logger .null]

theorem files_compile_eq_recordAll :
    ((compile files config inputs).run logger).1.files =
      recordAll (inputs.map fun input => (input, alone files config input)) [] := by
  rw [compile, LogM.fst_run_bind, LogM.fst_run_bind, LogM.fst_run_mapM]
  simp only [← fst_run_compileFile files config logger]
  rfl

/-- A document has the outcome of its last name. -/
theorem outcome?_compile (document : FileName) :
    ((compile files config inputs).run logger).1.outcome? document =
      (inputs.reverse.find? (·.same document)).map (alone files config) := by
  have hlast := outcome?_recordAll (inputs.map fun input => (input, alone files config input)) []
    document
  rw [← List.map_reverse, List.find?_map, Option.map_map, ← files_compile_eq_recordAll files config
    logger] at hlast
  exact hlast.trans Option.or_none

theorem names_compile :
    ((compile files config inputs).run logger).1.files.map Prod.fst =
      inputs.eraseDupsBy FileName.same := by
  rw [files_compile_eq_recordAll, names_recordAll, List.map_map, List.map_nil,
    Inputs.foldl_add_nil]
  exact congrArg _ (List.map_id' inputs)

/-- Documents keep the order in which they first come, and the outcome of their last name. -/
theorem files_compile_eq :
    ((compile files config inputs).run logger).1.files =
      (inputs.eraseDupsBy FileName.same).map fun document =>
        (document, alone files config (Inputs.lastName inputs document)) := by
  have hnames := names_compile files config logger inputs
  have hdistinct := Inputs.distinct_eraseDupsBy inputs
  rw [← hnames] at hdistinct ⊢
  rw [List.map_map]
  refine (List.map_id' _).symm.trans (List.map_congr_left ?_)
  rintro ⟨document, outcome⟩ hentry
  have hinput : document ∈ inputs := by
    apply Inputs.mem_of_mem_eraseDupsBy
    rw [← hnames]
    exact List.mem_map_of_mem hentry
  have houtcome := outcome?_of_mem hdistinct _ hentry
  rw [outcome?_compile, Inputs.find?_lastName hinput] at houtcome
  exact congrArg (Prod.mk document) (Option.some.inj houtcome).symm

theorem hasFailures_compile_iff (failsOnWarnings : Bool) :
    ((compile files config inputs).run logger).1.hasFailures failsOnWarnings = true ↔
      ∃ input ∈ inputs, Failing files failsOnWarnings (Inputs.lastName inputs input) := by
  rw [hasFailures_iff, files_compile_eq]
  simp only [List.mem_map, exists_exists_and_eq_and, alone, fails_compileFile]
  constructor
  · rintro ⟨document, hdocument, hfailing⟩
    exact ⟨document, Inputs.mem_of_mem_eraseDupsBy hdocument, hfailing⟩
  · rintro ⟨input, hinput, hfailing⟩
    obtain ⟨first, hfirst, hsame⟩ := Inputs.exists_mem_eraseDupsBy hinput
    rw [← Inputs.lastName_congr hsame hinput] at hfailing
    exact ⟨first, hfirst, hfailing⟩

/-- Where documents are spelled in one way, a run fails if one of its inputs does. -/
theorem hasFailures_compile_of_spelled (h : ∀ input ∈ inputs, Inputs.Spelled inputs input)
    (failsOnWarnings : Bool) :
    ((compile files config inputs).run logger).1.hasFailures failsOnWarnings = true ↔
      ∃ input ∈ inputs, Failing files failsOnWarnings input := by
  rw [hasFailures_compile_iff]
  refine exists_congr fun input => and_congr_right fun hinput => ?_
  rw [Inputs.lastName_of_spelled (h input hinput)]

theorem diagnostics_compile :
    ((compile files config inputs).run logger).1.diagnostics =
      (inputs.eraseDupsBy FileName.same).flatMap fun document =>
        match Node.load files (Inputs.lastName inputs document) with
        | .ok tree => ((Pipeline.standard.run tree).run .null).1.allDiagnostics.map (document, ·)
        | .error _ => [] := by
  rw [diagnostics, files_compile_eq, List.flatMap_map]
  apply List.flatMap_congr
  intro document _
  cases hload : Node.load files (Inputs.lastName inputs document) with
  | error error =>
      simp only [alone, fst_run_compileFile_of_error _ _ _ hload]
  | ok tree =>
      simp only [alone, Pipeline.standard_eq_single, fst_run_compileFile_of_ok _ _ _ hload,
        Pipeline.fst_run_single, lowered]

end

/-- Documents are compiled independently, each under its last name. A document of one name comes to
what it comes to alone, whatever else is compiled, and if all have one name, neither the order of
the inputs nor their number has a part in whether a run fails. -/
theorem compile_independent (files : Files) (config : Config) (logger : Logger)
    (inputs : List FileName) :
    ((compile files config inputs).run logger).1.files =
        (inputs.eraseDupsBy FileName.same).map (fun document =>
          (document, alone files config (Inputs.lastName inputs document))) ∧
      (∀ document ∈ inputs, Inputs.Spelled inputs document →
        ((compile files config inputs).run logger).1.outcome? document =
          some (alone files config document)) ∧
      (∀ others failsOnWarnings, (∀ input, input ∈ others ↔ input ∈ inputs) →
        (∀ input ∈ inputs, Inputs.Spelled inputs input) →
          ((compile files config others).run logger).1.hasFailures failsOnWarnings =
            ((compile files config inputs).run logger).1.hasFailures failsOnWarnings) ∧
      ((compile files config inputs).run logger).1.diagnostics =
        (inputs.eraseDupsBy FileName.same).flatMap fun document =>
          match Node.load files (Inputs.lastName inputs document) with
          | .ok tree => ((Pipeline.standard.run tree).run .null).1.allDiagnostics.map (document, ·)
          | .error _ => [] := by
  refine ⟨files_compile_eq files config logger inputs, ?_, ?_,
    diagnostics_compile files config logger inputs⟩
  · intro document hdocument hspelled
    rw [outcome?_compile, Inputs.find?_lastName hdocument, Inputs.lastName_of_spelled hspelled,
      Option.map_some]
  · intro others failsOnWarnings hmem hspelled
    have hothers : ∀ input ∈ others, Inputs.Spelled others input := by
      intro input hinput other hother
      exact hspelled input ((hmem input).mp hinput) other ((hmem other).mp hother)
    rw [Bool.eq_iff_iff, hasFailures_compile_of_spelled files config logger inputs hspelled,
      hasFailures_compile_of_spelled files config logger others hothers]
    simp only [hmem]

/-- A directory to work in that holds one document, under the name `a`. -/
def lone : Entry :=
  .single "a" (((Node.document .component []).withFilePath "a").render .compact)

theorem load_lone : Node.load lone ⟨"a"⟩ = .ok ((Node.document .component []).withFilePath "a") :=
  Node.load_of_render rfl (by rw [Node.nesting_render]; decide +kernel)
    (FileTree.read_of_locate rfl)

theorem load_lone_slash :
    Node.load lone ⟨"a/"⟩ = .error (.unreadable .notADirectory) :=
  rfl

theorem compile_independent_lone :
    ((compile lone {} [⟨"/work/a"⟩, ⟨"b"⟩, ⟨"/work/a"⟩]).run .null).1.outcome? ⟨"/work/a"⟩ =
        some (alone lone {} ⟨"/work/a"⟩) ∧
      ((compile lone {} [⟨"b"⟩, ⟨"/work/a"⟩]).run .null).1.hasFailures false =
        ((compile lone {} [⟨"/work/a"⟩, ⟨"b"⟩, ⟨"/work/a"⟩]).run .null).1.hasFailures false := by
  obtain ⟨_, hvalue, hfailures, _⟩ :=
    compile_independent lone {} .null [⟨"/work/a"⟩, ⟨"b"⟩, ⟨"/work/a"⟩]
  refine ⟨hvalue ⟨"/work/a"⟩ (by simp) (by decide), ?_⟩
  apply hfailures [⟨"b"⟩, ⟨"/work/a"⟩] false
  · intro input
    simp only [List.mem_cons, List.not_mem_nil]
    tauto
  · decide

/-- A document given once more under another name answers by that name, and not as it would alone.
Which name comes last decides whether the run fails. -/
theorem compile_respelled :
    ((compile lone {} [⟨"a"⟩, ⟨"a/"⟩]).run .null).1.outcome? ⟨"a"⟩ ≠ some (alone lone {} ⟨"a"⟩) ∧
      ((compile lone {} [⟨"a"⟩, ⟨"a/"⟩]).run .null).1.hasFailures false = true ∧
      ((compile lone {} [⟨"a/"⟩, ⟨"a"⟩]).run .null).1.hasFailures false = false := by
  have hname : alone lone {} ⟨"a"⟩ = .ok (lowered false
      (ComplexContent.outcome Descriptor.isComponent .null
        ((Node.document .component []).withFilePath "a"))) :=
    fst_run_compileFile_of_ok Descriptor.isComponent false .null load_lone
  have hslash : alone lone {} ⟨"a/"⟩ = .error ⟨⟨"a/"⟩, .unreadable .notADirectory⟩ :=
    fst_run_compileFile_of_error .standard false .null load_lone_slash
  refine ⟨?_, ?_, ?_⟩
  · have hlast : [⟨"a"⟩, ⟨"a/"⟩].reverse.find? (fun input : FileName => input.same ⟨"a"⟩) =
        some ⟨"a/"⟩ := by decide
    rw [outcome?_compile, hlast, Option.map_some, hslash, hname]
    exact nofun
  · have hlast : Inputs.lastName [⟨"a"⟩, ⟨"a/"⟩] ⟨"a"⟩ = ⟨"a/"⟩ := by decide
    rw [hasFailures_compile_iff]
    exact ⟨⟨"a"⟩, by simp, by rw [hlast]; exact .unloaded load_lone_slash⟩
  · have hfirst : [⟨"a/"⟩, ⟨"a"⟩].eraseDupsBy FileName.same = [⟨"a/"⟩] := by decide
    have hlast : Inputs.lastName [⟨"a/"⟩, ⟨"a"⟩] ⟨"a/"⟩ = ⟨"a"⟩ := by decide
    have hnone : fails false (alone lone {} ⟨"a"⟩) = false := by
      rw [hname]
      decide +kernel
    apply Bool.eq_false_iff.mpr
    rw [ne_eq, hasFailures_iff, files_compile_eq, hfirst, List.map_singleton, hlast]
    simp [hnone]

end Compilation

end ComponentLowering
