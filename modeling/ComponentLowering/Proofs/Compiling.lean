import ComponentLowering.Compilation
import ComponentLowering.Proofs.RoundTrip
import ComponentLowering.Proofs.Visit
/-!
What compiling a document comes to, without the messages. A document that was loaded names its
place, and is loaded from its own text as it is. The pipeline of the one pass leaves the tree that
the pass leaves, whatever logger it writes to, and `compileFile` answers by that tree or by the
reason why there was none.
-/

namespace ComponentLowering

open Json.Reader

/-! ### Loading -/

namespace Node

variable {files : Files} {path : FileName} {document : Node}

theorem kind_withFilePath {root : Node} (h : root.tag = .document) (path : String) :
    ∃ fileKind place, (root.withFilePath path).kind = .document fileKind (some place) := by
  unfold tag at h
  unfold withFilePath
  cases hkind : root.kind with
  | document fileKind filePath =>
      cases filePath with
      | none => exact ⟨fileKind, path, rfl⟩
      | some place => exact ⟨fileKind, place, hkind⟩
  | _ => rw [hkind] at h; cases h

/-- A document that was loaded names its place. -/
theorem kind_of_load (h : load files path = .ok document) :
    ∃ fileKind place, document.kind = .document fileKind (some place) := by
  unfold load at h
  split at h
  · cases h
  · split at h
    · cases h
    · rename_i text _ root hroot
      cases h
      unfold documentOfText at hroot
      split at hroot
      · cases hroot
      · split at hroot
        · rename_i htag
          cases hroot
          exact kind_withFilePath htag path.text
        · cases hroot

variable {layout : Layout} {fileKind : FileKind} {place : String}

theorem documentOfText_render (hkind : document.kind = .document fileKind (some place))
    (h : nesting (document.render layout) ≤ depthLimit) :
    documentOfText (document.render layout) = .ok document := by
  have htag : document.tag = .document := by rw [tag, hkind, Kind.tag]
  rw [documentOfText, ofText_render_of_le h]
  exact if_pos htag

/-- A document that names its place is loaded from its own text as it is. -/
theorem load_of_render (hkind : document.kind = .document fileKind (some place))
    (h : nesting (document.render layout) ≤ depthLimit)
    (hread : files.read path = .ok (document.render layout)) :
    load files path = .ok document := by
  have hplace : document.withFilePath path.text = document := by rw [withFilePath, hkind]
  have hroot : documentOfText (document.render layout) = .ok document :=
    documentOfText_render hkind h
  rw [load, hread]
  simp only [hroot, hplace]

end Node

/-- A directory with a single file in it. -/
def Entry.single (name text : String) : Entry :=
  .directory [(name, .file text.toUTF8)]

theorem FileTree.read_of_locate {tree : FileTree} {path : FileName} {text : String}
    {parents : List Entry} (h : tree.locate path = .ok ⟨.file text.toUTF8, parents⟩) :
    tree.read path = .ok text := by
  have htext : String.fromUTF8? text.toUTF8 = some text := dif_pos text.isValidUTF8
  rw [read, h]
  simp only [bind, Except.bind, htext]
  rfl

/-! ### The pass in its pipeline -/

namespace ComplexContent

/-- The logger has no part in what the pass leaves. -/
theorem outcome_logger (gate : Descriptor → Bool) (logger logger' : Logger) (tree : Node) :
    outcome gate logger tree = outcome gate logger' tree := by
  by_cases h : tree.fileKind? = some .legacy
  · rw [outcome_of_legacy gate logger h, outcome_of_legacy gate logger' h]
  · rw [outcome_eq_settle gate logger h, outcome_eq_settle gate logger' h]

theorem kind_outcome (gate : Descriptor → Bool) (logger : Logger) (tree : Node) :
    (outcome gate logger tree).kind = tree.kind := by
  by_cases h : tree.fileKind? = some .legacy
  · rw [outcome_of_legacy gate logger h]
  · rw [outcome_eq_settle gate logger h, kind_settle]

end ComplexContent

/-- The pipeline of the one pass for some gate. -/
def Pipeline.single (gate : Descriptor → Bool) : Pipeline :=
  Pipeline.empty.add (Pass.complexContent gate)

theorem Pipeline.standard_eq_single : Pipeline.standard = Pipeline.single Descriptor.isComponent :=
  rfl

theorem Pipeline.passes_single (gate : Descriptor → Bool) :
    (single gate).passes = [Pass.complexContent gate] :=
  List.mergeSort_singleton _

theorem Pipeline.fst_run_single (gate : Descriptor → Bool) (logger : Logger) (tree : Node) :
    (((single gate).run tree).run logger).1 = ComplexContent.outcome gate logger tree := by
  rw [run, passes_single, List.foldlM_cons, LogM.fst_run_bind, step, LogM.fst_run_bind]
  rfl

/-! ### Outcomes -/

namespace Compilation

open ComplexContent (outcome outcome_logger)

/-- What a compilation tells of the tree it is left with. -/
def lowered (showTree : Bool) (tree : Node) : Lowered where
  diagnostics := tree.allDiagnostics
  tree := if showTree then some (tree.render .indented) else none

section

variable {files : Files} {path : FileName}

theorem fst_run_compileFile_of_error (pipeline : Pipeline) (showTree : Bool) (logger : Logger)
    {error : LoadError} (h : Node.load files path = .error error) :
    ((compileFile files pipeline showTree path).run logger).1 = .error ⟨path, error⟩ := by
  rw [compileFile, h]
  rfl

theorem fst_run_compileFile_of_ok (gate : Descriptor → Bool) (showTree : Bool) (logger : Logger)
    {document : Node} (h : Node.load files path = .ok document) :
    ((compileFile files (.single gate) showTree path).run logger).1 =
      .ok (lowered showTree (outcome gate logger document)) := by
  rw [compileFile, h, outcome_logger gate logger (.nested logger path.text),
    ← Pipeline.fst_run_single]
  rfl

end

end Compilation

end ComponentLowering
