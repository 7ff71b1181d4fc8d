import ComponentLowering.Proofs.CutValues
/-!
Documents as texts that say themselves where they end. Wherever the text of a node is cut, reading
asks for more (`Node.breaksAt_read`), and a node is read from its text whatever comes behind it
(`Node.answer_read_append`). Main statement: the text of a document that is cut is unfinished, and
one that goes on with more than blanks is malformed (`Node.documentOfText_delimited`).
-/

namespace ComponentLowering

open Json Json.Reader

/-! ### Spans and diagnostics -/

namespace Span

theorem natural_le_greatest (n : UInt64) : n.toNat ≤ greatestNatural :=
  Nat.le_pred_of_lt n.toNat_lt

/-- Every field of a span is asked for to its end. -/
theorem breaksMember (span : Span) {members : List (String × Json)}
    (hmembers : span.toJson = .obj members) {m : String × Json} (hm : m ∈ members)
    {draft draft' : Draft} (h : draft.decodeMember m = .ok draft') :
    BreaksMember (draft.readMember m.1) m.2 := by
  cases hmembers
  simp only [List.mem_cons, List.not_mem_nil, or_false] at hm
  rcases hm with rfl | rfl | rfl | rfl | rfl
  all_goals obtain ⟨_, honce, _⟩ := bind_eq_ok.mp h
  · exact breaksMember_once honce (breaksAt_string _).of_false _
  all_goals exact breaksMember_once honce (breaksAt_natural (natural_le_greatest _)) _

theorem breaksAt_read (span : Span) {depth : Nat} (h : span.toJson.depth ≤ depth) :
    BreaksAt false (Span.read depth) span.toJson := by
  have hdecode := span.decode_toJson depth
  rw [limited_of_le h] at hdecode
  cases depth with
  | zero => cases hdecode
  | succ depth =>
      obtain ⟨draft, hall, _⟩ := bind_eq_ok.mp hdecode
      have hwhole := isWhole_obj span.isWhole_toJson
      exact breaksAt_record span.isWhole_toJson (fun m hm => readsMember (hwhole m hm))
        (fun m hm _ _ => span.breaksMember rfl hm) hall

end Span

namespace Diagnostic

theorem breaksMember (diagnostic : Diagnostic) {members : List (String × Json)}
    (hmembers : diagnostic.toJson = .obj members) {depth : Nat} {m : String × Json}
    (hm : m ∈ members) (hdepth : m.2.depth ≤ depth) {draft draft' : Draft}
    (h : draft.decodeMember depth m = .ok draft') :
    BreaksMember (draft.readMember depth m.1) m.2 := by
  cases hmembers
  simp only [List.mem_append, List.mem_cons, List.not_mem_nil, or_false] at hm
  rcases hm with (rfl | rfl | rfl) | hspan
  · obtain ⟨_, honce, _⟩ := bind_eq_ok.mp h
    exact breaksMember_once honce (breaksAt_variant depth _).of_false _
  · obtain ⟨_, honce, _⟩ := bind_eq_ok.mp h
    exact breaksMember_once honce (breaksAt_variant depth _).of_false _
  · obtain ⟨_, honce, _⟩ := bind_eq_ok.mp h
    exact breaksMember_once honce (breaksAt_string _).of_false _
  · obtain ⟨span, _, rfl⟩ := Option.map_eq_some_iff.mp (Option.mem_toList.mp hspan)
    obtain ⟨_, honce, _⟩ := bind_eq_ok.mp h
    have hoptional := breaksAt_optional span.isWhole_toJson Json.noConfusion
      (span.breaksAt_read hdepth)
    exact breaksMember_once honce hoptional.of_false _

theorem breaksAt_read (diagnostic : Diagnostic) {depth : Nat}
    (h : diagnostic.toJson.depth ≤ depth) :
    BreaksAt false (Diagnostic.read depth) diagnostic.toJson := by
  have hdecode := diagnostic.decode_toJson depth
  rw [limited_of_le h] at hdecode
  cases depth with
  | zero => cases hdecode
  | succ depth =>
      obtain ⟨draft, hall, _⟩ := bind_eq_ok.mp hdecode
      have hwhole := isWhole_obj diagnostic.isWhole_toJson
      have hdepth := depth_le_of_member h
      exact breaksAt_record diagnostic.isWhole_toJson
        (fun m hm => readsMember depth (hwhole m hm))
        (fun m hm _ _ => diagnostic.breaksMember rfl hm (hdepth m hm)) hall

end Diagnostic

/-! ### Nodes -/

namespace Node

def readChildren : Nat → Reader (List Node)
  | 0 => do opening '[' .sequence; malformed .tooDeep
  | depth + 1 => do opening '[' .sequence; drop; elements (Node.read depth)

theorem read_succ (depth : Nat) :
    Node.read (depth + 1) = (do
      opening '{' (.record form)
      drop
      (← members (Draft.readMember depth (readChildren depth)) {}).complete) := by
  cases depth <;> rfl

theorem reads_readChildren (depth : Nat) {v : Json} (h : v.isWhole) :
    Reads (readChildren depth) v (decodeChildren depth v) := by
  cases depth with
  | zero => exact reads_list_tooDeep h
  | succ depth => exact reads_list h (reads_read depth)

theorem mem_listMember {key : String} {elements : List Json} {m : String × Json}
    (h : m ∈ listMember key elements) : m = (key, .arr elements) := by
  unfold listMember at h
  split at h
  · cases h
  · exact List.mem_singleton.mp h

theorem breaksAt_readChildren {nodes : List Node} {depth : Nat}
    (hdepth : (Json.arr (toJsonAll nodes)).depth ≤ depth)
    (hbreaks : ∀ node ∈ nodes, ∀ depth', depth' < depth → node.toJson.depth ≤ depth' →
      BreaksAt false (Node.read depth') node.toJson) :
    BreaksAt false (readChildren depth) (.arr (toJsonAll nodes)) := by
  cases depth with
  | zero => cases hdepth
  | succ depth =>
      have hshallow := depth_le_of_element hdepth
      rw [toJsonAll_eq_map] at hshallow ⊢
      have hwhole : (Json.arr (nodes.map toJson)).isWhole := by
        rw [← toJsonAll_eq_map]
        exact isWhole_toJsonAll nodes
      apply breaksAt_list hwhole
      · intro element helement
        obtain ⟨node, _, rfl⟩ := List.mem_map.mp helement
        refine ⟨node, ?_⟩
        rw [← limited_of_le (hshallow _ helement) node, ← decode_toJson]
        exact reads_read depth node.isWhole_toJson
      · intro element helement
        obtain ⟨node, hnode, rfl⟩ := List.mem_map.mp helement
        exact (hbreaks node hnode depth (Nat.lt_succ_self depth) (hshallow _ helement)).of_false

theorem breaksAt_readDiagnostics {diagnostics : List Diagnostic} {depth : Nat}
    (hwhole : (Json.arr (diagnostics.map Diagnostic.toJson)).isWhole)
    (hdepth : (Json.arr (diagnostics.map Diagnostic.toJson)).depth ≤ depth) :
    BreaksAt false (readDiagnostics depth) (.arr (diagnostics.map Diagnostic.toJson)) := by
  cases depth with
  | zero => cases hdepth
  | succ depth =>
      have hshallow := depth_le_of_element hdepth
      apply breaksAt_list hwhole
      · intro element helement
        obtain ⟨diagnostic, _, rfl⟩ := List.mem_map.mp helement
        refine ⟨diagnostic, ?_⟩
        rw [← limited_of_le (hshallow _ helement) diagnostic, ← Diagnostic.decode_toJson]
        exact Diagnostic.reads_read depth diagnostic.isWhole_toJson
      · intro element helement
        obtain ⟨diagnostic, _, rfl⟩ := List.mem_map.mp helement
        exact (diagnostic.breaksAt_read (hshallow _ helement)).of_false

/-- A member of another name than those of the three lists is stored. -/
theorem readMember_stored (depth : Nat) (children : Reader (List Node)) (draft : Draft)
    {key : String} (h : key ∉ fieldNames) :
    draft.readMember depth children key = (do
      colon
      return { draft with stored := (key, ← value depth) :: draft.stored }) := by
  simp only [fieldNames, List.mem_cons, List.not_mem_nil, or_false, not_or] at h
  obtain ⟨hchildren, hdiagnostics, hspan⟩ := h
  unfold Draft.readMember
  split <;> first | contradiction | rfl

/-- Every member of a node is asked for to its end. -/
theorem breaksMember (node : Node) {members : List (String × Json)}
    (hmembers : node.toJson = .obj members) {depth : Nat}
    (hchildren : ∀ child ∈ node.children, ∀ depth', depth' < depth →
      child.toJson.depth ≤ depth' → BreaksAt false (Node.read depth') child.toJson)
    {m : String × Json} (hm : m ∈ members) (hwhole : m.2.isWhole) (hdepth : m.2.depth ≤ depth)
    {draft draft' : Draft} (h : draft.decodeMember depth (decodeChildren depth) m = .ok draft') :
    BreaksMember (draft.readMember depth (readChildren depth) m.1) m.2 := by
  rw [toJson_eq] at hmembers
  cases hmembers
  rcases List.mem_append.mp hm with hm | hspan
  · rcases List.mem_append.mp hm with hm | hdiagnostics
    · rcases List.mem_append.mp hm with hkind | hlist
      · rw [readMember_stored depth _ draft (stored_kind node.kind m hkind)]
        exact breaksMember_colon (breaksAt_value hwhole hdepth) fun v =>
          { draft with stored := (m.1, v) :: draft.stored }
      · obtain rfl := mem_listMember hlist
        obtain ⟨_, honce, _⟩ := bind_eq_ok.mp h
        exact breaksMember_once honce (breaksAt_readChildren hdepth hchildren).of_false _
    · obtain rfl := mem_listMember hdiagnostics
      obtain ⟨_, honce, _⟩ := bind_eq_ok.mp h
      exact breaksMember_once honce (breaksAt_readDiagnostics hwhole hdepth).of_false _
  · obtain ⟨span, _, rfl⟩ := Option.map_eq_some_iff.mp (Option.mem_toList.mp hspan)
    obtain ⟨_, honce, _⟩ := bind_eq_ok.mp h
    have hoptional := breaksAt_optional span.isWhole_toJson Json.noConfusion
      (span.breaksAt_read hdepth)
    exact breaksMember_once honce hoptional.of_false _

/-- A node is asked for up to its closing bracket. -/
theorem breaksAt_read (node : Node) {depth : Nat} (h : node.toJson.depth ≤ depth) :
    BreaksAt false (Node.read depth) node.toJson := by
  induction depth using Nat.strongRecOn generalizing node with
  | ind depth ih =>
      obtain ⟨members, hmembers⟩ : ∃ members, node.toJson = .obj members := ⟨_, toJson_eq node⟩
      have hdecode := node.decode_toJson depth
      have hwhole := node.isWhole_toJson
      rw [limited_of_le h] at hdecode
      rw [hmembers] at h hdecode hwhole ⊢
      cases depth with
      | zero => cases hdecode
      | succ depth =>
          rw [decode_obj] at hdecode
          obtain ⟨draft, hall, _⟩ := bind_eq_ok.mp hdecode
          have hchildren : ∀ child ∈ node.children, ∀ depth', depth' < depth →
              child.toJson.depth ≤ depth' → BreaksAt false (Node.read depth') child.toJson :=
            fun child _ depth' hlt hle => ih depth' (Nat.lt_succ_of_lt hlt) child hle
          have hread := fun m hm =>
            readsMember depth (reads_readChildren depth) (isWhole_obj hwhole m hm)
          have hbreaks : ∀ m ∈ members, ∀ draft draft' : Draft,
              draft.decodeMember depth (decodeChildren depth) m = .ok draft' →
                BreaksMember (draft.readMember depth (readChildren depth) m.1) m.2 := by
            intro m hm draft draft' hstep
            exact node.breaksMember hmembers hchildren hm (isWhole_obj hwhole m hm)
              (depth_le_of_member h m hm) hstep
          rw [read_succ]
          exact breaksAt_opening hwhole (write_obj · · members [])
            (fun layout level => (breaks_members hread hbreaks hall layout level).bind_of_false) _

/-- A node is read from its text whatever follows the text. -/
theorem answer_read_append (node : Node) {depth : Nat} (h : node.toJson.depth ≤ depth)
    (layout : Layout) (level bound : Nat) (after : List Char)
    (hbound : (node.toJson.write layout level after).length < bound) :
    (Node.read depth).answer bound (node.toJson.write layout level after) = .ok (node, after) := by
  obtain ⟨members, hmembers⟩ : ∃ members, node.toJson = .obj members := ⟨_, toJson_eq node⟩
  have hdecode := node.decode_toJson depth
  have hwhole := node.isWhole_toJson
  rw [limited_of_le h] at hdecode
  rw [hmembers] at h hdecode hwhole hbound ⊢
  cases depth with
  | zero => cases hdecode
  | succ depth =>
      rw [decode_obj] at hdecode
      obtain ⟨draft, hall, hcomplete⟩ := bind_eq_ok.mp hdecode
      rw [write_obj] at hbound ⊢
      have hlength := Nat.lt_of_succ_lt hbound
      have hmembers := answer_membersFrom members (isWhole_obj hwhole)
        (fun m hm => readsMember depth (reads_readChildren depth) (isWhole_obj hwhole m hm)) {}
        layout level true bound bound hlength hlength
      rw [hall] at hmembers
      simp [read_succ, opening, isBlank, Reader.members, hmembers, answer_complete, hcomplete]

/-! ### Documents -/

theorem answer_run {α : Type} (item : Reader α) (text : List Char) :
    (item.run text).mapError ReadError.cause =
      Prod.fst <$> (whole item).answer (text.length + 1) text := by
  rw [Reader.run, Reader.answer]
  cases (whole item (text.length + 1)).run text <;> rfl

section

variable {node : Node} {layout : Layout}

theorem toList_render (node : Node) (layout : Layout) :
    (node.render layout).toList = node.toJson.write layout 0 [] :=
  String.toList_ofList

/-- A text that breaks off is unfinished. -/
theorem ofText_front (h : nesting (node.render layout) ≤ depthLimit) {front behind : String}
    (htext : node.render layout = front ++ behind) (hbehind : behind ≠ "") :
    ∃ error unfinished, ofText front = .error error ∧ error.cause = .truncated unfinished := by
  have hcut : Cut front.toList (node.toJson.write layout 0 []) := by
    refine ⟨behind.toList, ?_, ?_⟩
    · intro hnil
      exact hbehind (String.toList_eq_nil_iff.mp hnil)
    · rw [← toList_render, htext, String.toList_append]
  have hbreaks : Breaks false (whole (Node.read depthLimit)) (node.toJson.write layout 0 []) := by
    rw [nesting_render] at h
    exact ((node.breaksAt_read h).here layout 0).bind_of_false
  have hshort := hbreaks (front.toList.length + 1) front.toList hcut (Nat.lt_succ_self _)
  have hrun := answer_run (Node.read depthLimit) front.toList
  generalize (whole (Node.read depthLimit)).answer _ _ = answer at hshort hrun
  cases hshort with
  | ended hends _ => cases hends
  | truncated unfinished =>
      cases hread : ofText front with
      | ok root => rw [← ofText, hread] at hrun; cases hrun
      | error error =>
          rw [← ofText, hread] at hrun
          exact ⟨error, unfinished, rfl, Except.error.inj hrun⟩

/-- A text goes on with blanks, or not at all. -/
theorem ofText_append (h : nesting (node.render layout) ≤ depthLimit) (after : String) :
    (ofText (node.render layout ++ after)).mapError ReadError.cause =
      if after.toList.all isBlank then .ok node else .error (.malformed .trailingCharacters) := by
  have htext : (node.render layout ++ after).toList = node.toJson.write layout 0 after.toList := by
    rw [String.toList_append, toList_render, ← write_append, List.nil_append]
  rw [nesting_render] at h
  have hread := node.answer_read_append h layout 0 _ after.toList (Nat.lt_succ_self _)
  rw [ofText, answer_run, htext, whole, answer_bind, hread, ok_bind]
  simp only [answer_bind, answer_skipBlanks, answer_peek?, ok_bind]
  cases hrest : after.toList.dropWhile isBlank with
  | nil =>
      have hblank := List.all_eq_true.mpr (List.dropWhile_eq_nil_iff.mp hrest)
      rw [if_pos hblank]
      rfl
  | cons c rest =>
      have hblank : ¬after.toList.all isBlank = true := by
        intro hall
        rw [List.dropWhile_eq_nil_iff.mpr (List.all_eq_true.mp hall)] at hrest
        cases hrest
      rw [if_neg hblank]
      rfl

/-- The text of a document says itself where it ends: cut anywhere it is unfinished, and behind it
there may be blanks and nothing else, whatever the layout. -/
theorem documentOfText_delimited (hroot : node.tag = .document)
    (h : nesting (node.render layout) ≤ depthLimit) :
    (∀ front behind : String, node.render layout = front ++ behind → behind ≠ "" →
        ∃ error unfinished, documentOfText front = .error (.unreadable error) ∧
          error.cause = .truncated unfinished) ∧
      ∀ after : String,
        (documentOfText (node.render layout ++ after) = .ok node ↔
            ∀ c ∈ after.toList, isBlank c = true) ∧
          ((∃ c ∈ after.toList, isBlank c = false) →
            ∃ error, documentOfText (node.render layout ++ after) = .error (.unreadable error) ∧
              error.cause = .malformed .trailingCharacters) := by
  constructor
  · intro front behind htext hbehind
    obtain ⟨error, unfinished, hread, hcause⟩ := ofText_front h htext hbehind
    refine ⟨error, unfinished, ?_, hcause⟩
    rw [documentOfText, hread]
  · intro after
    have hafter := ofText_append h after
    by_cases hblank : after.toList.all isBlank = true
    · rw [if_pos hblank] at hafter
      have hall := List.all_eq_true.mp hblank
      cases hread : ofText (node.render layout ++ after) with
      | error error => rw [hread] at hafter; cases hafter
      | ok root =>
          rw [hread] at hafter
          cases hafter
          have hdocument : documentOfText (node.render layout ++ after) = .ok node := by
            rw [documentOfText, hread]
            exact if_pos hroot
          refine ⟨⟨fun _ => hall, fun _ => hdocument⟩, ?_⟩
          rintro ⟨c, hc, hnot⟩
          rw [hall c hc] at hnot
          cases hnot
    · rw [if_neg hblank] at hafter
      cases hread : ofText (node.render layout ++ after) with
      | ok root => rw [hread] at hafter; cases hafter
      | error error =>
          rw [hread] at hafter
          have hdocument :
              documentOfText (node.render layout ++ after) = .error (.unreadable error) := by
            rw [documentOfText, hread]
          refine ⟨⟨?_, ?_⟩, fun _ => ⟨error, hdocument, Except.error.inj hafter⟩⟩
          · intro hok
            rw [hdocument] at hok
            cases hok
          · intro hall
            exact absurd (List.all_eq_true.mpr hall) hblank

end

/-- A document with a place, whose length is the last number in the text. -/
def placedDocument : Node :=
  (document .component []).withSpan ⟨"f", 1, 20, 3, 45⟩

/-- Cut behind the first digit of that number, the text is unfinished; with a line break behind it,
it is whole. -/
theorem documentOfText_delimited_placedDocument :
    (∃ error unfinished,
        documentOfText (String.ofList ((placedDocument.render .compact).toList.dropLast.dropLast
            |>.dropLast)) = .error (.unreadable error) ∧
          error.cause = .truncated unfinished) ∧
      documentOfText (placedDocument.render .indented ++ "\n") = .ok placedDocument := by
  have hnesting : ∀ layout, nesting (placedDocument.render layout) ≤ depthLimit := by
    intro layout
    rw [nesting_render]
    decide
  have hroot : placedDocument.tag = .document := rfl
  have hcompact := documentOfText_delimited hroot (hnesting .compact)
  have hindented := documentOfText_delimited hroot (hnesting .indented)
  constructor
  · apply hcompact.1 _ "5\x7d\x7d"
    · decide +kernel
    · decide
  · apply (hindented.2 "\n").1.mpr
    simp [isBlank]

end Node

end ComponentLowering
