import ComponentLowering.Node.Reader
import ComponentLowering.Proofs.Records
import ComponentLowering.Proofs.Skipping
/-!
Spans, diagnostics and nodes as functions of values. Reading a record from the text of a value gives
what decoding the value gives (`Node.reads_read`), whatever the layout of the text; what remains to
be said about reading is said about decoders.
-/

namespace ComponentLowering

open Json Json.Reader

/-! ### Spans -/

namespace Span

def Draft.decodeMember (draft : Draft) (m : String × Json) : Except ReadError.Cause Draft := do
  let string : Except ReadError.Cause String := faulty m.2.asString
  let natural : Except ReadError.Cause UInt64 := faulty m.2.asNatural
  match m.1 with
  | "file_path" => return { draft with filePath := ← decodeOnce m.1 draft.filePath string }
  | "offset" => return { draft with offset := ← decodeOnce m.1 draft.offset natural }
  | "line" => return { draft with line := ← decodeOnce m.1 draft.line natural }
  | "col" => return { draft with col := ← decodeOnce m.1 draft.col natural }
  | "length" => return { draft with length := ← decodeOnce m.1 draft.length natural }
  | _ => return draft

def Draft.decodeComplete (draft : Draft) : Except ReadError.Cause Span := do
  return {
    filePath := ← faulty (Json.required "file_path" draft.filePath)
    offset := ← faulty (Json.required "offset" draft.offset)
    line := ← faulty (Json.required "line" draft.line)
    col := ← faulty (Json.required "col" draft.col)
    length := ← faulty (Json.required "length" draft.length) }

def decodeElements : List Json → Except ReadError.Cause Span :=
  decodeField form 0 (fun value => faulty value.asString) fun filePath =>
  decodeField form 1 (fun value => faulty value.asNatural) fun offset =>
  decodeField form 2 (fun value => faulty value.asNatural) fun line =>
  decodeField form 3 (fun value => faulty value.asNatural) fun col =>
  decodeField form 4 (fun value => faulty value.asNatural) fun length =>
  decodeEnd ⟨filePath, offset, line, col, length⟩

def decode : Nat → Json → Except ReadError.Cause Span :=
  decodeRecord form (fun _ members => do (← members.foldlM Draft.decodeMember {}).decodeComplete)
    fun _ => decodeElements

theorem readsMember {m : String × Json} (h : m.2.isWhole) :
    ReadsMember Draft.readMember Draft.decodeMember m := by
  obtain ⟨key, value⟩ := m
  intro draft layout level bound blanks after hblanks hafter hbound
  have honce {α : Type} {item : Reader α} {answer : Except ReadError.Cause α}
      (hitem : Reads item value answer) (before : Option α) :=
    answer_once hitem key before layout level bound hblanks hafter hbound
  have hskip := reads_skip h layout level bound blanks after hblanks hafter hbound
  unfold Draft.readMember Draft.decodeMember
  dsimp only at h hbound hskip ⊢
  split
  case h_6 => simp [answer_colon, hskip]
  all_goals simp [honce (reads_string h), honce (reads_natural h)]

theorem answer_complete (draft : Draft) (bound : Nat) (text : List Char) :
    draft.complete.answer bound text = (fun span => (span, text)) <$> draft.decodeComplete := by
  simp [Draft.complete, Draft.decodeComplete, answer_required]

theorem readsElements {elements : List Json} (h : ∀ element ∈ elements, element.isWhole) :
    ReadsElements Span.readElements true elements (decodeElements elements) := by
  refine readsElements_field rfl h reads_string ?_
  intro filePath elements h
  refine readsElements_field rfl h reads_natural ?_
  intro offset elements h
  refine readsElements_field rfl h reads_natural ?_
  intro line elements h
  refine readsElements_field rfl h reads_natural ?_
  intro col elements h
  refine readsElements_field rfl h reads_natural ?_
  intro length elements h
  exact readsElements_closeArray _ h

theorem reads_read (depth : Nat) {v : Json} (h : v.isWhole) :
    Reads (Span.read depth) v (decode depth v) := by
  refine reads_record h ?_ ?_
  · rintro depth members rfl
    exact readsMembers_complete (isWhole_obj h) readsMember answer_complete {}
  · rintro depth elements rfl
    exact readsElements (isWhole_arr h)

end Span

/-! ### Diagnostics -/

namespace Diagnostic

def Draft.decodeMember (depth : Nat) (draft : Draft) (m : String × Json) :
    Except ReadError.Cause Draft := do
  match m.1 with
  | "code" => return { draft with code := ← decodeOnce m.1 draft.code (decodeVariant depth m.2) }
  | "severity" =>
    return { draft with severity := ← decodeOnce m.1 draft.severity (decodeVariant depth m.2) }
  | "message" =>
    return { draft with message := ← decodeOnce m.1 draft.message (faulty m.2.asString) }
  | "span" =>
    return { draft with
      span := ← decodeOnce m.1 draft.span (decodeOptional (Span.decode depth) m.2) }
  | _ => return draft

def Draft.decodeComplete (draft : Draft) : Except ReadError.Cause Diagnostic := do
  return {
    code := ← faulty (Json.required "code" draft.code)
    severity := ← faulty (Json.required "severity" draft.severity)
    message := ← faulty (Json.required "message" draft.message)
    span := draft.span.join }

def decodeElements (depth : Nat) : List Json → Except ReadError.Cause Diagnostic :=
  decodeField form 0 (decodeVariant depth) fun code =>
  decodeField form 1 (decodeVariant depth) fun severity =>
  decodeField form 2 (fun value => faulty value.asString) fun message =>
  decodeTrailing (decodeOptional (Span.decode depth)) ⟨code, severity, message, none⟩ fun span =>
    ⟨code, severity, message, span⟩

def decode : Nat → Json → Except ReadError.Cause Diagnostic :=
  decodeRecord form
    (fun depth members => do
      (← members.foldlM (Draft.decodeMember depth) {}).decodeComplete)
    decodeElements

theorem readsMember (depth : Nat) {m : String × Json} (h : m.2.isWhole) :
    ReadsMember (Draft.readMember depth) (Draft.decodeMember depth) m := by
  obtain ⟨key, value⟩ := m
  intro draft layout level bound blanks after hblanks hafter hbound
  have honce {α : Type} {item : Reader α} {answer : Except ReadError.Cause α}
      (hitem : Reads item value answer) (before : Option α) :=
    answer_once hitem key before layout level bound hblanks hafter hbound
  have hskip := reads_skip h layout level bound blanks after hblanks hafter hbound
  have hspan := honce (reads_optional h (Span.reads_read depth h))
  unfold Draft.readMember Draft.decodeMember
  dsimp only at h hbound hskip ⊢
  split
  case h_5 => simp [answer_colon, hskip]
  all_goals simp [honce (reads_variant h depth), honce (reads_string h), hspan]

theorem answer_complete (draft : Draft) (bound : Nat) (text : List Char) :
    draft.complete.answer bound text =
      (fun diagnostic => (diagnostic, text)) <$> draft.decodeComplete := by
  simp [Draft.complete, Draft.decodeComplete, answer_required]

theorem readsElements (depth : Nat) {elements : List Json}
    (h : ∀ element ∈ elements, element.isWhole) :
    ReadsElements (Diagnostic.readElements depth) true elements
      (decodeElements depth elements) := by
  refine readsElements_field rfl h (fun h => reads_variant h depth) ?_
  intro code elements h
  refine readsElements_field rfl h (fun h => reads_variant h depth) ?_
  intro severity elements h
  refine readsElements_field rfl h reads_string ?_
  intro message elements h
  exact readsElements_trailing _ _ h fun h => reads_optional h (Span.reads_read depth h)

theorem reads_read (depth : Nat) {v : Json} (h : v.isWhole) :
    Reads (Diagnostic.read depth) v (decode depth v) := by
  refine reads_record h ?_ ?_
  · rintro depth members rfl
    exact readsMembers_complete (isWhole_obj h) (readsMember depth) answer_complete {}
  · rintro depth elements rfl
    exact readsElements depth (isWhole_arr h)

end Diagnostic

/-! ### Nodes -/

namespace Node

/-- The diagnostics of a node. -/
def decodeDiagnostics : Nat → Json → Except ReadError.Cause (List Diagnostic)
  | 0 => decodeList none
  | depth + 1 => decodeList (some (Diagnostic.decode depth))

def Draft.decodeMember (depth : Nat) (children : Json → Except ReadError.Cause (List Node))
    (draft : Draft) (m : String × Json) : Except ReadError.Cause Draft := do
  match m.1 with
  | "children" =>
    return { draft with children := ← decodeOnce m.1 draft.children (children m.2) }
  | "diagnostics" =>
    return { draft with
      diagnostics := ← decodeOnce m.1 draft.diagnostics (decodeDiagnostics depth m.2) }
  | "span" =>
    return { draft with
      span := ← decodeOnce m.1 draft.span (decodeOptional (Span.decode depth) m.2) }
  | _ => limited depth m.2.depth { draft with stored := m :: draft.stored }

def Draft.decodeComplete (draft : Draft) : Except ReadError.Cause Node :=
  faulty ((fun kind =>
    ⟨kind, draft.children.getD [], draft.diagnostics.getD [], draft.span.join⟩) <$>
      Kind.ofMembers draft.stored.reverse)

def decode : Nat → Json → Except ReadError.Cause Node
  | 0, .obj _ => .error (.malformed .tooDeep)
  | depth + 1, .obj members => do
    let children := decodeList
      (match depth with
        | 0 => none
        | depth + 1 => some (decode depth))
    (← members.foldlM (Draft.decodeMember depth children) {}).decodeComplete
  | _, value => .error (.unsuitable (.invalidType value.found (.record form)))

/-- The children of a node. -/
def decodeChildren : Nat → Json → Except ReadError.Cause (List Node)
  | 0 => decodeList none
  | depth + 1 => decodeList (some (decode depth))

theorem decode_obj (depth : Nat) (members : List (String × Json)) :
    decode (depth + 1) (.obj members) =
      members.foldlM (Draft.decodeMember depth (decodeChildren depth)) {} >>=
        Draft.decodeComplete := by
  cases depth <;> rfl

theorem reads_readDiagnostics (depth : Nat) {v : Json} (h : v.isWhole) :
    Reads (readDiagnostics depth) v (decodeDiagnostics depth v) := by
  cases depth with
  | zero => exact reads_list_tooDeep h
  | succ depth => exact reads_list h (Diagnostic.reads_read depth)

theorem readsMember (depth : Nat) {readChildren : Reader (List Node)}
    {decodeChildren : Json → Except ReadError.Cause (List Node)}
    (hchildren : ∀ {v : Json}, v.isWhole → Reads readChildren v (decodeChildren v))
    {m : String × Json} (h : m.2.isWhole) :
    ReadsMember (Draft.readMember depth readChildren) (Draft.decodeMember depth decodeChildren)
      m := by
  obtain ⟨key, value⟩ := m
  intro draft layout level bound blanks after hblanks hafter hbound
  have honce {α : Type} {item : Reader α} {answer : Except ReadError.Cause α}
      (hitem : Reads item value answer) (before : Option α) :=
    answer_once hitem key before layout level bound hblanks hafter hbound
  have hvalue := reads_value depth h layout level bound blanks after hblanks hafter hbound
  have hspan := honce (reads_optional h (Span.reads_read depth h))
  unfold Draft.readMember Draft.decodeMember
  dsimp only at h hbound hvalue ⊢
  split
  case h_4 => simp [answer_colon, hvalue]
  all_goals simp [honce (hchildren h), honce (reads_readDiagnostics depth h), hspan]

theorem answer_complete (draft : Draft) (bound : Nat) (text : List Char) :
    draft.complete.answer bound text = (fun node => (node, text)) <$> draft.decodeComplete := by
  rw [Draft.complete, Draft.decodeComplete]
  cases Kind.ofMembers draft.stored.reverse <;> rfl

theorem decode_mistyped {v : Json} (h : v.isWhole) (hlead : v.lead ≠ '{') (depth : Nat) :
    decode depth v = .error (.unsuitable (.invalidType v.found (.record form))) := by
  cases v with
  | obj members => exact absurd rfl hlead
  | _ => cases depth <;> rfl

/-- A node opens two brackets before the first node in it is read. -/
theorem read_add_two (depth : Nat) :
    Node.read (depth + 2) = (do
      opening '{' (.record form)
      drop
      let children : Reader (List Node) := do
        opening '[' .sequence
        drop
        elements (Node.read depth)
      (← members (Draft.readMember (depth + 1) children) {}).complete) :=
  rfl

theorem reads_read (depth : Nat) {v : Json} (h : v.isWhole) :
    Reads (Node.read depth) v (decode depth v) := by
  induction depth using Nat.strongRecOn generalizing v with
  | ind depth ih =>
      match depth with
      | 0 =>
          refine reads_opening h '{' (.record form) ?_ (fun hlead => decode_mistyped h hlead 0)
          intro hlead
          obtain ⟨members, rfl⟩ := (lead_eq_curly h).mp hlead
          intro layout level bound after hafter hbound
          rfl
      | 1 =>
          refine reads_opening h '{' (.record form) ?_ (fun hlead => decode_mistyped h hlead 1)
          intro hlead
          obtain ⟨members, rfl⟩ := (lead_eq_curly h).mp hlead
          exact readsHere_obj (readsMembers_complete (isWhole_obj h)
            (readsMember 0 fun h => reads_list_tooDeep h) answer_complete {})
      | depth + 2 =>
          rw [read_add_two]
          refine reads_opening h '{' (.record form) ?_ (fun hlead => decode_mistyped h hlead _)
          intro hlead
          obtain ⟨members, rfl⟩ := (lead_eq_curly h).mp hlead
          exact readsHere_obj (readsMembers_complete (isWhole_obj h)
            (readsMember (depth + 1) fun h => reads_list h (ih depth (by omega)))
            answer_complete {})

/-- Reading a node from the text of a value is decoding the value. -/
theorem ofText_render {v : Json} (h : v.isWhole) (layout : Layout) :
    (ofText (v.render layout)).mapError ReadError.cause = decode depthLimit v :=
  run_render (reads_read depthLimit h) layout

end Node

end ComponentLowering
