import ComponentLowering.Proofs.Tokens
/-!
Readers on the texts of values. `Reads reader value answer` says what a reader answers to the text
of a value, whatever its layout, whatever blanks stand in front of it and whatever closes it. From
this the loops over elements and members are what the same loops over lists are, and reading a
value as it is gives the value, unless too many brackets are open (`reads_value`).
-/

namespace ComponentLowering

def Number.isWhole : Number → Bool
  | whole value => -(Nat.pow 2 63 : Int) ≤ value ∧ value ≤ Json.Reader.greatestNatural
  | real _ => false

namespace Json

mutual

/-- Whether all numbers in a value are whole. -/
def isWhole : Json → Bool
  | .num value => value.isWhole
  | .arr elements => isWholeElements elements
  | .obj members => isWholeMembers members
  | _ => true
termination_by structural value => value

def isWholeElements : List Json → Bool
  | [] => true
  | element :: rest => element.isWhole && isWholeElements rest
termination_by structural elements => elements

def isWholeMembers : List (String × Json) → Bool
  | [] => true
  | (_, value) :: rest => value.isWhole && isWholeMembers rest
termination_by structural members => members

end

/-- The first character of the text of a value, which tells readers how to go on. -/
def lead : Json → Char
  | .null => 'n'
  | .bool true => 't'
  | .bool false => 'f'
  | .num value => value.text.headD '0'
  | .str _ => '"'
  | .arr _ => '['
  | .obj _ => '{'

@[simp] theorem lead_arr (elements : List Json) : (arr elements).lead = '[' := rfl

@[simp] theorem lead_obj (members : List (String × Json)) : (obj members).lead = '{' := rfl

theorem lead_num {number : Number} (h : (num number).isWhole) :
    (lead (.num number) = '-' ∨ (lead (.num number)).isDigit) ∧
      ∃ rest, number.text = lead (.num number) :: rest := by
  cases number with
  | real x => cases h
  | whole n =>
      cases n with
      | ofNat n =>
          obtain ⟨c, rest, hdigits, hdigit, _⟩ := Reader.head_toDigits n
          simp [lead, Number.text, Number.digits, hdigits, hdigit]
      | negSucc n => simp [lead, Number.text, Number.digits]

/-- The first character of a number opens nothing else. -/
theorem lead_num_ne {number : Number} (h : (num number).isWhole) {c : Char}
    (hc : c ∈ ['n', 't', 'f', '"', '[', '{', ']', '}']) : lead (.num number) ≠ c := by
  rintro rfl
  rcases (lead_num h).1 with hlead | hdigit
  · rw [hlead] at hc
    exact absurd hc (by decide)
  · have hnone : ∀ c ∈ ['n', 't', 'f', '"', '[', '{', ']', '}'], c.isDigit = false := by simp
    rw [hnone _ hc] at hdigit
    cases hdigit

/-- A number starts like one, and like no word and no string. -/
theorem lead_num_starts {number : Number} (h : (num number).isWhole) :
    (lead (.num number) = '-' ∨ (lead (.num number)).isDigit) ∧ lead (.num number) ≠ 'n' ∧
      lead (.num number) ≠ 't' ∧ lead (.num number) ≠ 'f' ∧ lead (.num number) ≠ '"' :=
  ⟨(lead_num h).1, lead_num_ne h (by decide), lead_num_ne h (by decide),
    lead_num_ne h (by decide), lead_num_ne h (by decide)⟩

theorem write_lead {value : Json} (h : value.isWhole) (layout : Layout) (level : Nat)
    (after : List Char) : ∃ rest, value.write layout level after = value.lead :: rest := by
  cases value with
  | null => exact ⟨_, rfl⟩
  | bool b => cases b <;> exact ⟨_, rfl⟩
  | num number =>
      obtain ⟨_, rest, htext⟩ := lead_num h
      exact ⟨rest ++ after, by rw [write, htext, List.cons_append]⟩
  | str s => exact ⟨_, rfl⟩
  | arr elements => cases elements <;> exact ⟨_, rfl⟩
  | obj members => cases members <;> exact ⟨_, rfl⟩

theorem isBlank_lead {value : Json} (h : value.isWhole) : isBlank value.lead = false := by
  cases value with
  | bool b => cases b <;> rfl
  | num number =>
      rcases (lead_num h).1 with hlead | hdigit
      · rw [hlead]; rfl
      · cases hblank : isBlank (lead (.num number)) with
        | false => rfl
        | true => rw [(Reader.closed_of_blank hblank).1] at hdigit; cases hdigit
  | _ => rfl

/-- No value starts as an array or an object ends. -/
theorem lead_ne_closing {value : Json} (h : value.isWhole) :
    value.lead ≠ ']' ∧ value.lead ≠ '}' := by
  cases value with
  | bool b => cases b <;> decide
  | num number => exact ⟨lead_num_ne h (by decide), lead_num_ne h (by decide)⟩
  | _ => simp [lead]

namespace Reader

variable {α σ : Type}

/-- `ReadsHere reader value answer`: this is what the reader answers to a text that starts with
the value. -/
def ReadsHere (reader : Reader α) (value : Json) (answer : Except ReadError.Cause α) : Prop :=
  ∀ (layout : Layout) (level bound : Nat) (after : List Char),
    Closed after → (value.write layout level after).length < bound →
      reader.answer bound (value.write layout level after) = (fun a => (a, after)) <$> answer

/-- `Reads reader value answer`: the same with blanks in front of the value or without. -/
def Reads (reader : Reader α) (value : Json) (answer : Except ReadError.Cause α) : Prop :=
  ∀ (layout : Layout) (level bound : Nat) (blanks after : List Char),
    Blank blanks → Closed after → (blanks ++ value.write layout level after).length < bound →
      reader.answer bound (blanks ++ value.write layout level after) =
        (fun a => (a, after)) <$> answer

theorem Reads.here {reader : Reader α} {value : Json} {answer : Except ReadError.Cause α}
    (h : Reads reader value answer) : ReadsHere reader value answer := by
  intro layout level bound after hafter hbound
  exact h layout level bound [] after blank_nil hafter hbound

theorem answer_ahead_value {value : Json} (h : value.isWhole) (unfinished : Unfinished)
    (layout : Layout) (level bound : Nat) {blanks : List Char} (hblanks : Blank blanks)
    (after : List Char) :
    (ahead unfinished).answer bound (blanks ++ value.write layout level after) =
      .ok (value.lead, value.write layout level after) := by
  obtain ⟨rest, hwrite⟩ := write_lead h layout level after
  rw [hwrite, answer_ahead unfinished bound hblanks (isBlank_lead h)]

/-- A reader that looks ahead goes on with the first character of the value. -/
theorem reads_ahead {next : Char → Reader α} {value : Json} {answer : Except ReadError.Cause α}
    (h : value.isWhole) (hnext : ReadsHere (next value.lead) value answer) :
    Reads (ahead .value >>= next) value answer := by
  intro layout level bound blanks after hblanks hafter hbound
  rw [answer_bind, answer_ahead_value h .value layout level bound hblanks after, ok_bind]
  refine hnext layout level bound after hafter ?_
  rw [List.length_append] at hbound
  omega

/-! ### Scalars -/

def isScalar : Json → Bool
  | .arr _ | .obj _ => false
  | _ => true

theorem write_str (layout : Layout) (level : Nat) (s : String) (after : List Char) :
    (Json.str s).write layout level after =
      '"' :: (s.toList.flatMap Json.escape ++ '"' :: after) := by
  simp [write, quote]

theorem shape_cases (value : Json) :
    isScalar value ∨ (∃ elements, value = .arr elements) ∨ ∃ members, value = .obj members := by
  cases value with
  | arr elements => exact .inr (.inl ⟨elements, rfl⟩)
  | obj members => exact .inr (.inr ⟨members, rfl⟩)
  | _ => exact .inl rfl

theorem depth_scalar {value : Json} (hscalar : isScalar value) : value.depth = 0 := by
  cases value with
  | arr elements => cases hscalar
  | obj members => cases hscalar
  | _ => rfl

theorem lead_of_scalar {value : Json} (h : value.isWhole) (hscalar : isScalar value) :
    value.lead ≠ '[' ∧ value.lead ≠ '{' := by
  cases value with
  | bool b => cases b <;> decide
  | num number => exact ⟨lead_num_ne h (by decide), lead_num_ne h (by decide)⟩
  | arr elements => cases hscalar
  | obj members => cases hscalar
  | _ => simp [lead]

theorem reads_scalar {value : Json} (h : value.isWhole) (hscalar : isScalar value) :
    Reads scalar value (.ok value) := by
  refine reads_ahead h ?_
  intro layout level bound after hafter hbound
  cases value with
  | null => simp [lead, write, word, answer_ite]
  | bool b => cases b <;> simp [lead, write, word, answer_ite]
  | num number =>
      cases number with
      | real x => cases h
      | whole n =>
          have hstarts := lead_num_starts h
          generalize lead (.num (.whole n)) = c at hstarts ⊢
          obtain ⟨hlow, hhigh⟩ := of_decide_eq_true h
          have hdigits := answer_signedNumber hlow hhigh bound hafter
          simp [hstarts, write, Number.text, hdigits]
  | str s =>
      rw [write_str] at hbound ⊢
      have hlength : (s.toList.flatMap Json.escape ++ '"' :: after).length < bound := by
        rw [List.length_cons] at hbound
        omega
      simp [lead, answer_restOfString s bound after hlength]
  | arr elements => cases hscalar
  | obj members => cases hscalar

/-! ### Arrays -/

/-- The text of an array from an element on: behind the bracket, or behind the element before. -/
def elementsText (layout : Layout) (level : Nat) (isFirst : Bool) (elements : List Json)
    (after : List Char) : List Char :=
  match isFirst, elements with
  | true, [] => ']' :: after
  | true, element :: rest =>
    layout.lineBreak (level + 1) ++
      element.write layout (level + 1) (writeElements layout level rest after)
  | false, elements => writeElements layout level elements after

theorem write_arr (layout : Layout) (level : Nat) (elements : List Json) (after : List Char) :
    (Json.arr elements).write layout level after =
      '[' :: elementsText layout level true elements after := by
  cases elements <;> rfl

theorem length_write_lt {value : Json} (h : value.isWhole) (layout : Layout) (level : Nat)
    (after : List Char) : after.length < (value.write layout level after).length := by
  have happend := write_append layout level value [] after
  obtain ⟨rest, hlead⟩ := write_lead h layout level []
  rw [List.nil_append] at happend
  rw [happend, hlead, List.length_append, List.length_cons]
  omega

theorem closed_writeElements (layout : Layout) (level : Nat) (elements : List Json)
    (after : List Char) : Closed (writeElements layout level elements after) := by
  cases elements with
  | nil => exact closed_append (layout.lineBreak_blank level) (closed_cons (by decide) after)
  | cons element rest => exact closed_cons (by decide) _

theorem answer_nextElement_nil (layout : Layout) (level : Nat) (isFirst : Bool) (bound : Nat)
    (after : List Char) :
    (nextElement isFirst).answer bound (elementsText layout level isFirst [] after) =
      .ok (false, after) := by
  have hahead : (ahead .list).answer bound (elementsText layout level isFirst [] after) =
      .ok (']', ']' :: after) := by
    cases isFirst with
    | true => rfl
    | false => exact answer_ahead .list bound (layout.lineBreak_blank level) rfl after
  simp [nextElement, hahead, answer_ite]

theorem answer_nextElement_cons (layout : Layout) (level : Nat) (isFirst : Bool) (bound : Nat)
    {element : Json} (h : element.isWhole) (rest : List Json) (after : List Char) :
    (nextElement isFirst).answer bound (elementsText layout level isFirst (element :: rest) after) =
      .ok (true, element.write layout (level + 1) (writeElements layout level rest after)) := by
  have hclosing := (lead_ne_closing h).1
  have hahead := fun unfinished => answer_ahead_value h unfinished layout (level + 1) bound
    (layout.lineBreak_blank (level + 1)) (writeElements layout level rest after)
  cases isFirst with
  | true => simp [nextElement, elementsText, hahead, hclosing, answer_ite]
  | false => simp [nextElement, elementsText, writeElements, hahead, hclosing, answer_ite, isBlank]

theorem length_elementsText {element : Json} (h : element.isWhole) (layout : Layout) (level : Nat)
    (isFirst : Bool) (rest : List Json) (after : List Char) :
    (element.write layout (level + 1) (writeElements layout level rest after)).length ≤
        (elementsText layout level isFirst (element :: rest) after).length ∧
      (writeElements layout level rest after).length <
        (elementsText layout level isFirst (element :: rest) after).length := by
  have hlt := length_write_lt h layout (level + 1) (writeElements layout level rest after)
  cases isFirst <;>
    simp only [elementsText, writeElements, List.length_append, List.length_cons] <;> omega

/-- A loop over the elements of an array is the same loop over a list. -/
theorem answer_elementsFrom {item : Reader α} {decode : Json → Except ReadError.Cause α}
    (elements : List Json) (hwhole : ∀ element ∈ elements, element.isWhole)
    (h : ∀ element ∈ elements, Reads item element (decode element)) (layout : Layout) (level : Nat)
    (isFirst : Bool) (n bound : Nat) {after : List Char}
    (hn : (elementsText layout level isFirst elements after).length < n)
    (hbound : (elementsText layout level isFirst elements after).length < bound) :
    (elementsFrom item isFirst n).answer bound (elementsText layout level isFirst elements after) =
      (fun found => (found, after)) <$> elements.mapM decode := by
  induction elements generalizing isFirst n with
  | nil =>
      cases n with
      | zero => cases hn
      | succ n => simp [elementsFrom, answer_nextElement_nil, answer_ite]
  | cons element rest ih =>
      cases n with
      | zero => cases hn
      | succ n =>
          have helement : element.isWhole := hwhole element (by simp)
          obtain ⟨hitem, hrest⟩ := length_elementsText helement layout level isFirst rest after
          have hread := (h element (by simp)).here layout (level + 1) bound _
            (closed_writeElements layout level rest after) (Nat.lt_of_le_of_lt hitem hbound)
          have hloop := ih (fun other ho => hwhole other (List.mem_cons_of_mem element ho))
            (fun other ho => h other (List.mem_cons_of_mem element ho)) false n
            (Nat.lt_of_lt_of_le hrest (Nat.le_of_lt_succ hn)) (Nat.lt_trans hrest hbound)
          simp only [elementsText] at hloop
          simp only [elementsFrom, answer_bind, ok_bind, if_true, List.mapM_cons, hread,
            answer_nextElement_cons layout level isFirst bound helement rest after]
          cases decode element with
          | error cause => rfl
          | ok a =>
              simp only [Except.map_ok, ok_bind, hloop]
              cases rest.mapM decode <;> rfl

/-- `ReadsElements reader isFirst elements answer`: this is what the reader answers to the text of
an array from these elements on, up to its end. -/
def ReadsElements (reader : Reader α) (isFirst : Bool) (elements : List Json)
    (answer : Except ReadError.Cause α) : Prop :=
  ∀ (layout : Layout) (level bound : Nat) (after : List Char),
    Closed after → (elementsText layout level isFirst elements after).length < bound →
      reader.answer bound (elementsText layout level isFirst elements after) =
        (fun a => (a, after)) <$> answer

theorem readsElements_elements {item : Reader α} {decode : Json → Except ReadError.Cause α}
    {elements : List Json} (hwhole : ∀ element ∈ elements, element.isWhole)
    (h : ∀ element ∈ elements, Reads item element (decode element)) :
    ReadsElements (Reader.elements item) true elements (elements.mapM decode) := by
  intro layout level bound after hafter hbound
  rw [Reader.elements, answer_bind, answer_read, ok_bind]
  exact answer_elementsFrom elements hwhole h layout level true bound bound hbound hbound

/-- An array is read from behind its bracket. -/
theorem readsHere_arr {reader : Reader α} {elements : List Json}
    {answer : Except ReadError.Cause α} (h : ReadsElements reader true elements answer) :
    ReadsHere (drop >>= fun _ => reader) (.arr elements) answer := by
  intro layout level bound after hafter hbound
  rw [write_arr] at hbound ⊢
  rw [answer_bind, answer_drop, ok_bind, List.tail_cons]
  exact h layout level bound after hafter (Nat.lt_of_succ_lt hbound)

/-! ### Objects -/

/-- The text of an object from a member on: behind the bracket, or behind the member before. -/
def membersText (layout : Layout) (level : Nat) (isFirst : Bool) (members : List (String × Json))
    (after : List Char) : List Char :=
  match isFirst, members with
  | true, [] => '}' :: after
  | true, (key, value) :: rest =>
    layout.lineBreak (level + 1) ++ (quote key ++ ':' :: (layout.afterColon ++
      value.write layout (level + 1) (writeMembers layout level rest after)))
  | false, members => writeMembers layout level members after

theorem write_obj (layout : Layout) (level : Nat) (members : List (String × Json))
    (after : List Char) :
    (Json.obj members).write layout level after =
      '{' :: membersText layout level true members after := by
  cases members <;> simp [write, membersText]

theorem closed_writeMembers (layout : Layout) (level : Nat) (members : List (String × Json))
    (after : List Char) : Closed (writeMembers layout level members after) := by
  cases members with
  | nil => exact closed_append (layout.lineBreak_blank level) (closed_cons (by decide) after)
  | cons member rest => exact closed_cons (c := ',') (by decide) _

theorem answer_nextKey_nil (layout : Layout) (level : Nat) (isFirst : Bool) (bound : Nat)
    (after : List Char) :
    (nextKey? isFirst).answer bound (membersText layout level isFirst [] after) =
      .ok (none, after) := by
  have hahead : (ahead .object).answer bound (membersText layout level isFirst [] after) =
      .ok ('}', '}' :: after) := by
    cases isFirst with
    | true => rfl
    | false => exact answer_ahead .object bound (layout.lineBreak_blank level) rfl after
  simp [nextKey?, hahead, answer_ite]

theorem quote_append (key : String) (after : List Char) :
    quote key ++ after = '"' :: (key.toList.flatMap Json.escape ++ '"' :: after) := by
  simp [quote]

theorem writeMembers_cons (layout : Layout) (level : Nat) (key : String) (value : Json)
    (rest : List (String × Json)) (after : List Char) :
    writeMembers layout level ((key, value) :: rest) after =
      ',' :: (layout.lineBreak (level + 1) ++ (quote key ++ ':' :: (layout.afterColon ++
        value.write layout (level + 1) (writeMembers layout level rest after)))) := by
  simp [writeMembers]

theorem answer_nextKey_cons (layout : Layout) (level : Nat) (isFirst : Bool) {bound : Nat}
    (key : String) (value : Json) (rest : List (String × Json)) (after : List Char)
    (h : (membersText layout level isFirst ((key, value) :: rest) after).length < bound) :
    (nextKey? isFirst).answer bound
        (membersText layout level isFirst ((key, value) :: rest) after) =
      .ok (some key, ':' :: (layout.afterColon ++
        value.write layout (level + 1) (writeMembers layout level rest after))) := by
  have hblank : Blank (layout.lineBreak (level + 1)) := layout.lineBreak_blank (level + 1)
  cases isFirst with
  | true =>
      simp only [membersText, quote_append] at h ⊢
      generalize ':' :: (layout.afterColon ++ _) = behind at h ⊢
      have hlength : (key.toList.flatMap Json.escape ++ '"' :: behind).length < bound := by
        simp only [List.length_append, List.length_cons] at h ⊢
        omega
      simp [nextKey?, openKey, answer_ahead _ bound hblank (c := '"') rfl, answer_ite,
        answer_restOfString key bound behind hlength]
  | false =>
      simp only [membersText, writeMembers_cons, quote_append] at h ⊢
      generalize ':' :: (layout.afterColon ++ _) = behind at h ⊢
      have hlength : (key.toList.flatMap Json.escape ++ '"' :: behind).length < bound := by
        simp only [List.length_append, List.length_cons] at h ⊢
        omega
      simp [nextKey?, openKey, answer_ahead _ bound hblank (c := '"') rfl, answer_ite, isBlank,
        answer_restOfString key bound behind hlength]

/-- `ReadsMember member step m`: from behind the key of the member, `member` reads on as `step`
goes on. -/
def ReadsMember (member : σ → String → Reader σ)
    (step : σ → String × Json → Except ReadError.Cause σ) (m : String × Json) : Prop :=
  ∀ (s : σ) (layout : Layout) (level bound : Nat) (blanks after : List Char),
    Blank blanks → Closed after → (blanks ++ m.2.write layout level after).length < bound →
      (member s m.1).answer bound (':' :: (blanks ++ m.2.write layout level after)) =
        (fun s => (s, after)) <$> step s m

theorem length_membersText {value : Json} (h : value.isWhole) (layout : Layout) (level : Nat)
    (isFirst : Bool) (key : String) (rest : List (String × Json)) (after : List Char) :
    (layout.afterColon ++
        value.write layout (level + 1) (writeMembers layout level rest after)).length <
        (membersText layout level isFirst ((key, value) :: rest) after).length ∧
      (writeMembers layout level rest after).length <
        (membersText layout level isFirst ((key, value) :: rest) after).length := by
  have hlt := length_write_lt h layout (level + 1) (writeMembers layout level rest after)
  cases isFirst <;>
    simp only [membersText, writeMembers_cons, List.length_append, List.length_cons] <;> omega

/-- A loop over the members of an object is the same loop over a list. -/
theorem answer_membersFrom {member : σ → String → Reader σ}
    {step : σ → String × Json → Except ReadError.Cause σ} (members : List (String × Json))
    (hwhole : ∀ m ∈ members, m.2.isWhole) (h : ∀ m ∈ members, ReadsMember member step m) (s : σ)
    (layout : Layout) (level : Nat) (isFirst : Bool) (n bound : Nat) {after : List Char}
    (hn : (membersText layout level isFirst members after).length < n)
    (hbound : (membersText layout level isFirst members after).length < bound) :
    (membersFrom member s isFirst n).answer bound (membersText layout level isFirst members after) =
      (fun s => (s, after)) <$> members.foldlM step s := by
  induction members generalizing s isFirst n with
  | nil =>
      cases n with
      | zero => cases hn
      | succ n => simp [membersFrom, answer_nextKey_nil]
  | cons m rest ih =>
      cases n with
      | zero => cases hn
      | succ n =>
          obtain ⟨hvalue, hrest⟩ :=
            length_membersText (hwhole m (by simp)) layout level isFirst m.1 rest after
          have hread := h m (by simp) s layout (level + 1) bound layout.afterColon
            (writeMembers layout level rest after) layout.afterColon_blank
            (closed_writeMembers layout level rest after) (Nat.lt_trans hvalue hbound)
          have hloop := fun s => ih (fun other ho => hwhole other (List.mem_cons_of_mem m ho))
            (fun other ho => h other (List.mem_cons_of_mem m ho)) s false n
            (Nat.lt_of_lt_of_le hrest (Nat.le_of_lt_succ hn)) (Nat.lt_trans hrest hbound)
          simp only [membersText] at hloop
          simp only [membersFrom, answer_bind, answer_nextKey_cons layout level isFirst m.1 m.2 rest
            after hbound, ok_bind, hread, List.foldlM_cons]
          cases step s m with
          | error cause => rfl
          | ok s => simp only [Except.map_ok, ok_bind, hloop]

/-- `ReadsMembers reader members answer`: this is what the reader answers to the text of an object
from behind its bracket. -/
def ReadsMembers (reader : Reader α) (members : List (String × Json))
    (answer : Except ReadError.Cause α) : Prop :=
  ∀ (layout : Layout) (level bound : Nat) (after : List Char),
    Closed after → (membersText layout level true members after).length < bound →
      reader.answer bound (membersText layout level true members after) =
        (fun a => (a, after)) <$> answer

theorem readsMembers_members {member : σ → String → Reader σ}
    {step : σ → String × Json → Except ReadError.Cause σ} {members : List (String × Json)}
    (hwhole : ∀ m ∈ members, m.2.isWhole) (h : ∀ m ∈ members, ReadsMember member step m) (s : σ) :
    ReadsMembers (Reader.members member s) members (members.foldlM step s) := by
  intro layout level bound after hafter hbound
  rw [Reader.members, answer_bind, answer_read, ok_bind]
  exact answer_membersFrom members hwhole h s layout level true bound bound hbound hbound

/-- An object is read from behind its bracket. -/
theorem readsHere_obj {reader : Reader α} {members : List (String × Json)}
    {answer : Except ReadError.Cause α} (h : ReadsMembers reader members answer) :
    ReadsHere (drop >>= fun _ => reader) (.obj members) answer := by
  intro layout level bound after hafter hbound
  rw [write_obj] at hbound ⊢
  rw [answer_bind, answer_drop, ok_bind, List.tail_cons]
  exact h layout level bound after hafter (Nat.lt_of_succ_lt hbound)

theorem answer_colon (bound : Nat) (text : List Char) :
    colon.answer bound (':' :: text) = .ok ((), text) := by
  simp [colon, answer_ite, isBlank]

/-! ### Any value -/

theorem isWhole_arr {elements : List Json} (h : (Json.arr elements).isWhole) :
    ∀ element ∈ elements, element.isWhole := by
  replace h : isWholeElements elements = true := h
  induction elements with
  | nil => simp
  | cons element rest ih =>
      rw [isWholeElements, Bool.and_eq_true] at h
      intro other ho
      rcases List.mem_cons.mp ho with rfl | ho
      · exact h.1
      · exact ih h.2 other ho

theorem isWhole_obj {members : List (String × Json)} (h : (Json.obj members).isWhole) :
    ∀ m ∈ members, m.2.isWhole := by
  replace h : isWholeMembers members = true := h
  induction members with
  | nil => simp
  | cons m rest ih =>
      rw [isWholeMembers, Bool.and_eq_true] at h
      intro other ho
      rcases List.mem_cons.mp ho with rfl | ho
      · exact h.1
      · exact ih h.2 other ho

/-- What comes of a value when at most `limit` brackets may be open at once. -/
def limited (limit depth : Nat) (a : α) : Except ReadError.Cause α :=
  if depth ≤ limit then .ok a else .error (.malformed .tooDeep)

theorem limited_of_le {limit depth : Nat} (h : depth ≤ limit) (a : α) :
    limited limit depth a = .ok a :=
  if_pos h

theorem limited_of_lt {limit depth : Nat} (h : limit < depth) (a : α) :
    limited limit depth a = .error (.malformed .tooDeep) :=
  if_neg (Nat.not_le.mpr h)

@[simp] theorem limited_zero (limit : Nat) (a : α) : limited limit 0 a = .ok a :=
  limited_of_le (Nat.zero_le limit) a

@[simp] theorem limited_succ (limit depth : Nat) (a : α) :
    limited (limit + 1) (depth + 1) a = limited limit depth a := by
  simp [limited]

@[simp] theorem limited_map (limit depth : Nat) (f : α → σ) (a : α) :
    f <$> limited limit depth a = limited limit depth (f a) := by
  rw [limited, limited]
  split <;> rfl

/-- Limits that a text meets one after the other are a limit on the deepest of its parts. -/
theorem limited_bind {limit depth depth' : Nat} {a : α} {b : σ}
    {next : α → Except ReadError.Cause σ} (h : next a = limited limit depth' b) :
    (limited limit depth a >>= next) = limited limit (max depth depth') b := by
  rcases Nat.lt_or_ge limit depth with hdepth | hdepth
  · rw [limited_of_lt hdepth, limited_of_lt (Nat.lt_of_lt_of_le hdepth (Nat.le_max_left ..))]
    rfl
  · have hmax : max depth depth' ≤ limit ↔ depth' ≤ limit := by omega
    rw [limited_of_le hdepth, ok_bind, h, limited, limited, if_congr hmax rfl rfl]

theorem limited_bind_of_ok {limit depth : Nat} {a : α} {b : σ}
    {next : α → Except ReadError.Cause σ} (h : next a = .ok b) :
    (limited limit depth a >>= next) = limited limit depth b := by
  have hnext : next a = limited limit 0 b := by rw [h, limited_zero]
  rw [limited_bind hnext, Nat.max_zero]

theorem mapM_limited (limit : Nat) (elements : List Json) :
    elements.mapM (fun element => limited limit element.depth element) =
      limited limit (depthOfElements elements) elements := by
  induction elements with
  | nil => rfl
  | cons element rest ih =>
      simp only [List.mapM_cons, pure_eq_ok, bind_ok_comp]
      rw [ih]
      simp only [limited_map]
      exact limited_bind rfl

theorem foldlM_limited (limit : Nat) (members before : List (String × Json)) :
    members.foldlM (fun before m => limited limit m.2.depth (m :: before)) before =
      limited limit (depthOfMembers members) (members.reverse ++ before) := by
  induction members generalizing before with
  | nil => rfl
  | cons m rest ih =>
      rw [List.foldlM_cons, List.reverse_cons, List.append_assoc]
      exact limited_bind (ih (m :: before))

theorem reads_value_scalar (depth : Nat) {v : Json} (h : v.isWhole) (hscalar : isScalar v) :
    Reads (value depth) v (limited depth v.depth v) := by
  rw [value.eq_def]
  refine reads_ahead h ?_
  have hread := (reads_scalar h hscalar).here
  obtain ⟨hsquare, hcurly⟩ := lead_of_scalar h hscalar
  rw [depth_scalar hscalar, limited_zero]
  generalize v.lead = c at hsquare hcurly ⊢
  simpa [hsquare, hcurly] using hread

theorem readsMember_value {depth : Nat} {m : String × Json}
    (h : Reads (value depth) m.2 (limited depth m.2.depth m.2)) :
    ReadsMember (fun before key => do colon; return (key, ← value depth) :: before)
      (fun before m => limited depth m.2.depth (m :: before)) m := by
  intro before layout level bound blanks after hblanks hafter hbound
  simp [answer_colon, h layout level bound blanks after hblanks hafter hbound]

/-- Reading a value of any shape gives the value that was written. -/
theorem reads_value (depth : Nat) {v : Json} (h : v.isWhole) :
    Reads (value depth) v (limited depth v.depth v) := by
  induction depth generalizing v with
  | zero =>
      rcases shape_cases v with hscalar | ⟨elements, rfl⟩ | ⟨members, rfl⟩
      · exact reads_value_scalar 0 h hscalar
      · rw [value]
        refine reads_ahead h ?_
        intro layout level bound after hafter hbound
        rfl
      · rw [value]
        refine reads_ahead h ?_
        intro layout level bound after hafter hbound
        rfl
  | succ depth ih =>
      rcases shape_cases v with hscalar | ⟨elements, rfl⟩ | ⟨members, rfl⟩
      · exact reads_value_scalar (depth + 1) h hscalar
      · rw [value]
        refine reads_ahead h ?_
        refine readsHere_arr ?_
        have helements := readsElements_elements (isWhole_arr h)
          (fun element he => ih (isWhole_arr h element he))
        intro layout level bound after hafter hbound
        rw [answer_bind, helements layout level bound after hafter hbound, mapM_limited]
        simp [Json.depth]
      · have hmembers := readsMembers_members (isWhole_obj h)
          (fun m hm => readsMember_value (ih (isWhole_obj h m hm))) []
        rw [value]
        refine reads_ahead h ?_
        refine readsHere_obj ?_
        intro layout level bound after hafter hbound
        rw [answer_bind, hmembers layout level bound after hafter hbound, foldlM_limited]
        simp [Json.depth]

end Reader
end Json
end ComponentLowering
