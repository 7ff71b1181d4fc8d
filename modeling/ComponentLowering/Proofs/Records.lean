import ComponentLowering.Json.Stored
import ComponentLowering.Proofs.Values
/-!
Readers of strings, numbers, named values and records on the texts of values. Each has a decoder
beside it, a function of the value alone, and answers what the decoder gives. Records are decoded
member by member, or element by element.
-/

namespace ComponentLowering.Json

variable {α β σ : Type}

/-- A fault of content as the error of a reader. -/
def faulty (result : Except Fault α) : Except ReadError.Cause α :=
  result.mapError .unsuitable

@[simp] theorem faulty_ok (a : α) : faulty (.ok a) = .ok a := rfl

@[simp] theorem faulty_error (fault : Fault) :
    faulty (.error fault : Except Fault α) = .error (.unsuitable fault) := rfl

def asNatural : Json → Except Fault UInt64
  | .num (.whole n) =>
    if 0 ≤ n then .ok n.toNat.toUInt64
    else .error (.invalidValue (.number (.whole n)) .natural)
  | value => .error (.invalidType value.found .natural)

def asNull : Json → Except Fault Unit
  | .null => .ok ()
  | value => .error (.invalidType value.found .null)

def decodeOptional (decode : Json → Except ReadError.Cause α) :
    Json → Except ReadError.Cause (Option α)
  | .null => .ok none
  | value => some <$> decode value

def decodeVariant [Named α] (depth : Nat) : Json → Except ReadError.Cause α
  | .str name => faulty (variantOfName name)
  | .obj members =>
    if depth = 0 then .error (.malformed .tooDeep)
    else
      match members with
      | [] => .error (.malformed .keyNotString)
      | (name, content) :: rest => do
        let a ← faulty (variantOfName name)
        faulty content.asNull
        if rest.isEmpty then return a else throw (.malformed .expectedValue)
  | _ => .error (.malformed .expectedValue)

/-- An array whose elements are decoded one by one, if another bracket may be open at all. -/
def decodeList (item? : Option (Json → Except ReadError.Cause α)) :
    Json → Except ReadError.Cause (List α)
  | .arr elements =>
    match item? with
    | none => .error (.malformed .tooDeep)
    | some item => elements.mapM item
  | value => .error (.unsuitable (.invalidType value.found .sequence))

/-- A record, decoded with one level of depth less from its members or its elements. -/
def decodeRecord (form : RecordForm)
    (ofMembers : Nat → List (String × Json) → Except ReadError.Cause α)
    (ofElements : Nat → List Json → Except ReadError.Cause α) :
    Nat → Json → Except ReadError.Cause α
  | 0, .obj _ | 0, .arr _ => .error (.malformed .tooDeep)
  | depth + 1, .obj members => ofMembers depth members
  | depth + 1, .arr elements => ofElements depth elements
  | _, value => .error (.unsuitable (.invalidType value.found (.record form)))

/-- A field that was found, unless it was found before. -/
def decodeOnce (name : String) (before : Option α) (found : Except ReadError.Cause α) :
    Except ReadError.Cause (Option α) :=
  if before.isSome then .error (.unsuitable (.duplicateField name)) else some <$> found

/-- The next element of a record that is written as an array, and then the rest. -/
def decodeField (form : RecordForm) (index : Nat) (decode : Json → Except ReadError.Cause α)
    (next : α → List Json → Except ReadError.Cause β) : List Json → Except ReadError.Cause β
  | [] => .error (.unsuitable (.invalidLength index (.fieldsOf form)))
  | element :: rest => decode element >>= fun a => next a rest

/-- The end of a record that is written as an array. -/
def decodeEnd (a : α) (elements : List Json) : Except ReadError.Cause α :=
  if elements.isEmpty then .ok a else .error (.malformed .trailingCharacters)

/-- The last element of a record that is written as an array, which may be missing. -/
def decodeTrailing (decode : Json → Except ReadError.Cause α) (missing : β) (last : α → β) :
    List Json → Except ReadError.Cause β
  | [] => .ok missing
  | element :: rest => do decodeEnd (last (← decode element)) rest

/-! ### First characters -/

theorem lead_eq_quote {value : Json} (h : value.isWhole) :
    value.lead = '"' ↔ ∃ s, value = .str s := by
  cases value with
  | bool b => cases b <;> simp [lead]
  | num number => simp [lead_num_ne h (c := '"') (by decide)]
  | _ => simp [lead]

theorem lead_eq_n {value : Json} (h : value.isWhole) : value.lead = 'n' ↔ value = .null := by
  cases value with
  | bool b => cases b <;> simp [lead]
  | num number => simp [lead_num_ne h (c := 'n') (by decide)]
  | _ => simp [lead]

theorem lead_eq_square {value : Json} (h : value.isWhole) :
    value.lead = '[' ↔ ∃ elements, value = .arr elements := by
  cases value with
  | bool b => cases b <;> simp [lead]
  | num number => simp [lead_num_ne h (c := '[') (by decide)]
  | _ => simp [lead]

theorem lead_eq_curly {value : Json} (h : value.isWhole) :
    value.lead = '{' ↔ ∃ members, value = .obj members := by
  cases value with
  | bool b => cases b <;> simp [lead]
  | num number => simp [lead_num_ne h (c := '{') (by decide)]
  | _ => simp [lead]

theorem lead_numeric {value : Json} (h : value.isWhole) :
    (value.lead = '-' ∨ value.lead.isDigit) ↔ ∃ n, value = .num n := by
  cases value with
  | bool b => cases b <;> simp [lead]
  | num number => simp [(lead_num h).1]
  | _ => simp [lead]

namespace Reader

theorem reads_mistyped {v : Json} (h : v.isWhole) (expected : Expected) :
    Reads (mistyped expected : Reader α) v
      (.error (.unsuitable (.invalidType v.found expected))) := by
  refine reads_ahead h ?_
  rcases shape_cases v with hscalar | ⟨elements, rfl⟩ | ⟨members, rfl⟩
  · have hread := (reads_scalar h hscalar).here
    obtain ⟨hsquare, hcurly⟩ := lead_of_scalar h hscalar
    intro layout level bound after hafter hbound
    generalize v.lead = c at hsquare hcurly ⊢
    simp [hread layout level bound after hafter hbound]
  · intro layout level bound after hafter hbound
    rfl
  · intro layout level bound after hafter hbound
    rfl

theorem reads_string {v : Json} (h : v.isWhole) : Reads string v (faulty v.asString) := by
  refine reads_ahead h ?_
  by_cases hlead : v.lead = '"'
  · obtain ⟨s, rfl⟩ := (lead_eq_quote h).mp hlead
    intro layout level bound after hafter hbound
    rw [write_str] at hbound ⊢
    have hread := answer_restOfString s bound after (Nat.lt_of_succ_lt hbound)
    simp [lead, hread, asString]
  · have hother : faulty v.asString = .error (.unsuitable (.invalidType v.found .string)) := by
      cases v with
      | str s => exact absurd rfl hlead
      | _ => rfl
    rw [if_neg hlead, hother]
    exact (reads_mistyped h .string).here

theorem reads_null {v : Json} (h : v.isWhole) : Reads null v (faulty v.asNull) := by
  refine reads_ahead h ?_
  by_cases hlead : v.lead = 'n'
  · obtain rfl := (lead_eq_n h).mp hlead
    intro layout level bound after hafter hbound
    simp [lead, write, word, answer_ite, asNull]
  · have hother : faulty v.asNull = .error (.unsuitable (.invalidType v.found .null)) := by
      cases v with
      | null => exact absurd rfl hlead
      | _ => rfl
    rw [if_neg hlead, hother]
    exact (reads_mistyped h .null).here

theorem reads_natural {v : Json} (h : v.isWhole) : Reads natural v (faulty v.asNatural) := by
  refine reads_ahead h ?_
  by_cases hlead : v.lead = '-' ∨ v.lead.isDigit
  · obtain ⟨number, rfl⟩ := (lead_numeric h).mp hlead
    cases number with
    | real x => cases h
    | whole n =>
        intro layout level bound after hafter hbound
        obtain ⟨hlow, hhigh⟩ := of_decide_eq_true h
        have hread := answer_signedNumber hlow hhigh bound hafter
        by_cases hn : 0 ≤ n
        · simp [hlead, write, Number.text, hread, asNatural, hn]
        · simp [hlead, write, Number.text, hread, asNatural, hn]
  · have hother : faulty v.asNatural = .error (.unsuitable (.invalidType v.found .natural)) := by
      cases v with
      | num number => exact absurd ((lead_numeric h).mpr ⟨number, rfl⟩) hlead
      | _ => rfl
    rw [if_neg hlead, hother]
    exact (reads_mistyped h .natural).here

theorem reads_optional {item : Reader α} {decode : Json → Except ReadError.Cause α} {v : Json}
    (h : v.isWhole) (hitem : Reads item v (decode v)) :
    Reads (optional item) v (decodeOptional decode v) := by
  refine reads_ahead h ?_
  by_cases hlead : v.lead = 'n'
  · obtain rfl := (lead_eq_n h).mp hlead
    intro layout level bound after hafter hbound
    have hread := (reads_null h).here layout level bound after hafter hbound
    simp [lead, hread, asNull, decodeOptional]
  · have hother : decodeOptional decode v = some <$> decode v := by
      cases v with
      | null => exact absurd rfl hlead
      | _ => rfl
    rw [if_neg hlead, hother]
    intro layout level bound after hafter hbound
    simp [hitem.here layout level bound after hafter hbound]

theorem answer_variantOfName [Named α] (name : String) (bound : Nat) (text : List Char) :
    (Reader.variantOfName name : Reader α).answer bound text =
      (fun a => (a, text)) <$> faulty (Json.variantOfName name) := by
  rw [Reader.variantOfName, Json.variantOfName]
  cases (Named.ofName? name : Option α) <;> simp

theorem dropWhile_quote {blanks : List Char} (h : Blank blanks) (text : List Char) :
    (blanks ++ '"' :: text).dropWhile isBlank = '"' :: text := by
  rw [dropWhile_blank h]
  rfl

/-- An object may end behind its first member, and has to where it stands for a name. -/
theorem answer_closeSingle (a : α) (layout : Layout) (level bound : Nat)
    (rest : List (String × Json)) (after : List Char) :
    (ahead .object >>= fun c =>
      if c = '}' then drop >>= fun _ => pure a
      else (stop (.malformed .expectedValue) 0 : Reader Unit) >>= fun _ => pure a).answer bound
        (writeMembers layout level rest after) =
      (fun a => (a, after)) <$>
        if rest.isEmpty then pure a else throw (.malformed .expectedValue) := by
  cases rest with
  | nil =>
      have hahead := answer_ahead .object bound (layout.lineBreak_blank level) (c := '}') rfl after
      simp [writeMembers, hahead]
  | cons m rest =>
      obtain ⟨key, value⟩ := m
      simp only [writeMembers_cons, answer_bind, isBlank, Char.reduceEq, decide_false, Bool.or_self,
        answer_ahead_cons, ok_bind, if_false]
      rfl

theorem reads_variant [Named α] {v : Json} (h : v.isWhole) (depth : Nat) :
    Reads (variant depth : Reader α) v (decodeVariant depth v) := by
  refine reads_ahead h ?_
  rcases shape_cases v with hscalar | ⟨elements, rfl⟩ | ⟨members, rfl⟩
  · by_cases hlead : v.lead = '"'
    · obtain ⟨name, rfl⟩ := (lead_eq_quote h).mp hlead
      intro layout level bound after hafter hbound
      have hread := (reads_string h).here layout level bound after hafter hbound
      simp [lead, hread, asString, answer_variantOfName, decodeVariant]
    · have hother : (decodeVariant depth v : Except ReadError.Cause α) =
          .error (.malformed .expectedValue) := by
        cases v with
        | str s => exact absurd rfl hlead
        | arr elements => cases hscalar
        | obj members => cases hscalar
        | _ => rfl
      have hcurly := (lead_of_scalar h hscalar).2
      intro layout level bound after hafter hbound
      rw [hother]
      generalize v.lead = c at hlead hcurly ⊢
      simp
  · intro layout level bound after hafter hbound
    rfl
  · cases depth with
    | zero =>
        intro layout level bound after hafter hbound
        rfl
    | succ depth =>
        refine readsHere_obj ?_
        cases members with
        | nil =>
            intro layout level bound after hafter hbound
            rfl
        | cons m rest =>
            obtain ⟨name, content⟩ := m
            have hcontent : content.isWhole := isWhole_obj h (name, content) (by simp)
            intro layout level bound after hafter hbound
            obtain ⟨hlength, _⟩ := length_membersText hcontent layout level true name rest after
            have hread := reads_null hcontent layout (level + 1) bound layout.afterColon
              (writeMembers layout level rest after) layout.afterColon_blank
              (closed_writeMembers layout level rest after) (Nat.lt_trans hlength hbound)
            rw [membersText, quote_append] at hbound ⊢
            rw [List.length_append, List.length_cons] at hbound
            have hkey := answer_restOfString name bound (':' :: (layout.afterColon ++
              content.write layout (level + 1) (writeMembers layout level rest after))) (by omega)
            simp only [answer_bind, answer_skipBlanks, openKey, answer_peek, ok_bind, if_true,
              dropWhile_quote (layout.lineBreak_blank (level + 1)), answer_drop, List.tail_cons,
              hkey, answer_variantOfName, decodeVariant, Nat.succ_ne_zero, if_false]
            cases (faulty (Json.variantOfName name) : Except ReadError.Cause α) with
            | error cause => rfl
            | ok a =>
                simp only [Except.map_ok, ok_bind, answer_colon, hread]
                cases faulty content.asNull with
                | error cause => rfl
                | ok nothing =>
                    have hclose := answer_closeSingle a layout level bound rest after
                    rw [answer_bind] at hclose
                    exact hclose

/-! ### Records -/

theorem answer_once {item : Reader α} {v : Json} {answer : Except ReadError.Cause α}
    (hitem : Reads item v answer) (name : String) (before : Option α) (layout : Layout)
    (level bound : Nat) {blanks after : List Char} (hblanks : Blank blanks) (hafter : Closed after)
    (hbound : (blanks ++ v.write layout level after).length < bound) :
    (once name before item).answer bound (':' :: (blanks ++ v.write layout level after)) =
      (fun a => (a, after)) <$> decodeOnce name before answer := by
  cases before with
  | some a => simp [once, decodeOnce, repeated, answer_ite, isBlank]
  | none =>
      have hread := hitem layout level bound blanks after hblanks hafter hbound
      simp [once, decodeOnce, answer_colon, hread]

theorem answer_required (name : String) (found : Option α) (bound : Nat) (text : List Char) :
    (Reader.required name found).answer bound text =
      (fun a => (a, text)) <$> faulty (Json.required name found) := by
  cases found <;> rfl

theorem reads_record {form : RecordForm} {depth : Nat} {ofMembers ofElements : Nat → Reader α}
    {membersOf : Nat → List (String × Json) → Except ReadError.Cause α}
    {elementsOf : Nat → List Json → Except ReadError.Cause α} {v : Json} (h : v.isWhole)
    (hmembers : ∀ depth members, v = .obj members →
      ReadsMembers (ofMembers depth) members (membersOf depth members))
    (helements : ∀ depth elements, v = .arr elements →
      ReadsElements (ofElements depth) true elements (elementsOf depth elements)) :
    Reads (record form depth ofMembers ofElements) v
      (decodeRecord form membersOf elementsOf depth v) := by
  refine reads_ahead h ?_
  rcases shape_cases v with hscalar | ⟨elements, rfl⟩ | ⟨members, rfl⟩
  · have hother : decodeRecord form membersOf elementsOf depth v =
        .error (.unsuitable (.invalidType v.found (.record form))) := by
      cases v with
      | arr elements => cases hscalar
      | obj members => cases hscalar
      | _ => cases depth <;> rfl
    obtain ⟨hsquare, hcurly⟩ := lead_of_scalar h hscalar
    rw [if_neg (by simp [hsquare, hcurly]), hother]
    exact (reads_mistyped h (.record form)).here
  · cases depth with
    | zero =>
        intro layout level bound after hafter hbound
        rfl
    | succ depth => exact readsHere_arr (helements depth elements rfl)
  · cases depth with
    | zero =>
        intro layout level bound after hafter hbound
        rfl
    | succ depth => exact readsHere_obj (hmembers depth members rfl)

/-- A field of a record that is written as an array is its next element. -/
theorem readsElements_field {form : RecordForm} {item : Reader α}
    {decode : Json → Except ReadError.Cause α} {next : α → Reader β}
    {answer : α → List Json → Except ReadError.Cause β} {isFirst : Bool} {index : Nat}
    {elements : List Json} (hfirst : isFirst = decide (index = 0))
    (hwhole : ∀ element ∈ elements, element.isWhole)
    (hitem : ∀ {element : Json}, element.isWhole → Reads item element (decode element))
    (hnext : ∀ a rest, (∀ element ∈ rest, element.isWhole) →
      ReadsElements (next a) false rest (answer a rest)) :
    ReadsElements (field form index item >>= next) isFirst elements
      (decodeField form index decode answer elements) := by
  intro layout level bound after hafter hbound
  cases elements with
  | nil =>
      have hend := answer_nextElement_nil layout level isFirst bound after
      simp [field, ← hfirst, hend, decodeField]
  | cons element rest =>
      have helement : element.isWhole := hwhole element (by simp)
      obtain ⟨hlength, hrest⟩ := length_elementsText helement layout level isFirst rest after
      have hmore := answer_nextElement_cons layout level isFirst bound helement rest after
      have hread := (hitem helement).here layout (level + 1) bound _
        (closed_writeElements layout level rest after) (Nat.lt_of_le_of_lt hlength hbound)
      have hnext := fun a => hnext a rest (fun other ho => hwhole other (List.mem_cons_of_mem _ ho))
        layout level bound after hafter (Nat.lt_trans hrest hbound)
      simp only [elementsText] at hnext
      simp [field, ← hfirst, hmore, hread, decodeField, hnext]

theorem readsElements_closeArray (a : α) {elements : List Json}
    (hwhole : ∀ element ∈ elements, element.isWhole) :
    ReadsElements (do closeArray; return a) false elements (decodeEnd a elements) := by
  intro layout level bound after hafter hbound
  cases elements with
  | nil =>
      have hahead := answer_ahead .list bound (layout.lineBreak_blank level) (c := ']') rfl after
      simp [closeArray, elementsText, writeElements, hahead, decodeEnd]
  | cons element rest =>
      obtain ⟨c, hlead⟩ := write_lead (hwhole element (by simp)) layout (level + 1)
        (writeElements layout level rest after)
      have hsquare := (lead_ne_closing (hwhole element (by simp))).1
      have hblank := isBlank_lead (hwhole element (by simp))
      have hdrop : (element.lead :: c).dropWhile isBlank = element.lead :: c :=
        List.dropWhile_cons_of_neg (by rw [hblank]; exact Bool.false_ne_true)
      simp [closeArray, elementsText, writeElements, decodeEnd, isBlank, hlead, hsquare, hdrop,
        dropWhile_blank (layout.lineBreak_blank (level + 1))]

theorem readsElements_trailing {item : Reader α} {decode : Json → Except ReadError.Cause α}
    (missing : β) (last : α → β) {elements : List Json}
    (hwhole : ∀ element ∈ elements, element.isWhole)
    (hitem : ∀ {element : Json}, element.isWhole → Reads item element (decode element)) :
    ReadsElements (do
      if ← nextElement false then
        let a ← item
        closeArray
        return last a
      else return missing) false elements (decodeTrailing decode missing last elements) := by
  intro layout level bound after hafter hbound
  cases elements with
  | nil =>
      have hend := answer_nextElement_nil layout level false bound after
      simp [hend, decodeTrailing]
  | cons element rest =>
      have helement : element.isWhole := hwhole element (by simp)
      obtain ⟨hlength, hrest⟩ := length_elementsText helement layout level false rest after
      have hmore := answer_nextElement_cons layout level false bound helement rest after
      have hread := (hitem helement).here layout (level + 1) bound _
        (closed_writeElements layout level rest after) (Nat.lt_of_le_of_lt hlength hbound)
      have hclose := fun a => readsElements_closeArray (last a)
        (fun other ho => hwhole other (List.mem_cons_of_mem _ ho)) layout level bound after hafter
        (Nat.lt_trans hrest hbound)
      simp only [elementsText, answer_bind, answer_pure] at hclose
      simp only [answer_bind, hmore, ok_bind, if_true, hread, decodeTrailing]
      cases decode element with
      | error cause => rfl
      | ok a => exact hclose a

/-- A record is made of the members of an object once they are all read. -/
theorem readsMembers_complete {member : σ → String → Reader σ}
    {step : σ → String × Json → Except ReadError.Cause σ} {complete : σ → Reader α}
    {decodeComplete : σ → Except ReadError.Cause α} {members : List (String × Json)}
    (hwhole : ∀ m ∈ members, m.2.isWhole)
    (hmember : ∀ {m : String × Json}, m.2.isWhole → ReadsMember member step m)
    (hcomplete : ∀ s bound text,
      (complete s).answer bound text = (fun a => (a, text)) <$> decodeComplete s) (s : σ) :
    ReadsMembers (Reader.members member s >>= complete) members
      (members.foldlM step s >>= decodeComplete) := by
  have hmembers := readsMembers_members hwhole (fun m hm => hmember (hwhole m hm)) s
  intro layout level bound after hafter hbound
  rw [answer_bind, hmembers layout level bound after hafter hbound]
  cases members.foldlM step s with
  | error cause => rfl
  | ok s => exact hcomplete s bound after

theorem reads_opening {next : Unit → Reader α} {v : Json} {answer : Except ReadError.Cause α}
    (h : v.isWhole) (bracket : Char) (expected : Expected)
    (hnext : v.lead = bracket → ReadsHere (next ()) v answer)
    (hother : v.lead ≠ bracket → answer = .error (.unsuitable (.invalidType v.found expected))) :
    Reads (opening bracket expected >>= next) v answer := by
  intro layout level bound blanks after hblanks hafter hbound
  have hahead := answer_ahead_value h .value layout level bound hblanks after
  have hhere : (v.write layout level after).length < bound := by
    rw [List.length_append] at hbound
    omega
  rw [answer_bind, opening, answer_bind, hahead, ok_bind]
  by_cases hlead : v.lead = bracket
  · simp [hlead, hnext hlead layout level bound after hafter hhere]
  · have hread := (reads_mistyped (α := Unit) h expected).here layout level bound after hafter hhere
    simp [hlead, hread, hother hlead]

theorem decodeList_mistyped {v : Json} (h : v.isWhole) (hlead : v.lead ≠ '[')
    (item? : Option (Json → Except ReadError.Cause α)) :
    decodeList item? v = .error (.unsuitable (.invalidType v.found .sequence)) := by
  cases v with
  | arr elements => exact absurd rfl hlead
  | _ => rfl

/-- No list may be open below the deepest bracket. -/
theorem reads_list_tooDeep {v : Json} (h : v.isWhole) :
    Reads (do opening '[' .sequence; malformed .tooDeep : Reader (List α)) v
      (decodeList none v) := by
  refine reads_opening h '[' .sequence ?_ (fun hlead => decodeList_mistyped h hlead none)
  intro hlead
  obtain ⟨elements, rfl⟩ := (lead_eq_square h).mp hlead
  intro layout level bound after hafter hbound
  rfl

theorem reads_list {item : Reader α} {decode : Json → Except ReadError.Cause α} {v : Json}
    (h : v.isWhole)
    (hitem : ∀ {element : Json}, element.isWhole → Reads item element (decode element)) :
    Reads (do opening '[' .sequence; drop; elements item) v (decodeList (some decode) v) := by
  refine reads_opening h '[' .sequence ?_ (fun hlead => decodeList_mistyped h hlead (some decode))
  intro hlead
  obtain ⟨elements, rfl⟩ := (lead_eq_square h).mp hlead
  have hwhole := isWhole_arr h
  exact readsHere_arr
    (readsElements_elements hwhole fun element he => hitem (hwhole element he))

/-! ### Whole texts -/

/-- Reading the whole text of a value comes to what its reader answers. -/
theorem run_render {item : Reader α} {v : Json} {answer : Except ReadError.Cause α}
    (hitem : Reads item v answer) (layout : Layout) :
    (run item (v.render layout).toList).mapError ReadError.cause = answer := by
  rw [Json.render, String.toList_ofList, run]
  have hanswer : (whole item).answer ((v.write layout 0 []).length + 1) (v.write layout 0 []) =
      (fun a => (a, [])) <$> answer := by
    rw [whole, answer_bind, hitem.here layout 0 _ [] closed_nil (Nat.lt_succ_self _)]
    cases answer with
    | error cause => rfl
    | ok a => rfl
  rw [Reader.answer] at hanswer
  cases hrun : (whole item ((v.write layout 0 []).length + 1)).run (v.write layout 0 []) with
  | error stop =>
      rw [hrun] at hanswer
      cases answer with
      | error cause => cases hanswer; rfl
      | ok a => cases hanswer
  | ok found =>
      rw [hrun] at hanswer
      cases answer with
      | error cause => cases hanswer
      | ok a => cases hanswer; rfl

end Reader
end ComponentLowering.Json
