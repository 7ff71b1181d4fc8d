import ComponentLowering.Proofs.Values
/-!
Passing over the text of a value takes exactly that value, of any depth. The loop keeps the open
brackets in a list, so the statement is about one value in front of what the loop goes on with.
-/

namespace ComponentLowering.Json.Reader

/-- Where the loop stands behind a value: it goes on behind `after`, with rounds to spare. -/
def Onward (opened : List Bracket) (bound : Nat) (after : List Char)
    (answer : Except ReadError.Cause (Unit × List Char)) : Prop :=
  ∃ n, after.length < n ∧ answer = (skipAfter opened n).answer bound after

def Skips (v : Json) : Prop :=
  ∀ (opened : List Bracket) (layout : Layout) (level n bound : Nat) (blanks after : List Char),
    Blank blanks → Closed after → (blanks ++ v.write layout level after).length < n →
      (blanks ++ v.write layout level after).length < bound →
        Onward opened bound after
          ((skipWithin opened n).answer bound (blanks ++ v.write layout level after))

def SkipsElements (elements : List Json) : Prop :=
  ∀ (opened : List Bracket) (layout : Layout) (level n bound : Nat) (after : List Char),
    (writeElements layout level elements after).length < n →
      (writeElements layout level elements after).length < bound →
        Onward opened bound after
          ((skipAfter (.square :: opened) n).answer bound
            (writeElements layout level elements after))

def SkipsMembers (members : List (String × Json)) : Prop :=
  ∀ (opened : List Bracket) (layout : Layout) (level n bound : Nat) (after : List Char),
    (writeMembers layout level members after).length < n →
      (writeMembers layout level members after).length < bound →
        Onward opened bound after
          ((skipAfter (.curly :: opened) n).answer bound
            (writeMembers layout level members after))

theorem reads_skipScalar {v : Json} (h : v.isWhole) (hscalar : isScalar v) :
    Reads skipScalar v (.ok ()) := by
  refine reads_ahead h ?_
  intro layout level bound after hafter hbound
  cases v with
  | null => simp [lead, write, word, answer_ite]
  | bool b => cases b <;> simp [lead, write, word, answer_ite]
  | num number =>
      cases number with
      | real x => cases h
      | whole n =>
          have hstarts := lead_num_starts h
          generalize lead (.num (.whole n)) = c at hstarts ⊢
          simp [hstarts, write, Number.text, answer_skipNumber n bound hafter]
  | str s =>
      rw [write_str] at hbound ⊢
      simp [lead, answer_skipCharacters s.toList bound bound after (Nat.lt_of_succ_lt hbound)]
  | arr elements => cases hscalar
  | obj members => cases hscalar

theorem skips_scalar {v : Json} (h : v.isWhole) (hscalar : isScalar v) : Skips v := by
  intro opened layout level n bound blanks after hblanks hafter hn hbound
  cases n with
  | zero => cases hn
  | succ n =>
      have hahead := answer_ahead_value h .value layout level bound hblanks after
      have hlength := length_write_lt h layout level after
      rw [List.length_append] at hn hbound
      have hread := (reads_skipScalar h hscalar).here layout level bound after hafter (by omega)
      obtain ⟨hsquare, hcurly⟩ := lead_of_scalar h hscalar
      refine ⟨n, by omega, ?_⟩
      rw [skipWithin, answer_bind, hahead, ok_bind]
      generalize v.lead = c at hsquare hcurly ⊢
      simp [hread]

theorem Onward.trans {opened outer : List Bracket} {bound : Nat} {middle after : List Char}
    {answer : Except ReadError.Cause (Unit × List Char)} (h : Onward opened bound middle answer)
    (hnext : ∀ n, middle.length < n →
      Onward outer bound after ((skipAfter opened n).answer bound middle)) :
    Onward outer bound after answer := by
  obtain ⟨n, hn, rfl⟩ := h
  exact hnext n hn

theorem skips_arr {elements : List Json} (h : (Json.arr elements).isWhole)
    (hfirst : ∀ element ∈ elements.head?, Skips element)
    (hrest : SkipsElements elements.tail) : Skips (.arr elements) := by
  intro opened layout level n bound blanks after hblanks hafter hn hbound
  cases n with
  | zero => cases hn
  | succ n =>
      have hahead := answer_ahead_value h .value layout level bound hblanks after
      rw [write_arr, List.length_append, List.length_cons] at hn hbound
      rw [skipWithin, answer_bind, hahead, ok_bind, write_arr]
      cases elements with
      | nil =>
          refine ⟨n, ?_, ?_⟩
          · simp only [elementsText, List.length_cons] at hn
            omega
          · simp [lead, elementsText, isBlank]
      | cons element rest =>
          have helement : element.isWhole := isWhole_arr h element (by simp)
          have hclosing := (lead_ne_closing helement).1
          have hinner := answer_ahead_value helement .list layout (level + 1) bound
            (layout.lineBreak_blank (level + 1)) (writeElements layout level rest after)
          obtain ⟨hlength, hafterElement⟩ :=
            length_elementsText helement layout level true rest after
          have hskip := hfirst element rfl (.square :: opened) layout (level + 1) n bound []
            (writeElements layout level rest after) blank_nil
            (closed_writeElements layout level rest after) (by simpa using by omega)
            (by simpa using by omega)
          simp only [lead_arr, elementsText, answer_bind, answer_drop, List.tail_cons, ok_bind,
            hinner, hclosing, if_false]
          refine hskip.trans ?_
          intro m hm
          exact hrest opened layout level m bound after hm (by simp only [List.tail_cons]; omega)

theorem skipsElements_nil : SkipsElements [] := by
  intro opened layout level n bound after hn hbound
  cases n with
  | zero => cases hn
  | succ n =>
      have hahead := answer_ahead .list bound (layout.lineBreak_blank level) (c := ']') rfl after
      simp only [writeElements, List.length_append, List.length_cons] at hn
      refine ⟨n, by omega, ?_⟩
      simp [skipAfter, writeElements, Bracket.unfinished, Bracket.closing, hahead]

theorem skipsElements_cons {element : Json} {rest : List Json} (h : element.isWhole)
    (helement : Skips element) (hrest : SkipsElements rest) : SkipsElements (element :: rest) := by
  intro opened layout level n bound after hn hbound
  cases n with
  | zero => cases hn
  | succ n =>
      have hlength := length_write_lt h layout (level + 1) (writeElements layout level rest after)
      simp only [writeElements, List.length_append, List.length_cons] at hn hbound
      have hskip := helement (.square :: opened) layout (level + 1) n bound
        (layout.lineBreak (level + 1)) (writeElements layout level rest after)
        (layout.lineBreak_blank (level + 1)) (closed_writeElements layout level rest after)
        (by rw [List.length_append]; omega) (by rw [List.length_append]; omega)
      simp only [skipAfter, Bracket.unfinished, Bracket.closing, reduceCtorEq, if_false,
        writeElements, List.cons_append, answer_bind, isBlank, Char.reduceEq, decide_false,
        Bool.or_self, answer_ahead_cons, ok_bind]
      refine hskip.trans ?_
      intro m hm
      exact hrest opened layout level m bound after hm (by omega)

theorem answer_skipKey {blanks : List Char} (hblanks : Blank blanks) (key : String) (bound : Nat)
    (behind : List Char) (h : (blanks ++ (quote key ++ ':' :: behind)).length < bound) :
    skipKey.answer bound (blanks ++ (quote key ++ ':' :: behind)) = .ok ((), behind) := by
  rw [quote_append] at h ⊢
  rw [List.length_append, List.length_cons] at h
  have hahead := answer_ahead .object bound hblanks (c := '"') rfl
  have hkey := answer_skipCharacters key.toList bound bound (':' :: behind) (by omega)
  simp [skipKey, hahead, hkey, answer_colon]

theorem skips_obj {members : List (String × Json)} (h : (Json.obj members).isWhole)
    (hfirst : ∀ m ∈ members.head?, Skips m.2) (hrest : SkipsMembers members.tail) :
    Skips (.obj members) := by
  intro opened layout level n bound blanks after hblanks hafter hn hbound
  cases n with
  | zero => cases hn
  | succ n =>
      have hahead := answer_ahead_value h .value layout level bound hblanks after
      rw [write_obj, List.length_append, List.length_cons] at hn hbound
      rw [skipWithin, answer_bind, hahead, ok_bind, write_obj]
      cases members with
      | nil =>
          refine ⟨n, ?_, ?_⟩
          · simp only [membersText, List.length_cons] at hn
            omega
          · simp [membersText, isBlank]
      | cons m rest =>
          obtain ⟨key, value⟩ := m
          have hvalue : value.isWhole := isWhole_obj h (key, value) (by simp)
          obtain ⟨hlength, hafterValue⟩ :=
            length_membersText hvalue layout level true key rest after
          have hfirst : Skips value := hfirst (key, value) rfl
          have hskip := hfirst (.curly :: opened) layout (level + 1) n bound
            layout.afterColon (writeMembers layout level rest after) layout.afterColon_blank
            (closed_writeMembers layout level rest after) (by omega) (by omega)
          have htext := hbound
          rw [membersText, List.length_append] at htext
          have hkey := answer_skipKey blank_nil key bound (layout.afterColon ++
            value.write layout (level + 1) (writeMembers layout level rest after))
            (by rw [List.nil_append]; omega)
          rw [List.nil_append, quote_append] at hkey
          have hinner := answer_ahead .object bound (layout.lineBreak_blank (level + 1)) (c := '"')
            rfl
          simp only [lead_obj, membersText, quote_append, answer_bind, answer_drop, List.tail_cons,
            ok_bind, hinner]
          rw [if_neg (by decide), answer_bind, hkey, ok_bind]
          refine hskip.trans ?_
          intro m hm
          exact hrest opened layout level m bound after hm (by simp only [List.tail_cons]; omega)

theorem skipsMembers_nil : SkipsMembers [] := by
  intro opened layout level n bound after hn hbound
  cases n with
  | zero => cases hn
  | succ n =>
      have hahead := answer_ahead .object bound (layout.lineBreak_blank level) (c := '}') rfl after
      simp only [writeMembers, List.length_append, List.length_cons] at hn
      refine ⟨n, by omega, ?_⟩
      simp [skipAfter, writeMembers, Bracket.unfinished, Bracket.closing, hahead]

theorem skipsMembers_cons {key : String} {value : Json} {rest : List (String × Json)}
    (h : value.isWhole) (hvalue : Skips value) (hrest : SkipsMembers rest) :
    SkipsMembers ((key, value) :: rest) := by
  intro opened layout level n bound after hn hbound
  cases n with
  | zero => cases hn
  | succ n =>
      have hlength := length_write_lt h layout (level + 1) (writeMembers layout level rest after)
      rw [writeMembers_cons] at hn hbound ⊢
      have hkey := answer_skipKey (layout.lineBreak_blank (level + 1)) key bound
        (layout.afterColon ++ value.write layout (level + 1) (writeMembers layout level rest after))
        (Nat.lt_of_succ_lt hbound)
      simp only [List.length_append, List.length_cons] at hn hbound
      have hskip := hvalue (.curly :: opened) layout (level + 1) n bound layout.afterColon
        (writeMembers layout level rest after) layout.afterColon_blank
        (closed_writeMembers layout level rest after)
        (by rw [List.length_append]; omega) (by rw [List.length_append]; omega)
      simp only [skipAfter, Bracket.unfinished, Bracket.closing, if_true, if_false, answer_bind,
        isBlank, Char.reduceEq, decide_false, Bool.or_self, answer_ahead_cons, ok_bind, answer_drop,
        List.tail_cons, hkey]
      refine hskip.trans ?_
      intro m hm
      exact hrest opened layout level m bound after hm (by omega)

/-! ### Any value -/

mutual

theorem skips (v : Json) (h : v.isWhole) : Skips v := by
  match v with
  | .null | .bool _ | .num _ | .str _ => exact skips_scalar h rfl
  | .arr [] => exact skips_arr h (by simp) skipsElements_nil
  | .arr (element :: rest) =>
    obtain ⟨helement, hrest⟩ := Bool.and_eq_true_iff.mp h
    refine skips_arr h ?_ (skipsElements rest hrest)
    rintro _ ⟨⟩
    exact skips element helement
  | .obj [] => exact skips_obj h (by simp) skipsMembers_nil
  | .obj ((key, value) :: rest) =>
    obtain ⟨hvalue, hrest⟩ := Bool.and_eq_true_iff.mp h
    refine skips_obj h ?_ (skipsMembers rest hrest)
    rintro _ ⟨⟩
    exact skips value hvalue
termination_by structural v

theorem skipsElements (elements : List Json) (h : isWholeElements elements) :
    SkipsElements elements := by
  match elements with
  | [] => exact skipsElements_nil
  | element :: rest =>
    rw [isWholeElements, Bool.and_eq_true] at h
    exact skipsElements_cons h.1 (skips element h.1) (skipsElements rest h.2)
termination_by structural elements

theorem skipsMembers (members : List (String × Json)) (h : isWholeMembers members) :
    SkipsMembers members := by
  match members with
  | [] => exact skipsMembers_nil
  | (key, value) :: rest =>
    rw [isWholeMembers, Bool.and_eq_true] at h
    exact skipsMembers_cons h.1 (skips value h.1) (skipsMembers rest h.2)
termination_by structural members

end

theorem reads_skip {v : Json} (h : v.isWhole) : Reads skip v (.ok ()) := by
  intro layout level bound blanks after hblanks hafter hbound
  obtain ⟨n, hn, hskip⟩ := skips v h [] layout level bound bound blanks after hblanks hafter hbound
    hbound
  rw [skip, answer_bind, answer_read, ok_bind]
  refine hskip.trans ?_
  cases n with
  | zero => cases hn
  | succ n => rfl

end ComponentLowering.Json.Reader
