import ComponentLowering.Proofs.Cuts
import ComponentLowering.Proofs.Fields
/-!
Readers of values on texts that break off. Wherever the text of a value is cut, its reader asks for
more (`BreaksAt`); only where the value is a number it may also be done. Loops over elements and
members always ask for more, because their closing bracket is missing, as long as every round that
was finished is one that the whole text has as well.
-/

namespace ComponentLowering.Json.Reader

variable {α β σ : Type} {ends : Bool} {text : List Char}

/-- A reader that asks for more wherever the text of a value is cut, whatever its layout and
whatever blanks stand in front of it. -/
def BreaksAt (ends : Bool) (reader : Reader α) (value : Json) : Prop :=
  ∀ (layout : Layout) (level : Nat) (blanks : List Char), Blank blanks →
    Breaks ends reader (blanks ++ value.write layout level [])

theorem BreaksAt.here {reader : Reader α} {value : Json} (h : BreaksAt ends reader value)
    (layout : Layout) (level : Nat) : Breaks ends reader (value.write layout level []) :=
  h layout level [] blank_nil

theorem BreaksAt.of_false {reader : Reader α} {value : Json} (h : BreaksAt false reader value) :
    BreaksAt ends reader value :=
  fun layout level blanks hblanks => (h layout level blanks hblanks).of_false

theorem breaksAt_ahead {next : Char → Reader α} {value : Json} (h : value.isWhole)
    (hnext : ∀ (layout : Layout) (level bound : Nat) (front : List Char), front ≠ [] →
      Cut front (value.write layout level []) → front.length < bound →
        Short ends ((next value.lead).answer bound front)) :
    BreaksAt ends (ahead .value >>= next) value := by
  intro layout level blanks hblanks
  obtain ⟨rest, hwrite⟩ := write_lead h layout level []
  rw [hwrite]
  apply breaks_ahead hblanks (isBlank_lead h)
  intro bound later hlater hbound
  apply hnext layout level bound (value.lead :: later) (List.cons_ne_nil _ _)
  · rw [hwrite]
    exact hlater.cons value.lead
  · exact hbound

/-- Behind the first character, the rest of a text is cut. -/
theorem Breaks.drop {reader : Reader α} {c : Char} (h : Breaks ends reader text) {bound : Nat}
    {front : List Char} (hfront : front ≠ []) (hcut : Cut front (c :: text))
    (hbound : front.length < bound) :
    Short ends ((drop >>= fun _ => reader).answer bound front) := by
  rcases hcut.cons_cases with rfl | ⟨later, rfl, hlater⟩
  · exact absurd rfl hfront
  · exact h bound later hlater (Nat.lt_of_succ_lt hbound)

/-- A reader that takes the first character of a value asks for more as the reader does that goes
on. -/
theorem breaksAt_drop {next : Char → Reader α} {reader : Reader α} {value : Json}
    {rest : Layout → Nat → List Char} (h : value.isWhole)
    (hwrite : ∀ layout level, value.write layout level [] = value.lead :: rest layout level)
    (hnext : next value.lead = drop >>= fun _ => reader)
    (hbreaks : ∀ layout level, Breaks ends reader (rest layout level)) :
    BreaksAt ends (ahead .value >>= next) value := by
  apply breaksAt_ahead h
  intro layout level bound front hfront hcut hbound
  rw [hwrite] at hcut
  rw [hnext]
  exact (hbreaks layout level).drop hfront hcut hbound

/-- A value that is read from its text is read from any front of what follows it. -/
theorem Reads.answer_front {reader : Reader α} {value : Json} {a : α}
    (h : Reads reader value (.ok a)) (layout : Layout) (level bound : Nat)
    {blanks later : List Char} (hblanks : Blank blanks) (hlater : Closed later)
    (hbound : (blanks ++ value.write layout level [] ++ later).length < bound) :
    reader.answer bound (blanks ++ value.write layout level [] ++ later) = .ok (a, later) := by
  rw [List.append_assoc, ← write_append, List.nil_append] at hbound ⊢
  exact h layout level bound blanks later hblanks hlater hbound

/-! ### Scalars -/

theorem breaksAt_scalar {v : Json} (h : v.isWhole) (hscalar : isScalar v) :
    BreaksAt true scalar v := by
  apply breaksAt_ahead h
  intro layout level bound front hfront hcut hbound
  cases v with
  | null => exact (breaks_word ['n', 'u', 'l', 'l']).bind_of_false bound front hcut hbound
  | bool b =>
      cases b with
      | true => exact (breaks_word ['t', 'r', 'u', 'e']).bind_of_false bound front hcut hbound
      | false =>
          exact (breaks_word ['f', 'a', 'l', 's', 'e']).bind_of_false bound front hcut hbound
  | num number =>
      cases number with
      | real x => cases h
      | whole n =>
          have hstarts := lead_num_starts h
          generalize lead (.num (.whole n)) = c at hstarts ⊢
          obtain ⟨hlow, hhigh⟩ := of_decide_eq_true h
          have hdigits := (breaks_signedNumber hlow hhigh).map Json.num
          rw [write, Number.text, List.append_nil] at hcut
          simpa [hstarts] using hdigits bound front hcut hbound
  | str s =>
      rw [write_str] at hcut
      exact ((breaks_restOfString s).bind_of_false).drop hfront hcut hbound
  | arr elements => cases hscalar
  | obj members => cases hscalar

theorem breaksAt_string (s : String) : BreaksAt false string (.str s) :=
  breaksAt_drop rfl (write_str · · s []) rfl fun _ _ =>
    breaks_restOfString s

theorem breaksAt_natural {n : Nat} (h : n ≤ greatestNatural) :
    BreaksAt true natural (Json.natural n) := by
  have hwhole : (Json.natural n).isWhole :=
    decide_eq_true ⟨Int.le_trans (by decide) (Int.natCast_nonneg n), Int.ofNat_le.mpr h⟩
  apply breaksAt_ahead hwhole
  intro layout level bound front _ hcut _
  have hlead := (lead_numeric hwhole).mpr ⟨_, rfl⟩
  rw [Json.natural, write, List.append_nil] at hcut
  rw [if_pos hlead, answer_bind]
  rcases answer_signedNumber_front h bound hcut with hread | ⟨m, hread⟩
  · rw [hread]
    exact .truncated .value
  · have hnatural : (0 : Int) ≤ m := Int.natCast_nonneg m
    rw [hread, ok_bind]
    simp only [if_pos hnatural]
    exact .ended rfl _

theorem breaksAt_variant [Named α] (depth : Nat) (name : String) :
    BreaksAt false (variant depth : Reader α) (.str name) := by
  apply breaksAt_ahead rfl
  intro layout level bound front _ hcut hbound
  exact ((breaksAt_string name).here layout level).bind_of_false bound front hcut hbound

theorem breaksAt_optional {item : Reader α} {v : Json} (h : v.isWhole) (hv : v ≠ .null)
    (hitem : BreaksAt ends item v) : BreaksAt ends (optional item) v := by
  apply breaksAt_ahead h
  intro layout level bound front _ hcut hbound
  rw [if_neg (mt (lead_eq_n h).mp hv)]
  exact (hitem.here layout level).map some bound front hcut hbound

/-! ### Arrays -/

/-- What stands in front of an element or a member, besides blanks. -/
def separator (isFirst : Bool) : List Char :=
  if isFirst then [] else [',']

theorem elementsText_cons (layout : Layout) (level : Nat) (isFirst : Bool) (element : Json)
    (rest : List Json) (after : List Char) :
    elementsText layout level isFirst (element :: rest) after =
      separator isFirst ++ (layout.lineBreak (level + 1) ++
        element.write layout (level + 1) (writeElements layout level rest after)) := by
  cases isFirst with
  | true => rfl
  | false => simp [elementsText, writeElements, separator]

theorem elementsText_nil (layout : Layout) (level : Nat) (isFirst : Bool) :
    ∃ blanks, Blank blanks ∧ elementsText layout level isFirst [] [] = blanks ++ [']'] := by
  cases isFirst with
  | true => exact ⟨[], blank_nil, rfl⟩
  | false => exact ⟨layout.lineBreak level, layout.lineBreak_blank level, rfl⟩

theorem breaks_nextElement {next : Bool → Reader β} (isFirst : Bool) {blanks : List Char} {c : Char}
    (hblanks : Blank blanks) (hc : isBlank c = false) (hclosing : c ≠ ']')
    (h : Breaks ends (next true) (c :: text)) :
    Breaks ends (nextElement isFirst >>= next) (separator isFirst ++ (blanks ++ c :: text)) := by
  cases isFirst with
  | true =>
      rw [nextElement, bind_assoc]
      apply breaks_ahead hblanks hc
      intro bound later hlater hbound
      rw [if_neg hclosing, if_pos rfl, pure_bind]
      exact h bound (c :: later) (hlater.cons c) hbound
  | false =>
      intro bound front hcut hbound
      rcases hcut.cons_cases with rfl | ⟨later, rfl, hlater⟩
      · exact .truncated .list
      · have hcomma : (nextElement false >>= next).answer bound (',' :: later) =
            (ahead .value >>= fun c => (if c = ']' then malformed .trailingComma else pure true) >>=
              next).answer bound later := by
          simp [nextElement, answer_ite, isBlank]
        rw [hcomma]
        refine breaks_ahead hblanks hc ?_ bound later hlater (Nat.lt_of_succ_lt hbound)
        intro bound rest hrest hbound
        rw [if_neg hclosing, pure_bind]
        exact h bound (c :: rest) (hrest.cons c) hbound

theorem waits_elementsFrom (item : Reader α) (isFirst : Bool) (n : Nat) :
    Waits false (elementsFrom item isFirst n) := by
  intro bound
  cases n with
  | zero => exact .truncated .list
  | succ n => exact .truncated .list

/-- The elements of an array are asked for up to the closing bracket. -/
theorem breaks_elementsFrom {item : Reader α} (elements : List Json)
    (hwhole : ∀ element ∈ elements, element.isWhole)
    (hread : ∀ element ∈ elements, ∃ a, Reads item element (.ok a))
    (hbreaks : ∀ element ∈ elements, BreaksAt true item element) (layout : Layout) (level : Nat)
    (isFirst : Bool) (n : Nat) :
    Breaks false (elementsFrom item isFirst n) (elementsText layout level isFirst elements []) := by
  induction elements generalizing isFirst n with
  | nil =>
      cases n with
      | zero => exact fun _ _ _ _ => .truncated .list
      | succ n =>
          obtain ⟨blanks, hblanks, htext⟩ := elementsText_nil layout level isFirst
          rw [htext, elementsFrom, nextElement, bind_assoc]
          exact breaks_ahead hblanks rfl fun _ _ hcut => absurd hcut not_cut_nil
  | cons element rest ih =>
      cases n with
      | zero => exact fun _ _ _ _ => .truncated .list
      | succ n =>
          have helement : element.isWhole := hwhole element (by simp)
          obtain ⟨a, hreads⟩ := hread element (by simp)
          have hloop := ih (fun other ho => hwhole other (List.mem_cons_of_mem element ho))
            (fun other ho => hread other (List.mem_cons_of_mem element ho))
            (fun other ho => hbreaks other (List.mem_cons_of_mem element ho)) false n
          have hitem : Breaks false
              (item >>= fun a => elementsFrom item false n >>= fun as => pure (a :: as))
              (element.write layout (level + 1) [] ++ writeElements layout level rest []) := by
            apply (hbreaks element (by simp)).here layout (level + 1) |>.bind
            · intro bound later hlater hbound
              have hclosed := hlater.closed (closed_writeElements layout level rest [])
              exact hreads.answer_front layout (level + 1) bound blank_nil hclosed hbound
            · exact hloop.map (a :: ·)
            · intro a bound
              exact (waits_elementsFrom item false n bound).bind fun hends =>
                Bool.noConfusion hends
          obtain ⟨more, hlead⟩ := write_lead helement layout (level + 1)
            (writeElements layout level rest [])
          rw [← write_append, List.nil_append, hlead] at hitem
          rw [elementsText_cons, hlead, elementsFrom]
          exact breaks_nextElement isFirst (layout.lineBreak_blank (level + 1))
            (isBlank_lead helement) (lead_ne_closing helement).1 hitem

theorem breaks_elements {item : Reader α} {elements : List Json}
    (hwhole : ∀ element ∈ elements, element.isWhole)
    (hread : ∀ element ∈ elements, ∃ a, Reads item element (.ok a))
    (hbreaks : ∀ element ∈ elements, BreaksAt true item element) (layout : Layout) (level : Nat) :
    Breaks false (Reader.elements item) (elementsText layout level true elements []) :=
  fun bound => breaks_elementsFrom elements hwhole hread hbreaks layout level true bound bound

/-! ### Objects -/

theorem membersText_cons (layout : Layout) (level : Nat) (isFirst : Bool) (key : String)
    (value : Json) (rest : List (String × Json)) :
    membersText layout level isFirst ((key, value) :: rest) [] =
      separator isFirst ++ (layout.lineBreak (level + 1) ++ (quote key ++
        (':' :: (layout.afterColon ++ value.write layout (level + 1) []) ++
          membersText layout level false rest []))) := by
  have hwrite : value.write layout (level + 1) (writeMembers layout level rest []) =
      value.write layout (level + 1) [] ++ writeMembers layout level rest [] := by
    rw [← write_append, List.nil_append]
  cases isFirst with
  | true => simp [membersText, separator, hwrite]
  | false => simp [membersText, writeMembers, separator, hwrite]

theorem membersText_nil (layout : Layout) (level : Nat) (isFirst : Bool) :
    ∃ blanks, Blank blanks ∧ membersText layout level isFirst [] [] = blanks ++ ['}'] := by
  cases isFirst with
  | true => exact ⟨[], blank_nil, rfl⟩
  | false => exact ⟨layout.lineBreak level, layout.lineBreak_blank level, rfl⟩

theorem breaks_nextKey {next : Option String → Reader β} (isFirst : Bool) {blanks : List Char}
    (hblanks : Blank blanks) (key : String) (h : Breaks ends (next (some key)) text) :
    Breaks ends (nextKey? isFirst >>= next)
      (separator isFirst ++ (blanks ++ (quote key ++ text))) := by
  have hkey : Breaks ends (restOfString >>= fun key => next (some key))
      (key.toList.flatMap Json.escape ++ '"' :: text) :=
    breaks_restOfString_bind key h
  rw [quote_append]
  cases isFirst with
  | true =>
      rw [nextKey?, bind_assoc]
      apply breaks_ahead hblanks rfl
      intro bound later hlater hbound
      simpa [openKey] using hkey bound later hlater (Nat.lt_of_succ_lt hbound)
  | false =>
      intro bound front hcut hbound
      rcases hcut.cons_cases with rfl | ⟨later, rfl, hlater⟩
      · exact .truncated .object
      · have hcomma : (nextKey? false >>= next).answer bound (',' :: later) =
            (ahead .value >>= fun c =>
              (if c = '}' then malformed .trailingComma else openKey >>= fun _ =>
                restOfString >>= fun key => pure (some key)) >>= next).answer bound later := by
          simp [nextKey?, answer_ite, isBlank]
        rw [hcomma]
        refine breaks_ahead hblanks rfl ?_ bound later hlater (Nat.lt_of_succ_lt hbound)
        intro bound rest hrest hbound
        simpa [openKey] using hkey bound rest hrest (Nat.lt_of_succ_lt hbound)

/-- A reader of a member that asks for more wherever the text is cut from the colon on. -/
def BreaksMember (reader : Reader α) (value : Json) : Prop :=
  ∀ (layout : Layout) (level : Nat) (blanks : List Char), Blank blanks →
    Breaks true reader (':' :: (blanks ++ value.write layout level []))

theorem breaksMember_colon {item : Reader α} {v : Json} (h : BreaksAt true item v) (f : α → β) :
    BreaksMember (do colon; return f (← item)) v := by
  intro layout level blanks hblanks
  exact breaks_colon ((h layout level blanks hblanks).map f)

theorem waits_membersFrom (member : σ → String → Reader σ) (s : σ) (isFirst : Bool) (n : Nat) :
    Waits false (membersFrom member s isFirst n) := by
  intro bound
  cases n with
  | zero => exact .truncated .object
  | succ n => exact .truncated .object

/-- The members of an object are asked for up to the closing bracket. -/
theorem breaks_membersFrom {member : σ → String → Reader σ}
    {step : σ → String × Json → Except ReadError.Cause σ} (members : List (String × Json))
    (hread : ∀ m ∈ members, ReadsMember member step m)
    (hbreaks : ∀ m ∈ members, ∀ s s', step s m = .ok s' → BreaksMember (member s m.1) m.2)
    {s s' : σ} (h : members.foldlM step s = .ok s') (layout : Layout) (level : Nat)
    (isFirst : Bool) (n : Nat) :
    Breaks false (membersFrom member s isFirst n)
      (membersText layout level isFirst members []) := by
  induction members generalizing s isFirst n with
  | nil =>
      cases n with
      | zero => exact fun _ _ _ _ => .truncated .object
      | succ n =>
          obtain ⟨blanks, hblanks, htext⟩ := membersText_nil layout level isFirst
          rw [htext, membersFrom, nextKey?, bind_assoc]
          exact breaks_ahead hblanks rfl fun _ _ hcut => absurd hcut not_cut_nil
  | cons m rest ih =>
      cases n with
      | zero => exact fun _ _ _ _ => .truncated .object
      | succ n =>
          obtain ⟨key, value⟩ := m
          rw [List.foldlM_cons] at h
          cases hstep : step s (key, value) with
          | error cause => rw [hstep] at h; cases h
          | ok s₁ =>
              rw [hstep] at h
              have hloop := ih (fun other ho => hread other (List.mem_cons_of_mem _ ho))
                (fun other ho => hbreaks other (List.mem_cons_of_mem _ ho)) h false n
              rw [membersText_cons, membersFrom]
              apply breaks_nextKey isFirst (layout.lineBreak_blank (level + 1)) key
              apply (hbreaks (key, value) (by simp) s s₁ hstep layout (level + 1) layout.afterColon
                layout.afterColon_blank).bind
              · intro bound later hlater hbound
                have hclosed := hlater.closed (closed_writeMembers layout level rest [])
                have hmember := hread (key, value) (by simp) s layout (level + 1) bound
                  layout.afterColon later layout.afterColon_blank hclosed
                rw [hstep, ← List.nil_append later, write_append, List.nil_append] at hmember
                rw [List.cons_append, List.append_assoc] at hbound ⊢
                exact hmember (Nat.lt_of_succ_lt hbound)
              · exact hloop
              · exact fun s => waits_membersFrom member s false n

theorem breaks_members {member : σ → String → Reader σ}
    {step : σ → String × Json → Except ReadError.Cause σ} {members : List (String × Json)}
    (hread : ∀ m ∈ members, ReadsMember member step m)
    (hbreaks : ∀ m ∈ members, ∀ s s', step s m = .ok s' → BreaksMember (member s m.1) m.2)
    {s s' : σ} (h : members.foldlM step s = .ok s') (layout : Layout) (level : Nat) :
    Breaks false (Reader.members member s) (membersText layout level true members []) :=
  fun bound => breaks_membersFrom members hread hbreaks h layout level true bound bound

/-! ### Any value -/

theorem breaksAt_value_scalar (depth : Nat) {v : Json} (h : v.isWhole) (hscalar : isScalar v) :
    BreaksAt true (value depth) v := by
  rw [value.eq_def]
  apply breaksAt_ahead h
  intro layout level bound front _ hcut hbound
  have hbreaks := (breaksAt_scalar h hscalar).here layout level bound front hcut hbound
  obtain ⟨hsquare, hcurly⟩ := lead_of_scalar h hscalar
  generalize v.lead = c at hsquare hcurly ⊢
  simpa [hsquare, hcurly] using hbreaks

/-- A value of any shape is asked for to its end, if no more brackets are open in it than may
be. -/
theorem breaksAt_value {depth : Nat} {v : Json} (h : v.isWhole) (hdepth : v.depth ≤ depth) :
    BreaksAt true (value depth) v := by
  induction depth generalizing v with
  | zero =>
      rcases shape_cases v with hscalar | ⟨elements, rfl⟩ | ⟨members, rfl⟩
      · exact breaksAt_value_scalar 0 h hscalar
      · cases hdepth
      · cases hdepth
  | succ depth ih =>
      rcases shape_cases v with hscalar | ⟨elements, rfl⟩ | ⟨members, rfl⟩
      · exact breaksAt_value_scalar (depth + 1) h hscalar
      · have hwhole := isWhole_arr h
        have hshallow := depth_le_of_element hdepth
        have helements := breaks_elements hwhole
          (fun element he => ⟨element, limited_of_le (hshallow element he) element ▸
            reads_value depth (hwhole element he)⟩)
          (fun element he => ih (hwhole element he) (hshallow element he))
        rw [value]
        exact breaksAt_drop h (write_arr · · elements []) rfl
          fun layout level => (helements layout level).bind_of_false
      · have hwhole := isWhole_obj h
        have hshallow := depth_le_of_member hdepth
        have hread := fun m hm => readsMember_value (reads_value depth (hwhole m hm))
        have hall := foldlM_limited depth members []
        rw [limited_of_le (Nat.le_of_succ_le_succ hdepth)] at hall
        have hbreaks : ∀ m ∈ members, ∀ before after : List (String × Json),
            limited depth m.2.depth (m :: before) = .ok after →
              BreaksMember (do colon; return (m.1, ← value depth) :: before) m.2 := by
          intro m hm before _ _
          exact breaksMember_colon (ih (hwhole m hm) (hshallow m hm)) fun v => (m.1, v) :: before
        rw [value]
        exact breaksAt_drop h (write_obj · · members []) rfl
          fun layout level => (breaks_members hread hbreaks hall layout level).bind_of_false

/-! ### Lists, records and their fields -/

theorem breaksAt_opening {reader : Reader α} {v : Json} {rest : Layout → Nat → List Char}
    (h : v.isWhole)
    (hwrite : ∀ layout level, v.write layout level [] = v.lead :: rest layout level)
    (hbreaks : ∀ layout level, Breaks ends reader (rest layout level)) (expected : Expected) :
    BreaksAt ends (do opening v.lead expected; drop; reader) v := by
  rw [opening, bind_assoc]
  apply breaksAt_drop h hwrite _ hbreaks
  rw [if_neg (not_not_intro rfl), pure_bind]

theorem breaksAt_list {item : Reader α} {elements : List Json} (h : (Json.arr elements).isWhole)
    (hread : ∀ element ∈ elements, ∃ a, Reads item element (.ok a))
    (hbreaks : ∀ element ∈ elements, BreaksAt true item element) :
    BreaksAt false (do opening '[' .sequence; drop; Reader.elements item) (.arr elements) :=
  breaksAt_opening h (write_arr · · elements [])
    (breaks_elements (isWhole_arr h) hread hbreaks) .sequence

/-- What a record is made of once its members are read has no part in it. -/
theorem breaksAt_record {form : RecordForm} {depth : Nat} {member : Nat → σ → String → Reader σ}
    {step : σ → String × Json → Except ReadError.Cause σ} {complete : σ → Reader α}
    {ofElements : Nat → Reader α} {members : List (String × Json)} {s s' : σ}
    (h : (Json.obj members).isWhole) (hread : ∀ m ∈ members, ReadsMember (member depth) step m)
    (hbreaks : ∀ m ∈ members, ∀ s s', step s m = .ok s' → BreaksMember (member depth s m.1) m.2)
    (hall : members.foldlM step s = .ok s') :
    BreaksAt false
      (record form (depth + 1) (fun depth => Reader.members (member depth) s >>= complete)
        ofElements)
      (.obj members) :=
  breaksAt_drop h (write_obj · · members []) rfl fun layout level =>
    (breaks_members hread hbreaks hall layout level).bind_of_false

/-- A field that was not read before is asked for to its end. -/
theorem breaksMember_once {name : String} {before after : Option α} {item : Reader α}
    {found : Except ReadError.Cause α} {v : Json} (h : decodeOnce name before found = .ok after)
    (hitem : BreaksAt true item v) (f : Option α → β) :
    BreaksMember (do return f (← once name before item)) v := by
  obtain ⟨rfl, _⟩ := decodeOnce_eq_ok.mp h
  intro layout level blanks hblanks
  exact (breaksMember_colon hitem some layout level blanks hblanks).map f

end ComponentLowering.Json.Reader
