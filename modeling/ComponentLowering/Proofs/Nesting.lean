import ComponentLowering.Proofs.Values
/-!
How deep the brackets of a text nest, read off the text itself, without the brackets inside of
strings. In the text of a value that is the depth of the value, in every layout.
-/

namespace ComponentLowering

namespace Scan

inductive Place where
  | outside
  | inString
  /-- Behind a backslash in a string. -/
  | inEscape
  deriving DecidableEq

end Scan

/-- How far a text was scanned: where that is, how many brackets are open there, and how many were
open at once so far. -/
structure Scan where
  place : Scan.Place := .outside
  opened : Nat := 0
  most : Nat := 0

namespace Scan

def step (scan : Scan) (c : Char) : Scan :=
  match scan.place with
  | .outside =>
    if c = '"' then { scan with place := .inString }
    else if c = '[' ∨ c = '{' then
      { scan with opened := scan.opened + 1, most := max scan.most (scan.opened + 1) }
    else if c = ']' ∨ c = '}' then { scan with opened := scan.opened - 1 }
    else scan
  | .inString =>
    if c = '"' then { scan with place := .outside }
    else if c = '\\' then { scan with place := .inEscape }
    else scan
  | .inEscape => { scan with place := .inString }

end Scan

/-- The greatest number of brackets that are open at once in a text. -/
def nesting (text : String) : Nat :=
  (text.toList.foldl Scan.step {}).most

namespace Scan

open Json

/-- A character between the strings of a text that is no bracket. -/
def isPlain (c : Char) : Bool :=
  c ∉ ['"', '[', '{', ']', '}']

theorem step_plain {c : Char} (h : isPlain c) (opened most : Nat) :
    step ⟨.outside, opened, most⟩ c = ⟨.outside, opened, most⟩ := by
  have hplain : ¬(c = '"' ∨ c = '[' ∨ c = '{' ∨ c = ']' ∨ c = '}') := by
    simpa [isPlain] using h
  simp only [not_or] at hplain
  simp only [step, hplain, or_self, if_false]

theorem foldl_plain {text : List Char} (h : ∀ c ∈ text, isPlain c) (after : List Char)
    (opened most : Nat) :
    (text ++ after).foldl step ⟨.outside, opened, most⟩ =
      after.foldl step ⟨.outside, opened, most⟩ := by
  induction text with
  | nil => rfl
  | cons c rest ih =>
      obtain ⟨hc, hrest⟩ := List.forall_mem_cons.mp h
      rw [List.cons_append, List.foldl_cons, step_plain hc, ih hrest]

theorem isPlain_blank {c : Char} (h : isBlank c = true) : isPlain c := by
  simp only [isBlank, Bool.or_eq_true, decide_eq_true_eq] at h
  rcases h with ((rfl | rfl) | rfl) | rfl <;> rfl

theorem isPlain_digit {c : Char} (h : c.isDigit = true) : isPlain c := by
  have hnone : ∀ c ∈ ['"', '[', '{', ']', '}'], c.isDigit = false := by simp
  refine decide_eq_true ?_
  intro hc
  rw [hnone c hc] at h
  cases h

theorem isPlain_digits (n : Int) : ∀ c ∈ Number.digits n, isPlain c := by
  have hdigits : ∀ n, ∀ c ∈ Nat.toDigits 10 n, isPlain c := by
    intro n c hc
    exact isPlain_digit (Reader.isDigit_toDigits hc)
  cases n with
  | ofNat n => exact hdigits n
  | negSucc n => exact List.forall_mem_cons.mpr ⟨rfl, hdigits (n + 1)⟩

theorem foldl_escape (c : Char) (opened most : Nat) :
    (Json.escape c).foldl step ⟨.inString, opened, most⟩ = ⟨.inString, opened, most⟩ := by
  unfold Json.escape
  split_ifs with h1 h2 h3 h4 h5 h6 h7 hcontrol
  case pos | pos | pos | pos | pos | pos | pos => rfl
  · simp [step]
  · simp [step, h1, h2]

theorem foldl_string (s : List Char) (opened most : Nat) :
    (s.flatMap Json.escape).foldl step ⟨.inString, opened, most⟩ = ⟨.inString, opened, most⟩ := by
  induction s with
  | nil => rfl
  | cons c rest ih => rw [List.flatMap_cons, List.foldl_append, foldl_escape, ih]

theorem foldl_quote (s : String) (after : List Char) (opened most : Nat) :
    (quote s ++ after).foldl step ⟨.outside, opened, most⟩ =
      after.foldl step ⟨.outside, opened, most⟩ := by
  rw [Reader.quote_append, List.foldl_cons, List.foldl_append]
  simp only [step, if_true]
  rw [foldl_string]
  rfl

theorem foldl_lineBreak (layout : Layout) (level : Nat) (after : List Char) (opened most : Nat) :
    (layout.lineBreak level ++ after).foldl step ⟨.outside, opened, most⟩ =
      after.foldl step ⟨.outside, opened, most⟩ :=
  foldl_plain (fun c hc => isPlain_blank (layout.lineBreak_blank level c hc)) after opened most

theorem foldl_afterColon (layout : Layout) (after : List Char) (opened most : Nat) :
    (layout.afterColon ++ after).foldl step ⟨.outside, opened, most⟩ =
      after.foldl step ⟨.outside, opened, most⟩ :=
  foldl_plain (fun c hc => isPlain_blank (layout.afterColon_blank c hc)) after opened most

theorem foldl_scalar {value : Json} (h : value.isWhole) (hscalar : Reader.isScalar value)
    (layout : Layout) (level : Nat) (after : List Char) {opened most : Nat}
    (hmost : opened ≤ most) :
    (value.write layout level after).foldl step ⟨.outside, opened, most⟩ =
      after.foldl step ⟨.outside, opened, max most (opened + value.depth)⟩ := by
  rw [Reader.depth_scalar hscalar, Nat.add_zero, Nat.max_eq_left hmost]
  cases value with
  | null => exact foldl_plain (by simp [isPlain]) after opened most
  | bool b =>
      cases b with
      | true => exact foldl_plain (by simp [isPlain]) after opened most
      | false => exact foldl_plain (by simp [isPlain]) after opened most
  | num number =>
      cases number with
      | whole n => exact foldl_plain (isPlain_digits n) after opened most
      | real x => cases h
  | str s => exact foldl_quote s after opened most
  | arr elements => cases hscalar
  | obj members => cases hscalar

/-- The text of an array or object goes one bracket deeper than the text inside of it. -/
theorem step_opening {bracket : Char} (h : bracket = '[' ∨ bracket = '{') (opened most : Nat) :
    step ⟨.outside, opened, most⟩ bracket = ⟨.outside, opened + 1, max most (opened + 1)⟩ := by
  rcases h with rfl | rfl <;> rfl

theorem step_closing {bracket : Char} (h : bracket = ']' ∨ bracket = '}') (opened most : Nat) :
    step ⟨.outside, opened + 1, most⟩ bracket = ⟨.outside, opened, most⟩ := by
  rcases h with rfl | rfl <;> rfl

theorem step_comma (opened most : Nat) :
    step ⟨.outside, opened, most⟩ ',' = ⟨.outside, opened, most⟩ :=
  step_plain rfl opened most

theorem step_colon (opened most : Nat) :
    step ⟨.outside, opened, most⟩ ':' = ⟨.outside, opened, most⟩ :=
  step_plain rfl opened most

mutual

/-- A value closes all brackets that it opens. -/
theorem foldl_write (layout : Layout) (level : Nat) (value : Json) (h : value.isWhole)
    (after : List Char) (opened most : Nat) (hmost : opened ≤ most) :
    (value.write layout level after).foldl step ⟨.outside, opened, most⟩ =
      after.foldl step ⟨.outside, opened, max most (opened + value.depth)⟩ := by
  match value with
  | .null | .bool _ | .num _ | .str _ =>
    exact foldl_scalar h rfl layout level after hmost
  | .arr [] => rfl
  | .arr (element :: rest) =>
    obtain ⟨helement, hrest⟩ := Bool.and_eq_true_iff.mp h
    rw [write, List.cons_append, List.foldl_cons, step_opening (.inl rfl), foldl_lineBreak,
      foldl_write layout (level + 1) element helement _ _ _ (Nat.le_max_right ..),
      foldl_writeElements layout level rest hrest after opened _ (by omega)]
    congr 2
    simp only [depth, depthOfElements]
    omega
  | .obj [] => rfl
  | .obj ((key, value) :: rest) =>
    obtain ⟨hvalue, hrest⟩ := Bool.and_eq_true_iff.mp h
    rw [Reader.write_obj, Reader.membersText, List.foldl_cons, step_opening (.inr rfl),
      foldl_lineBreak, foldl_quote, List.foldl_cons, step_colon, foldl_afterColon,
      foldl_write layout (level + 1) value hvalue _ _ _ (Nat.le_max_right ..),
      foldl_writeMembers layout level rest hrest after opened _ (by omega)]
    congr 2
    simp only [depth, depthOfMembers]
    omega
termination_by structural value

theorem foldl_writeElements (layout : Layout) (level : Nat) (elements : List Json)
    (h : isWholeElements elements) (after : List Char) (opened most : Nat)
    (hmost : opened + 1 ≤ most) :
    (writeElements layout level elements after).foldl step ⟨.outside, opened + 1, most⟩ =
      after.foldl step ⟨.outside, opened, max most (opened + 1 + depthOfElements elements)⟩ := by
  match elements with
  | [] =>
    rw [writeElements, foldl_lineBreak, List.foldl_cons, step_closing (.inl rfl), depthOfElements,
      Nat.add_zero, Nat.max_eq_left hmost]
  | element :: rest =>
    obtain ⟨helement, hrest⟩ := Bool.and_eq_true_iff.mp h
    rw [writeElements, List.cons_append, List.foldl_cons, step_comma, foldl_lineBreak,
      foldl_write layout (level + 1) element helement _ _ _ hmost,
      foldl_writeElements layout level rest hrest after opened _ (by omega)]
    congr 2
    simp only [depthOfElements]
    omega
termination_by structural elements

theorem foldl_writeMembers (layout : Layout) (level : Nat) (members : List (String × Json))
    (h : isWholeMembers members) (after : List Char) (opened most : Nat)
    (hmost : opened + 1 ≤ most) :
    (writeMembers layout level members after).foldl step ⟨.outside, opened + 1, most⟩ =
      after.foldl step ⟨.outside, opened, max most (opened + 1 + depthOfMembers members)⟩ := by
  match members with
  | [] =>
    rw [writeMembers, foldl_lineBreak, List.foldl_cons, step_closing (.inr rfl), depthOfMembers,
      Nat.add_zero, Nat.max_eq_left hmost]
  | (key, value) :: rest =>
    obtain ⟨hvalue, hrest⟩ := Bool.and_eq_true_iff.mp h
    rw [Reader.writeMembers_cons, List.foldl_cons, step_comma, foldl_lineBreak, foldl_quote,
      List.foldl_cons, step_colon, foldl_afterColon,
      foldl_write layout (level + 1) value hvalue _ _ _ hmost,
      foldl_writeMembers layout level rest hrest after opened _ (by omega)]
    congr 2
    simp only [depthOfMembers]
    omega
termination_by structural members

end

end Scan

/-- The brackets in the text of a value nest as deep as the value. -/
theorem nesting_render {value : Json} (h : value.isWhole) (layout : Layout) :
    nesting (value.render layout) = value.depth := by
  rw [nesting, Json.render, String.toList_ofList,
    Scan.foldl_write layout 0 value h [] 0 0 (Nat.le_refl 0)]
  simp

end ComponentLowering
