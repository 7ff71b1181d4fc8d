import ComponentLowering.Proofs.Answers
import Mathlib.Tactic.SplitIfs
/-!
Strings and numbers as they are written are read back: escape by escape, and digit by digit up to
the 64 bits within which numbers stay whole.
-/

namespace ComponentLowering.Json.Reader

/-! ### Strings -/

theorem hexNumber_control : ∀ k < 32,
    hexNumber? ['0', '0', Nat.digitChar (k / 16), Nat.digitChar (k % 16)] = some k ∧
      byteSize ['0', '0', Nat.digitChar (k / 16), Nat.digitChar (k % 16)] = 4 := by
  decide

theorem answer_hexEscape {k : Nat} (h : k < 32) (bound : Nat) (text : List Char) :
    hexEscape.answer bound
        ('0' :: '0' :: Nat.digitChar (k / 16) :: Nat.digitChar (k % 16) :: text) =
      .ok (k, text) := by
  obtain ⟨hnumber, hsize⟩ := hexNumber_control k h
  simp [hexEscape, answer_ite, hsize, hnumber]

/-- One character as it is written is one round of reading. -/
theorem answer_characters_escape (before : List Char) (c : Char) (n bound : Nat)
    (text : List Char) :
    (characters before (n + 1)).answer bound (Json.escape c ++ text) =
      (characters (c :: before) n).answer bound text := by
  unfold Json.escape
  split_ifs with h1 h2 h3 h4 h5 h6 h7 hcontrol
  case pos | pos | pos | pos | pos | pos | pos => subst_vars; rfl
  · have hlt : c.toNat < 32 := hcontrol
    have hhalf : isTrailingHalf c.toNat = false ∧ isLeadingHalf c.toNat = false := by
      simp only [isTrailingHalf, isLeadingHalf, decide_eq_false_iff_not]
      omega
    simp [characters, escape, numberedEscape, answer_ite, answer_hexEscape hlt, hhalf]
  · simp [characters, hcontrol]

theorem one_le_length_escape (c : Char) : 1 ≤ (Json.escape c).length := by
  unfold Json.escape
  split_ifs <;> simp

theorem answer_characters (before written : List Char) (n bound : Nat) (after : List Char)
    (h : (written.flatMap Json.escape ++ '"' :: after).length < n) :
    (characters before n).answer bound (written.flatMap Json.escape ++ '"' :: after) =
      .ok (String.ofList (before.reverse ++ written), after) := by
  induction written generalizing before n with
  | nil =>
      cases n with
      | zero => cases h
      | succ n => simp [characters]
  | cons c rest ih =>
      cases n with
      | zero => cases h
      | succ n =>
          have hlength := one_le_length_escape c
          have hrest : (rest.flatMap Json.escape ++ '"' :: after).length < n := by
            simp only [List.flatMap_cons, List.length_append] at h ⊢
            omega
          rw [List.flatMap_cons, List.append_assoc, answer_characters_escape, ih _ _ hrest,
            List.reverse_cons, List.append_assoc, List.singleton_append]

/-- What follows the opening quote of a written string is that string. -/
theorem answer_restOfString (s : String) (bound : Nat) (after : List Char)
    (h : (s.toList.flatMap Json.escape ++ '"' :: after).length < bound) :
    restOfString.answer bound (s.toList.flatMap Json.escape ++ '"' :: after) = .ok (s, after) := by
  simp only [restOfString, answer_bind, answer_read, ok_bind, answer_characters [] _ _ _ _ h,
    List.reverse_nil, List.nil_append, String.ofList_toList]

/-- Passing over one written character is one round as well. -/
theorem answer_skipCharacters_escape (c : Char) (n bound : Nat) (text : List Char) :
    (skipCharacters (n + 1)).answer bound (Json.escape c ++ text) =
      (skipCharacters n).answer bound text := by
  unfold Json.escape
  split_ifs with h1 h2 h3 h4 h5 h6 h7 hcontrol
  case pos | pos | pos | pos | pos | pos | pos => subst_vars; rfl
  · have hlt : c.toNat < 32 := hcontrol
    simp [skipCharacters, answer_ite, answer_hexEscape hlt]
  · simp [skipCharacters, hcontrol]

theorem answer_skipCharacters (written : List Char) (n bound : Nat) (after : List Char)
    (h : (written.flatMap Json.escape ++ '"' :: after).length < n) :
    (skipCharacters n).answer bound (written.flatMap Json.escape ++ '"' :: after) =
      .ok ((), after) := by
  induction written generalizing n with
  | nil =>
      cases n with
      | zero => cases h
      | succ n => simp [skipCharacters]
  | cons c rest ih =>
      cases n with
      | zero => cases h
      | succ n =>
          have hlength := one_le_length_escape c
          have hrest : (rest.flatMap Json.escape ++ '"' :: after).length < n := by
            simp only [List.flatMap_cons, List.length_append] at h ⊢
            omega
          rw [List.flatMap_cons, List.append_assoc, answer_skipCharacters_escape, ih _ hrest]

/-! ### Numbers -/

theorem closed_takeWhile {digits after : List Char} (h : ∀ c ∈ digits, c.isDigit = true)
    (hafter : Closed after) : (digits ++ after).takeWhile Char.isDigit = digits := by
  rw [List.takeWhile_append_of_pos h]
  cases after with
  | nil => simp
  | cons c rest => simp [(hafter c rfl).1]

theorem closed_dropWhile {digits after : List Char} (h : ∀ c ∈ digits, c.isDigit = true)
    (hafter : Closed after) : (digits ++ after).dropWhile Char.isDigit = after := by
  rw [List.dropWhile_append_of_pos h]
  cases after with
  | nil => rfl
  | cons c rest => simp [(hafter c rfl).1]

theorem le_ofDigitChars (digits : List Char) (start : Nat) :
    start ≤ Nat.ofDigitChars 10 digits start := by
  induction digits generalizing start with
  | nil => exact Nat.le_refl _
  | cons c rest ih =>
      rw [Nat.ofDigitChars_cons]
      exact Nat.le_trans (by omega) (ih _)

/-- All digits of a number within the limit are absorbed. -/
theorem absorb_eq {limit : Nat} (digits : List Char) (start : Nat)
    (h : Nat.ofDigitChars 10 digits start ≤ limit) :
    absorb limit start digits = (Nat.ofDigitChars 10 digits start, digits.length) := by
  induction digits generalizing start with
  | nil => rfl
  | cons c rest ih =>
      have hstart : start * 10 + digitValue c = 10 * start + (c.toNat - '0'.toNat) := by
        rw [Nat.mul_comm, digitValue]
      rw [Nat.ofDigitChars_cons] at h
      have hstep := le_ofDigitChars rest (10 * start + (c.toNat - '0'.toNat))
      rw [absorb, hstart, if_pos (Nat.le_trans hstep h), ih _ h]
      rfl

theorem isDigit_toDigits {n : Nat} {c : Char} (h : c ∈ Nat.toDigits 10 n) : c.isDigit = true :=
  Nat.isDigit_of_mem_toDigits (by decide) (by decide) h

/-- The first digit of a number tells whether the number is zero. -/
theorem head_toDigits (n : Nat) :
    ∃ c rest, Nat.toDigits 10 n = c :: rest ∧ c.isDigit = true ∧ (c = '0' → n = 0) := by
  induction n using Nat.strongRecOn with
  | ind n ih =>
      rw [Nat.toDigits_eq_if (by decide)]
      split
      · rename_i hlt
        exact ⟨_, [], rfl, by rw [Nat.isDigit_digitChar, decide_eq_true hlt],
          Nat.digitChar_eq_zero.mp⟩
      · rename_i hle
        obtain ⟨c, rest, hdigits, hdigit, hzero⟩ := ih (n / 10) (by omega)
        refine ⟨c, rest ++ [Nat.digitChar (n % 10)], by rw [hdigits]; rfl, hdigit, ?_⟩
        intro hc
        have hquotient := hzero hc
        omega

/-- The digits of a number are taken as a whole. -/
theorem answer_wholeDigits (n : Nat) (atEnd : ReadError.Cause) (bound : Nat) {after : List Char}
    (hafter : Closed after) :
    (wholeDigits atEnd).answer bound (Nat.toDigits 10 n ++ after) =
      .ok (Nat.toDigits 10 n, after) := by
  have hall : ∀ c ∈ Nat.toDigits 10 n, c.isDigit = true := fun c => isDigit_toDigits
  obtain ⟨c, rest, hdigits, hdigit, hzero⟩ := head_toDigits n
  by_cases hc : c = '0'
  · rw [hzero hc, Nat.toDigits_zero]
    cases after with
    | nil => simp [wholeDigits, answer_ite]
    | cons d later => simp [wholeDigits, answer_ite, (hafter d rfl).1]
  · have htake := closed_takeWhile hall hafter
    have hdrop := closed_dropWhile hall hafter
    rw [hdigits, List.cons_append] at htake hdrop ⊢
    simp [wholeDigits, someDigits, digits, answer_ite, hc, hdigit, htake, hdrop]

theorem absorb_toDigits {n : Nat} (h : n ≤ greatestNatural) :
    absorb greatestNatural 0 (Nat.toDigits 10 n) = (n, (Nat.toDigits 10 n).length) := by
  have hvalue : Nat.ofDigitChars 10 (Nat.toDigits 10 n) 0 = n := Nat.ofDigitChars_ten_toDigits
  rw [absorb_eq _ _ (by rwa [hvalue]), hvalue]

/-- Nothing behind a whole number makes it a fraction or gives it an exponent. -/
theorem Closed.head?_ne {after : List Char} (h : Closed after) :
    after.head? ≠ some '.' ∧ after.head? ≠ some 'e' ∧ after.head? ≠ some 'E' := by
  cases after with
  | nil => simp
  | cons c rest =>
      obtain ⟨_, hpoint, he, hE⟩ := h c rfl
      simp [hpoint, he, hE]

theorem answer_number_natural {n : Nat} (h : n ≤ greatestNatural) (bound : Nat)
    {after : List Char} (hafter : Closed after) :
    (number false).answer bound (Nat.toDigits 10 n ++ after) = .ok (.whole n, after) := by
  have hdigits := answer_wholeDigits n (.truncated .value) bound hafter
  obtain ⟨hpoint, he, hE⟩ := hafter.head?_ne
  simp [number, hdigits, absorb_toDigits h]

theorem answer_number_negative {n : Nat} (hpos : n ≠ 0) (h : n ≤ Nat.pow 2 63) (bound : Nat)
    {after : List Char} (hafter : Closed after) :
    (number true).answer bound (Nat.toDigits 10 n ++ after) = .ok (.whole (-n), after) := by
  have hdigits := answer_wholeDigits n (.truncated .value) bound hafter
  have habsorb := absorb_toDigits (Nat.le_trans h (by decide))
  have hrange : ¬Nat.pow 2 63 < n := Nat.not_lt.mpr h
  obtain ⟨hpoint, he, hE⟩ := hafter.head?_ne
  simp [number, hdigits, habsorb, hpos, hrange]

theorem head_toDigits_ne_sign {n : Nat} {c : Char} {rest : List Char}
    (h : Nat.toDigits 10 n = c :: rest) : c ≠ '-' := by
  rintro rfl
  have hdigit : '-'.isDigit = true := isDigit_toDigits (n := n) (by rw [h]; simp)
  cases hdigit

/-- A whole number of 64 bits is read back from its text. -/
theorem answer_signedNumber {n : Int} (hlow : -(Nat.pow 2 63 : Int) ≤ n)
    (hhigh : n ≤ greatestNatural) (bound : Nat) {after : List Char} (hafter : Closed after) :
    signedNumber.answer bound (Number.digits n ++ after) = .ok (.whole n, after) := by
  cases n with
  | ofNat n =>
      have hnumber := answer_number_natural (Int.ofNat_le.mp hhigh) bound hafter
      obtain ⟨c, rest, hdigits, _⟩ := head_toDigits n
      have hsign : c ≠ '-' := head_toDigits_ne_sign hdigits
      rw [hdigits, List.cons_append] at hnumber
      simp [signedNumber, Number.digits, answer_ite, hdigits, hsign, hnumber]
  | negSucc n =>
      have hn : n + 1 ≤ Nat.pow 2 63 := by omega
      have hnumber := answer_number_negative (Nat.succ_ne_zero n) hn bound hafter
      simp [signedNumber, Number.digits, answer_ite, hnumber, Int.negSucc_eq]

/-- A number that is passed over is passed over to its end. -/
theorem answer_skipNumber (n : Int) (bound : Nat) {after : List Char} (hafter : Closed after) :
    skipNumber.answer bound (Number.digits n ++ after) = .ok ((), after) := by
  have hdigits := fun k => answer_wholeDigits k (.malformed .invalidNumber) bound hafter
  obtain ⟨hpoint, he, hE⟩ := hafter.head?_ne
  cases n with
  | ofNat n =>
      have hwhole := hdigits n
      obtain ⟨c, rest, hn, _⟩ := head_toDigits n
      have hsign : c ≠ '-' := head_toDigits_ne_sign hn
      rw [hn, List.cons_append] at hwhole
      simp [skipNumber, Number.digits, answer_ite, hn, hsign, hwhole, hpoint, he, hE]
  | negSucc n => simp [skipNumber, Number.digits, answer_ite, hdigits, hpoint, he, hE]

end ComponentLowering.Json.Reader
