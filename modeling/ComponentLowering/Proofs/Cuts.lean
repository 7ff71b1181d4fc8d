import ComponentLowering.Proofs.Records
import Mathlib.Data.List.TakeWhile
/-!
Readers on texts that break off. A text may be cut behind any of its characters (`Cut`), and then
its reader has to ask for more: `Breaks` says that it does, and never finds a fault in what it is
given. Only a number may end where the text ends, so that a reader of a number may take its front
for all of it; what encloses the number asks for more all the same.
-/

namespace ComponentLowering.Json.Reader

variable {α β σ : Type}

/-! ### Fronts of a text -/

/-- `Cut front text`: the text starts with this front and goes on. -/
def Cut (front text : List Char) : Prop :=
  ∃ behind, behind ≠ [] ∧ front ++ behind = text

theorem not_cut_nil {front : List Char} : ¬Cut front [] := by
  rintro ⟨behind, hbehind, h⟩
  exact hbehind (List.append_eq_nil_iff.mp h).2

theorem cut_nil_cons (c : Char) (text : List Char) : Cut [] (c :: text) :=
  ⟨c :: text, List.cons_ne_nil c text, rfl⟩

theorem Cut.cons {front text : List Char} (c : Char) (h : Cut front text) :
    Cut (c :: front) (c :: text) := by
  obtain ⟨behind, hbehind, rfl⟩ := h
  exact ⟨behind, hbehind, rfl⟩

theorem Cut.cons_cases {front text : List Char} {c : Char} (h : Cut front (c :: text)) :
    front = [] ∨ ∃ later, front = c :: later ∧ Cut later text := by
  obtain ⟨behind, hbehind, htext⟩ := h
  cases front with
  | nil => exact .inl rfl
  | cons d later =>
      obtain ⟨rfl, rfl⟩ := List.cons.inj htext
      exact .inr ⟨later, rfl, behind, hbehind, rfl⟩

theorem Cut.append_cases {front text more : List Char} (h : Cut front (text ++ more)) :
    Cut front text ∨ ∃ later, front = text ++ later ∧ Cut later more := by
  induction text generalizing front with
  | nil => exact .inr ⟨front, rfl, h⟩
  | cons c text ih =>
      rcases h.cons_cases with rfl | ⟨later, rfl, hlater⟩
      · exact .inl (cut_nil_cons c text)
      · rcases ih hlater with hcut | ⟨rest, rfl, hrest⟩
        · exact .inl (hcut.cons c)
        · exact .inr ⟨rest, rfl, hrest⟩

theorem Cut.blank {front text : List Char} (h : Cut front text) (htext : Blank text) :
    Blank front := by
  obtain ⟨behind, _, rfl⟩ := h
  intro c hc
  exact htext c (List.mem_append_left behind hc)

theorem Cut.closed {front text : List Char} (h : Cut front text) (htext : Closed text) :
    Closed front := by
  obtain ⟨behind, _, rfl⟩ := h
  cases front with
  | nil => exact closed_nil
  | cons c later => exact closed_cons (htext c rfl) later

/-! ### Readers that ask for more -/

/-- The answer of a reader that came to the end of its text: it asks for more or, if a value may
end there (`ends`), takes all that there is for the value. -/
inductive Short (ends : Bool) : Except ReadError.Cause (α × List Char) → Prop
  | truncated (unfinished : Unfinished) : Short ends (.error (.truncated unfinished))
  | ended (h : ends = true) (a : α) : Short ends (.ok (a, []))

/-- A reader that answers in this way to a text wherever it is cut. -/
def Breaks (ends : Bool) (reader : Reader α) (text : List Char) : Prop :=
  ∀ (bound : Nat) (front : List Char),
    Cut front text → front.length < bound → Short ends (reader.answer bound front)

/-- A reader that answers in this way where there is no text. -/
def Waits (ends : Bool) (reader : Reader α) : Prop :=
  ∀ bound : Nat, Short ends (reader.answer bound [])

variable {ends ends' : Bool} {reader : Reader α} {next : α → Reader β} {text more : List Char}

theorem Short.bind {bound : Nat} (h : Short ends' (reader.answer bound text))
    (hwait : ends' = true → ∀ a, Short ends ((next a).answer bound [])) :
    Short ends ((reader >>= next).answer bound text) := by
  rw [answer_bind]
  generalize reader.answer bound text = answer at h
  cases h with
  | truncated unfinished => exact .truncated unfinished
  | ended hends a => exact hwait hends a

theorem Breaks.of_false (h : Breaks false reader text) : Breaks ends reader text := by
  intro bound front hcut hbound
  have hshort := h bound front hcut hbound
  generalize reader.answer bound front = answer at hshort
  cases hshort with
  | truncated unfinished => exact .truncated unfinished
  | ended hends _ => cases hends

/-- What goes on behind a reader that always asks for more has no part in it. -/
theorem Breaks.bind_of_false (h : Breaks false reader text) : Breaks ends (reader >>= next) text :=
  fun bound front hcut hbound => (h bound front hcut hbound).bind fun hends =>
    Bool.noConfusion hends

theorem Breaks.map (h : Breaks ends reader text) (f : α → β) :
    Breaks ends (reader >>= fun a => pure (f a)) text := by
  intro bound front hcut hbound
  apply (h bound front hcut hbound).bind
  intro hends a
  exact .ended hends (f a)

/-- A text of two parts breaks where its parts break. -/
theorem Breaks.bind {a : α} (h : Breaks ends' reader text)
    (hread : ∀ (bound : Nat) (later : List Char), Cut later more →
      (text ++ later).length < bound → reader.answer bound (text ++ later) = .ok (a, later))
    (hnext : Breaks ends (next a) more) (hwait : ∀ a, Waits ends (next a)) :
    Breaks ends (reader >>= next) (text ++ more) := by
  intro bound front hcut hbound
  rcases hcut.append_cases with hcut | ⟨later, rfl, hlater⟩
  · exact (h bound front hcut hbound).bind fun _ a => hwait a bound
  · rw [answer_bind, hread bound later hlater hbound, ok_bind]
    apply hnext bound later hlater
    rw [List.length_append] at hbound
    omega

/-! ### Looking ahead -/

theorem answer_ahead_blank (unfinished : Unfinished) (bound : Nat) (h : Blank text) :
    (ahead unfinished).answer bound text = .error (.truncated unfinished) := by
  rw [ahead, answer_bind, answer_skipBlanks, List.dropWhile_eq_nil_iff.mpr h]
  rfl

/-- A reader that looks ahead asks for more in front of the first character and, behind it, as the
reader does that goes on. -/
theorem breaks_ahead {unfinished : Unfinished} {next : Char → Reader β} {blanks : List Char}
    {c : Char} (hblanks : Blank blanks) (hc : isBlank c = false)
    (h : ∀ (bound : Nat) (later : List Char), Cut later text → later.length + 1 < bound →
      Short ends ((next c).answer bound (c :: later))) :
    Breaks ends (ahead unfinished >>= next) (blanks ++ c :: text) := by
  intro bound front hcut hbound
  rw [answer_bind]
  rcases hcut.append_cases with hcut | ⟨later, rfl, hlater⟩
  · rw [answer_ahead_blank unfinished bound (hcut.blank hblanks)]
    exact .truncated unfinished
  · rcases hlater.cons_cases with rfl | ⟨rest, rfl, hrest⟩
    · rw [List.append_nil, answer_ahead_blank unfinished bound hblanks]
      exact .truncated unfinished
    · rw [answer_ahead unfinished bound hblanks hc, ok_bind]
      apply h bound rest hrest
      rw [List.length_append, List.length_cons] at hbound
      omega

theorem breaks_colon {next : Unit → Reader β} (h : Breaks ends (next ()) text) :
    Breaks ends (colon >>= next) (':' :: text) := by
  intro bound front hcut hbound
  rcases hcut.cons_cases with rfl | ⟨later, rfl, hlater⟩
  · exact .truncated .object
  · rw [answer_bind, answer_colon, ok_bind]
    exact h bound later hlater (Nat.lt_of_succ_lt hbound)

theorem breaks_word (letters : List Char) : Breaks false (word letters) letters := by
  induction letters with
  | nil => exact fun _ _ hcut => absurd hcut not_cut_nil
  | cons c rest ih =>
      intro bound front hcut hbound
      rcases hcut.cons_cases with rfl | ⟨later, rfl, hlater⟩
      · exact .truncated .value
      · have hword : (word (c :: rest)).answer bound (c :: later) =
            (word rest).answer bound later := by
          simp [word, answer_ite]
        rw [hword]
        exact ih bound later hlater (Nat.lt_of_succ_lt hbound)

/-! ### Strings and numbers -/

theorem byteSize_control : ∀ k < 32,
    byteSize ['0', '0', Nat.digitChar (k / 16)] < 4 := by
  decide

/-- An escape by number that breaks off has fewer than four digits. -/
theorem breaks_hexEscape {k : Nat} (h : k < 32) :
    Breaks false hexEscape ['0', '0', Nat.digitChar (k / 16), Nat.digitChar (k % 16)] := by
  intro bound front hcut _
  have hsize : byteSize (front.take 4) < 4 := by
    rcases hcut.cons_cases with rfl | ⟨_, rfl, hcut₁⟩
    · decide
    rcases hcut₁.cons_cases with rfl | ⟨_, rfl, hcut₂⟩
    · decide
    rcases hcut₂.cons_cases with rfl | ⟨_, rfl, hcut₃⟩
    · decide
    rcases hcut₃.cons_cases with rfl | ⟨_, rfl, hcut₄⟩
    · exact byteSize_control k h
    · exact absurd hcut₄ not_cut_nil
  have hanswer : hexEscape.answer bound front = .error (.truncated .string) := by
    simp [hexEscape, answer_ite, hsize]
  rw [hanswer]
  exact .truncated .string

/-- A character is written as it is, behind a backslash, or by its number. -/
theorem escape_cases (c : Char) :
    Json.escape c = [c] ∨ (∃ letter, Json.escape c = ['\\', letter]) ∨
      ∃ k < 32, Json.escape c =
        '\\' :: 'u' :: ['0', '0', Nat.digitChar (k / 16), Nat.digitChar (k % 16)] := by
  unfold Json.escape
  split_ifs with h1 h2 h3 h4 h5 h6 h7 hcontrol
  case pos | pos | pos | pos | pos | pos | pos => exact .inr (.inl ⟨_, rfl⟩)
  · exact .inr (.inr ⟨c.toNat, hcontrol, rfl⟩)
  · exact .inl rfl

theorem breaks_characters_escape (before : List Char) (c : Char) (n : Nat) :
    Breaks false (characters before n) (Json.escape c) := by
  cases n with
  | zero => exact fun _ _ _ _ => .truncated .string
  | succ n =>
      intro bound front hcut hbound
      rcases escape_cases c with hc | ⟨letter, hc⟩ | ⟨k, hk, hc⟩
      · rw [hc] at hcut
        rcases hcut.cons_cases with rfl | ⟨_, rfl, hlater⟩
        · exact .truncated .string
        · exact absurd hlater not_cut_nil
      · rw [hc] at hcut
        rcases hcut.cons_cases with rfl | ⟨_, rfl, hletter⟩
        · exact .truncated .string
        rcases hletter.cons_cases with rfl | ⟨_, rfl, hend⟩
        · exact .truncated .string
        · exact absurd hend not_cut_nil
      · rw [hc] at hcut
        rcases hcut.cons_cases with rfl | ⟨_, rfl, hletter⟩
        · exact .truncated .string
        rcases hletter.cons_cases with rfl | ⟨digits, rfl, hdigits⟩
        · exact .truncated .string
        · have hnumbered : Breaks false numberedEscape
              ['0', '0', Nat.digitChar (k / 16), Nat.digitChar (k % 16)] :=
            (breaks_hexEscape hk).bind_of_false
          have hescape : (characters before (n + 1)).answer bound ('\\' :: 'u' :: digits) =
              (numberedEscape >>= fun read => characters (read :: before) n).answer bound
                digits := by
            simp [characters, escape, answer_ite]
          rw [hescape]
          apply hnumbered.bind_of_false bound digits hdigits
          simp only [List.length_cons] at hbound
          omega

/-- The rest of a string has to go on up to its closing quote. -/
theorem breaks_characters (written before : List Char) (n : Nat) :
    Breaks false (characters before n) (written.flatMap Json.escape ++ ['"']) := by
  induction written generalizing before n with
  | nil =>
      intro bound front hcut _
      rcases hcut.cons_cases with rfl | ⟨_, rfl, hend⟩
      · cases n <;> exact .truncated .string
      · exact absurd hend not_cut_nil
  | cons c rest ih =>
      rw [List.flatMap_cons, List.append_assoc]
      intro bound front hcut hbound
      rcases hcut.append_cases with hcut | ⟨later, rfl, hlater⟩
      · exact breaks_characters_escape before c n bound front hcut hbound
      · cases n with
        | zero => exact .truncated .string
        | succ n =>
            rw [answer_characters_escape]
            apply ih (c :: before) n bound later hlater
            rw [List.length_append] at hbound
            omega

theorem breaks_restOfString (s : String) :
    Breaks false restOfString (s.toList.flatMap Json.escape ++ ['"']) :=
  fun bound => breaks_characters s.toList [] bound bound

theorem breaks_restOfString_bind {next : String → Reader β} (s : String)
    (h : Breaks ends (next s) text) :
    Breaks ends (restOfString >>= next) (s.toList.flatMap Json.escape ++ '"' :: text) := by
  rw [List.append_cons]
  intro bound front hcut hbound
  rcases hcut.append_cases with hcut | ⟨later, rfl, hlater⟩
  · exact (breaks_restOfString s).bind_of_false bound front hcut hbound
  · rw [← List.append_cons] at hbound ⊢
    rw [answer_bind, answer_restOfString s bound later hbound, ok_bind]
    apply h bound later hlater
    rw [List.length_append, List.length_cons] at hbound
    omega

/-- The front of a number is a number itself, or nothing. -/
theorem cut_toDigits {n : Nat} {front : List Char} (h : Cut front (Nat.toDigits 10 n)) :
    front = [] ∨ ∃ m ≤ n, front = Nat.toDigits 10 m := by
  induction n using Nat.strongRecOn with
  | ind n ih =>
      rw [Nat.toDigits_eq_if (by decide)] at h
      split at h
      · rcases h.cons_cases with rfl | ⟨_, rfl, hend⟩
        · exact .inl rfl
        · exact absurd hend not_cut_nil
      · rcases h.append_cases with hfront | ⟨later, rfl, hlater⟩
        · rcases ih (n / 10) (by omega) hfront with rfl | ⟨m, hm, rfl⟩
          · exact .inl rfl
          · exact .inr ⟨m, by omega, rfl⟩
        · rcases hlater.cons_cases with rfl | ⟨_, rfl, hend⟩
          · exact .inr ⟨n / 10, by omega, by rw [List.append_nil]⟩
          · exact absurd hend not_cut_nil

/-- The front of a natural number is read as a natural number. -/
theorem answer_signedNumber_front {n : Nat} (h : n ≤ greatestNatural) (bound : Nat)
    {front : List Char} (hcut : Cut front (Nat.toDigits 10 n)) :
    signedNumber.answer bound front = .error (.truncated .value) ∨
      ∃ m : Nat, signedNumber.answer bound front = .ok (.whole m, []) := by
  rcases cut_toDigits hcut with rfl | ⟨m, hm, rfl⟩
  · exact .inl rfl
  · have hlow : -(Nat.pow 2 63 : Int) ≤ Int.ofNat m :=
      Int.le_trans (by decide) (Int.natCast_nonneg m)
    have hhigh : Int.ofNat m ≤ greatestNatural := Int.ofNat_le.mpr (Nat.le_trans hm h)
    have hread := answer_signedNumber hlow hhigh bound closed_nil
    rw [List.append_nil] at hread
    exact .inr ⟨m, hread⟩

theorem exists_answer_number_negative {n : Nat} (h : n ≤ greatestNatural) (bound : Nat) :
    ∃ number, (Reader.number true).answer bound (Nat.toDigits 10 n) = .ok (number, []) := by
  have hdigits := answer_wholeDigits n (.truncated .value) bound closed_nil
  rw [List.append_nil] at hdigits
  by_cases hn : n = 0 ∨ Nat.pow 2 63 < n
  · exact ⟨_, by simp [Reader.number, hdigits, absorb_toDigits h, hn]; rfl⟩
  · exact ⟨_, by simp [Reader.number, hdigits, absorb_toDigits h, hn]; rfl⟩

theorem breaks_signedNumber {n : Int} (hlow : -(Nat.pow 2 63 : Int) ≤ n)
    (hhigh : n ≤ greatestNatural) : Breaks true signedNumber (Number.digits n) := by
  intro bound front hcut _
  cases n with
  | ofNat n =>
      rcases answer_signedNumber_front (Int.ofNat_le.mp hhigh) bound hcut with hread | ⟨m, hread⟩
      · rw [hread]
        exact .truncated .value
      · rw [hread]
        exact .ended rfl _
  | negSucc n =>
      rcases hcut.cons_cases with rfl | ⟨later, rfl, hlater⟩
      · exact .truncated .value
      · have hsign : signedNumber.answer bound ('-' :: later) =
            (Reader.number true).answer bound later := by
          simp [signedNumber, answer_ite]
        rw [hsign]
        rcases cut_toDigits hlater with rfl | ⟨m, hm, rfl⟩
        · exact .truncated .value
        · have hgreatest : Nat.pow 2 63 ≤ greatestNatural := by decide
          have hsmall : m ≤ greatestNatural := by omega
          obtain ⟨number, hread⟩ := exists_answer_number_negative hsmall bound
          rw [hread]
          exact .ended rfl number

end ComponentLowering.Json.Reader
