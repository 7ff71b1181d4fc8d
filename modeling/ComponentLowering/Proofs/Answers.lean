import ComponentLowering.Json.Skip
import Mathlib.Control.Monad.Basic
/-!
What readers make of a text. `Reader.answer` keeps the value and the rest of the text, or the cause
for which a reader stopped, and forgets the place. Answers of a composed reader are composed of
answers (`answer_bind`), so that every reader has an equation from which its proofs start.
-/

namespace ComponentLowering

@[simp] theorem pure_eq_ok {ε α : Type} (a : α) : (pure a : Except ε α) = .ok a := rfl

@[simp] theorem ok_bind {ε α β : Type} (a : α) (next : α → Except ε β) :
    (Except.ok a >>= next) = next a := rfl

@[simp] theorem error_bind {ε α β : Type} (error : ε) (next : α → Except ε β) :
    (Except.error error >>= next) = Except.error error := rfl

@[simp] theorem bind_ok {ε α : Type} (result : Except ε α) :
    (result >>= fun a => .ok a) = result :=
  bind_pure result

@[simp] theorem bind_ok_comp {ε α β : Type} (f : α → β) (result : Except ε α) :
    (result >>= fun a => .ok (f a)) = f <$> result :=
  bind_pure_comp f result

theorem bind_eq_ok {ε α β : Type} {result : Except ε α} {next : α → Except ε β} {b : β} :
    (result >>= next) = .ok b ↔ ∃ a, result = .ok a ∧ next a = .ok b := by
  cases result with
  | error error => simp
  | ok a => simp

theorem map_eq_ok {ε α β : Type} {f : α → β} {result : Except ε α} {b : β} :
    f <$> result = .ok b ↔ ∃ a, result = .ok a ∧ f a = b := by
  cases result with
  | error error => simp
  | ok a => simp

/-- A loop that fails does so at one of its items, those before it having gone well. -/
theorem foldlM_eq_error_iff {ε α σ : Type} {step : σ → α → Except ε σ} {start : σ}
    {items : List α} {error : ε} :
    items.foldlM step start = .error error ↔
      ∃ before item after middle, items = before ++ item :: after ∧
        before.foldlM step start = .ok middle ∧ step middle item = .error error := by
  constructor
  · intro h
    induction items generalizing start with
    | nil => cases h
    | cons first rest ih =>
        rw [List.foldlM_cons] at h
        cases hfirst : step start first with
        | error _ =>
            rw [hfirst] at h
            cases h
            exact ⟨[], first, rest, start, rfl, rfl, hfirst⟩
        | ok next =>
            rw [hfirst] at h
            obtain ⟨before, item, after, middle, rfl, hbefore, hitem⟩ := ih h
            refine ⟨first :: before, item, after, middle, rfl, ?_, hitem⟩
            rw [List.foldlM_cons, hfirst, ok_bind, hbefore]
  · rintro ⟨before, item, after, middle, rfl, hbefore, hitem⟩
    rw [List.foldlM_append, hbefore, ok_bind, List.foldlM_cons, hitem]
    rfl

namespace Json.Reader

variable {α β : Type}

/-- The value that a reader takes off a text and the text behind it, or the cause of its error. -/
def answer (reader : Reader α) (bound : Nat) (text : List Char) :
    Except ReadError.Cause (α × List Char) :=
  ((reader bound).run text).mapError Stop.cause

section

variable (bound : Nat) (text : List Char)

@[simp] theorem answer_bind (reader : Reader α) (next : α → Reader β) :
    (reader >>= next).answer bound text =
      reader.answer bound text >>= fun (a, rest) => (next a).answer bound rest := by
  simp only [answer, bind, ReaderT.bind, StateT.bind, StateT.run]
  cases reader bound text with
  | ok found => rfl
  | error stop => rfl

@[simp] theorem answer_map (f : α → β) (reader : Reader α) :
    (f <$> reader).answer bound text =
      (fun (a, rest) => (f a, rest)) <$> reader.answer bound text := by
  rw [map_eq_pure_bind, answer_bind]
  cases reader.answer bound text <;> rfl

@[simp] theorem answer_pure (a : α) : answer (pure a) bound text = .ok (a, text) := rfl

@[simp] theorem answer_read : answer read bound text = .ok (bound, text) := rfl

@[simp] theorem answer_get : answer get bound text = .ok (text, text) := rfl

@[simp] theorem answer_set (rest : List Char) : answer (set rest) bound text = .ok ((), rest) := rfl

@[simp] theorem answer_stop (cause : ReadError.Cause) (seen : Nat) :
    (stop cause seen : Reader α).answer bound text = .error cause := rfl

@[simp] theorem answer_malformed (flaw : Flaw) :
    (malformed flaw : Reader α).answer bound text = .error (.malformed flaw) := rfl

@[simp] theorem answer_reject (fault : Fault) :
    (reject fault : Reader α).answer bound text = .error (.unsuitable fault) := rfl

@[simp] theorem answer_peek? : peek?.answer bound text = .ok (text.head?, text) := rfl

@[simp] theorem answer_drop : drop.answer bound text = .ok ((), text.tail) := rfl

@[simp] theorem answer_skipBlanks :
    skipBlanks.answer bound text = .ok ((), text.dropWhile isBlank) := rfl

@[simp] theorem answer_peek (unfinished : Unfinished) (c : Char) :
    (peek unfinished).answer bound (c :: text) = .ok (c, c :: text) := rfl

theorem answer_ite (condition : Prop) [Decidable condition] (reader reader' : Reader α) :
    (if condition then reader else reader').answer bound text =
      if condition then reader.answer bound text else reader'.answer bound text := by
  split <;> rfl

end

/-! ### Blanks and what stands behind a value -/

def Blank (blanks : List Char) : Prop :=
  ∀ c ∈ blanks, isBlank c = true

theorem blank_nil : Blank [] := by
  intro c h
  cases h

theorem dropWhile_blank {blanks : List Char} (h : Blank blanks) (text : List Char) :
    (blanks ++ text).dropWhile isBlank = text.dropWhile isBlank :=
  List.dropWhile_append_of_pos h

/-- Readers that look ahead find the first character behind blanks. -/
theorem answer_ahead (unfinished : Unfinished) (bound : Nat) {blanks : List Char}
    (h : Blank blanks) {c : Char} (hc : isBlank c = false) (text : List Char) :
    (ahead unfinished).answer bound (blanks ++ c :: text) = .ok (c, c :: text) := by
  have hdrop : (blanks ++ c :: text).dropWhile isBlank = c :: text := by
    rw [dropWhile_blank h, List.dropWhile_cons_of_neg (by rw [hc]; exact Bool.false_ne_true)]
  rw [ahead, answer_bind, answer_skipBlanks, hdrop]
  rfl

@[simp] theorem answer_ahead_cons (unfinished : Unfinished) (bound : Nat) {c : Char}
    (hc : isBlank c = false) (text : List Char) :
    (ahead unfinished).answer bound (c :: text) = .ok (c, c :: text) :=
  answer_ahead unfinished bound blank_nil hc text

/-- A text behind a value: no number would go on with it. -/
def Closed (after : List Char) : Prop :=
  ∀ c ∈ after.head?, c.isDigit = false ∧ c ≠ '.' ∧ c ≠ 'e' ∧ c ≠ 'E'

theorem closed_nil : Closed [] := by
  intro c h
  cases h

theorem closed_cons {c : Char} (h : c.isDigit = false ∧ c ≠ '.' ∧ c ≠ 'e' ∧ c ≠ 'E')
    (rest : List Char) : Closed (c :: rest) := by
  intro d hd
  cases hd
  exact h

theorem closed_of_blank {c : Char} (h : isBlank c = true) :
    c.isDigit = false ∧ c ≠ '.' ∧ c ≠ 'e' ∧ c ≠ 'E' := by
  simp only [isBlank, Bool.or_eq_true, decide_eq_true_eq] at h
  rcases h with ((rfl | rfl) | rfl) | rfl <;> decide

theorem closed_append {blanks after : List Char} (h : Blank blanks) (hafter : Closed after) :
    Closed (blanks ++ after) := by
  cases blanks with
  | nil => exact hafter
  | cons c rest => exact closed_cons (closed_of_blank (h c (by simp))) _

end Json.Reader
end ComponentLowering
