import ComponentLowering.Inputs
import ComponentLowering.Proofs.Answers
import Mathlib.Data.List.Induction
/-!
The documents of a list of patterns. A step takes the matches of one pattern, adds those that are
new and refuses the pattern if there are none (`expandOne_of_ok`). A run adds all matches, one list
behind the other (`foldlM_expandOne`), so that the documents are those that some pattern matches
(`any_expand`), in the order in which they first come (`Firsts.foldl_add`). The pattern that a run
refuses is one whose matches the patterns before it gave already (`expandOne_eq_noMatch`).
-/

namespace ComponentLowering

namespace FileName

theorem same_refl (name : FileName) : name.same name = true :=
  same_iff.mpr rfl

theorem same_comm (a b : FileName) : a.same b = b.same a := by
  rw [same, same]
  exact decide_eq_decide.mpr eq_comm

/-- Names of one document are told apart from other names alike. -/
theorem same_congr {a b : FileName} (h : a.same b = true) (name : FileName) :
    a.same name = b.same name := by
  rw [same, same, same_iff.mp h]

end FileName

namespace Inputs

/-! ### Adding documents -/

theorem any_of_mem {inputs : List FileName} {name : FileName} (h : name ∈ inputs) :
    inputs.any (·.same name) = true :=
  List.any_eq_true.mpr ⟨name, h, name.same_refl⟩

/-- No two inputs are the same document. -/
def Distinct (inputs : List FileName) : Prop :=
  inputs.Pairwise fun a b => a.same b = false

theorem distinct_add {inputs : List FileName} (h : Distinct inputs) (name : FileName) :
    Distinct (add inputs name) := by
  unfold add
  split
  · exact h
  · rename_i hnew
    refine List.pairwise_append.mpr ⟨h, List.pairwise_singleton _ _, ?_⟩
    intro input hinput other hother
    obtain rfl := List.mem_singleton.mp hother
    refine Bool.eq_false_iff.mpr ?_
    intro hsame
    exact hnew (List.any_eq_true.mpr ⟨input, hinput, hsame⟩)

theorem distinct_foldl_add {inputs : List FileName} (h : Distinct inputs)
    (names : List FileName) : Distinct (names.foldl add inputs) := by
  induction names generalizing inputs with
  | nil => exact h
  | cons name rest ih => exact ih (distinct_add h name)

theorem foldl_add_eq (inputs names : List FileName) :
    names.foldl add inputs =
      inputs ++ (names.filter fun name => !inputs.any (·.same name)).eraseDupsBy FileName.same := by
  induction names generalizing inputs with
  | nil => exact (List.append_nil inputs).symm
  | cons name rest ih =>
      rw [List.foldl_cons, ih, add]
      by_cases hold : inputs.any (·.same name) = true
      · rw [if_pos hold, List.filter_cons_of_neg (by simp [hold])]
      · rw [if_neg hold, List.filter_cons_of_pos (by simp [hold]), List.eraseDupsBy_cons,
          List.filter_filter, List.append_assoc, List.singleton_append]
        congr 3
        apply List.filter_congr
        intro other _
        rw [List.any_append, Bool.not_or, Bool.and_comm, other.same_comm name]
        simp

theorem any_add (inputs : List FileName) (added name : FileName) :
    (add inputs added).any (·.same name) = (inputs.any (·.same name) || added.same name) := by
  rw [add]
  split
  · rename_i hold
    obtain ⟨input, hinput, hsame⟩ := List.any_eq_true.mp hold
    cases hname : added.same name with
    | false => rw [Bool.or_false]
    | true =>
        rw [Bool.or_true, List.any_eq_true]
        exact ⟨input, hinput, by rw [FileName.same_congr hsame, hname]⟩
  · rw [List.any_append, List.any_cons, List.any_nil, Bool.or_false]

theorem any_foldl_add (inputs names : List FileName) (name : FileName) :
    (names.foldl add inputs).any (·.same name) =
      (inputs.any (·.same name) || names.any (·.same name)) := by
  induction names generalizing inputs with
  | nil => rw [List.any_nil, Bool.or_false]; rfl
  | cons added rest ih => rw [List.foldl_cons, ih, any_add, List.any_cons, Bool.or_assoc]

/-! ### Names that come first -/

/-- The documents that some names are of, each under its first name, in the order of the first
names. -/
structure Firsts (names inputs : List FileName) : Prop where
  named : ∀ input ∈ inputs, names.find? (·.same input) = some input
  ordered : inputs.Pairwise fun a b => names.findIdx (·.same a) < names.findIdx (·.same b)
  complete : ∀ name ∈ names, inputs.any (·.same name) = true

namespace Firsts

section

variable {names inputs : List FileName}

/-- Names behind others do not change where a document first comes. -/
theorem findIdx_append (h : Firsts names inputs) (more : List FileName) {input : FileName}
    (hinput : input ∈ inputs) :
    (names ++ more).findIdx (·.same input) = names.findIdx (·.same input) ∧
      names.findIdx (·.same input) < names.length := by
  have hlt : names.findIdx (·.same input) < names.length :=
    List.findIdx_lt_length.mpr
      ⟨input, List.mem_of_find?_eq_some (h.named input hinput), input.same_refl⟩
  exact ⟨by rw [List.findIdx_append, if_pos hlt], hlt⟩

theorem named_append (h : Firsts names inputs) (more : List FileName) :
    ∀ input ∈ inputs, (names ++ more).find? (·.same input) = some input := by
  intro input hinput
  rw [List.find?_append, h.named input hinput, Option.some_or]

theorem ordered_append (h : Firsts names inputs) (more : List FileName) :
    inputs.Pairwise fun a b =>
      (names ++ more).findIdx (·.same a) < (names ++ more).findIdx (·.same b) := by
  refine h.ordered.imp_of_mem fun {a b} ha hb hlt => ?_
  rwa [(h.findIdx_append more ha).1, (h.findIdx_append more hb).1]

/-- A document that is not among the inputs has none of the names. -/
theorem same_eq_false (h : Firsts names inputs) {name : FileName}
    (hnew : inputs.any (·.same name) = false) : ∀ other ∈ names, other.same name = false := by
  intro other hother
  obtain ⟨input, hinput, hfirst⟩ := List.any_eq_true.mp (h.complete other hother)
  rw [← FileName.same_congr hfirst]
  exact Bool.eq_false_iff.mpr (List.any_eq_false.mp hnew input hinput)

theorem add_old (h : Firsts names inputs) {name : FileName}
    (hold : inputs.any (·.same name) = true) : Firsts (names ++ [name]) inputs where
  named := h.named_append [name]
  ordered := h.ordered_append [name]
  complete := by
    intro other hother
    rcases List.mem_append.mp hother with hname | hlast
    · exact h.complete other hname
    · rwa [List.mem_singleton.mp hlast]

theorem add_new (h : Firsts names inputs) {name : FileName}
    (hnew : inputs.any (·.same name) = false) :
    Firsts (names ++ [name]) (inputs ++ [name]) where
  named := by
    intro input hinput
    rcases List.mem_append.mp hinput with hold | hlast
    · exact h.named_append [name] input hold
    · obtain rfl := List.mem_singleton.mp hlast
      have hnone : names.find? (·.same input) = none :=
        List.find?_eq_none.mpr fun other hother =>
          Bool.eq_false_iff.mp (h.same_eq_false hnew other hother)
      rw [List.find?_append, hnone, Option.none_or, List.find?_singleton, if_pos input.same_refl]
  ordered := by
    refine List.pairwise_append.mpr ⟨h.ordered_append [name], List.pairwise_singleton .., ?_⟩
    intro input hinput other hlast
    obtain rfl := List.mem_singleton.mp hlast
    obtain ⟨hsame, hlt⟩ := h.findIdx_append [other] hinput
    rw [hsame, List.findIdx_append, List.findIdx_eq_length.mpr (h.same_eq_false hnew),
      if_neg (Nat.lt_irrefl _)]
    exact Nat.lt_of_lt_of_le hlt (Nat.le_add_left ..)
  complete := by
    intro other hother
    rw [List.any_append, Bool.or_eq_true]
    rcases List.mem_append.mp hother with hname | hlast
    · exact .inl (h.complete other hname)
    · rw [List.mem_singleton.mp hlast]
      exact .inr (any_of_mem (List.mem_singleton_self name))

theorem add (h : Firsts names inputs) (name : FileName) :
    Firsts (names ++ [name]) (Inputs.add inputs name) := by
  rw [Inputs.add]
  split
  case isTrue hold => exact h.add_old hold
  case isFalse hnew => exact h.add_new (Bool.eq_false_iff.mpr hnew)

end

theorem foldl_add (names : List FileName) : Firsts names (names.foldl Inputs.add []) := by
  induction names using List.reverseRecOn with
  | nil => exact ⟨nofun, .nil, nofun⟩
  | append_singleton names name ih =>
      rw [List.foldl_append]
      exact ih.add name

end Firsts

section

variable (matching : String → Except MatchError (List FileName))

/-- Some of the patterns match a document. -/
def Matched (patterns : List String) (document : FileName) : Prop :=
  ∃ pattern ∈ patterns, ∃ names, matching pattern = .ok names ∧
    ∃ name ∈ names, name.same document = true

/-- A pattern matches a document that none of the patterns before it matches. -/
def Adds (earlier : List String) (pattern : String) : Prop :=
  ∃ names, matching pattern = .ok names ∧ ∃ name ∈ names, ¬ Matched matching earlier name

end

section

variable {matching : String → Except MatchError (List FileName)} {inputs more : List FileName}
  {pattern : String} {patterns : List String}

/-! ### One pattern -/

theorem length_foldl_add_eq (inputs names : List FileName) :
    (names.foldl add inputs).length = inputs.length ↔
      (names.all fun name => inputs.any (·.same name)) = true := by
  rw [List.all_eq_true]
  constructor
  · intro hlength name hname
    rw [foldl_add_eq, List.length_append, Nat.add_eq_left, List.length_eq_zero_iff] at hlength
    have hany := any_foldl_add inputs names name
    rw [foldl_add_eq, hlength, List.append_nil] at hany
    rw [hany, Bool.or_eq_true]
    exact .inr (any_of_mem hname)
  · intro hold
    have hnone : (names.filter fun name => !inputs.any (·.same name)) = [] := by
      refine List.filter_eq_nil_iff.mpr fun name hname => ?_
      rw [hold name hname]
      exact Bool.false_ne_true
    rw [foldl_add_eq, hnone, List.eraseDupsBy_nil, List.append_nil]

/-- A pattern is refused if all its matches are there already, which they are if it has none. -/
theorem expandOne_of_ok {names : List FileName} (h : matching pattern = .ok names) :
    expandOne matching inputs pattern =
      if names.all fun name => inputs.any (·.same name) then .error (.noMatch pattern)
      else .ok (names.foldl add inputs) := by
  rw [expandOne, h]
  exact if_congr (length_foldl_add_eq inputs names) rfl rfl

theorem expandOne_eq_ok :
    expandOne matching inputs pattern = .ok more ↔
      ∃ names, matching pattern = .ok names ∧ names.foldl add inputs = more ∧
        ∃ name ∈ names, inputs.any (·.same name) = false := by
  cases h : matching pattern with
  | error error => simp [expandOne, h]
  | ok names =>
      rw [expandOne_of_ok h]
      split
      case isTrue hold =>
          refine ⟨nofun, ?_⟩
          rintro ⟨_, hnames, _, name, hname, hnew⟩
          cases hnames
          rw [List.all_eq_true.mp hold name hname] at hnew
          cases hnew
      case isFalse hnew =>
          constructor
          · intro hmore
            obtain ⟨name, hname, hnone⟩ := List.all_eq_false.mp (Bool.eq_false_iff.mpr hnew)
            exact ⟨names, rfl, Except.ok.inj hmore, name, hname, Bool.eq_false_iff.mpr hnone⟩
          · rintro ⟨_, hnames, hmore, _⟩
            cases hnames
            rw [hmore]

theorem expandOne_eq_noMatch {other : String} :
    expandOne matching inputs pattern = .error (.noMatch other) ↔
      pattern = other ∧ ∃ names, matching pattern = .ok names ∧
        ∀ name ∈ names, inputs.any (·.same name) = true := by
  cases h : matching pattern with
  | error error => cases error <;> simp [expandOne, h, MatchError.within]
  | ok names =>
      rw [expandOne_of_ok h]
      split
      case isTrue hold =>
          have hall := List.all_eq_true.mp hold
          constructor
          · rintro ⟨⟩
            exact ⟨rfl, names, rfl, hall⟩
          · rintro ⟨rfl, _⟩
            rfl
      case isFalse hnew =>
          refine ⟨nofun, ?_⟩
          rintro ⟨_, _, hnames, hold⟩
          cases hnames
          exact absurd (List.all_eq_true.mpr hold) hnew

/-! ### Patterns one after the other -/

theorem expand_append (earlier later : List String) :
    expand matching (earlier ++ later) =
      expand matching earlier >>= later.foldlM (expandOne matching) := by
  rw [expand, List.foldlM_append]
  rfl

/-- A run that succeeds adds what all patterns match, one list behind the other. -/
theorem foldlM_expandOne (h : patterns.foldlM (expandOne matching) inputs = .ok more) :
    ∃ lists, patterns.mapM matching = .ok lists ∧ lists.flatten.foldl add inputs = more := by
  induction patterns generalizing inputs with
  | nil => cases h; exact ⟨[], rfl, rfl⟩
  | cons pattern rest ih =>
      rw [List.foldlM_cons] at h
      obtain ⟨next, hone, hrest⟩ := bind_eq_ok.mp h
      obtain ⟨names, hnames, hadd, _⟩ := expandOne_eq_ok.mp hone
      obtain ⟨lists, hlists, hmore⟩ := ih hrest
      refine ⟨names :: lists, ?_, ?_⟩
      · rw [List.mapM_cons, hnames, hlists]
        rfl
      · rw [List.flatten_cons, List.foldl_append, hadd, hmore]

theorem distinct_expand (h : expand matching patterns = .ok inputs) : Distinct inputs := by
  obtain ⟨lists, _, rfl⟩ := foldlM_expandOne h
  exact distinct_foldl_add .nil lists.flatten

/-- The documents that a run comes to are those it started from and those that its patterns
match. -/
theorem any_foldlM_expandOne (h : patterns.foldlM (expandOne matching) inputs = .ok more)
    (document : FileName) :
    more.any (·.same document) = true ↔
      inputs.any (·.same document) = true ∨ Matched matching patterns document := by
  induction patterns generalizing inputs with
  | nil => cases h; simp [Matched]
  | cons pattern rest ih =>
      rw [List.foldlM_cons] at h
      obtain ⟨next, hone, hrest⟩ := bind_eq_ok.mp h
      obtain ⟨names, hnames, hadd, _⟩ := expandOne_eq_ok.mp hone
      rw [ih hrest, ← hadd, any_foldl_add, Bool.or_eq_true, List.any_eq_true (l := names), or_assoc]
      simp [Matched, hnames]

theorem any_expand (h : expand matching patterns = .ok inputs) (document : FileName) :
    inputs.any (·.same document) = true ↔ Matched matching patterns document := by
  rw [any_foldlM_expandOne h]
  simp

/-- The documents of more patterns stand behind those of fewer. -/
theorem exists_expand_append {earlier later : List String}
    (h : expand matching (earlier ++ later) = .ok inputs) :
    ∃ front back, inputs = front ++ back ∧ expand matching earlier = .ok front ∧
      ∀ document ∈ back, ¬ Matched matching earlier document := by
  have hdistinct := distinct_expand h
  rw [expand_append] at h
  obtain ⟨front, hfront, hlater⟩ := bind_eq_ok.mp h
  obtain ⟨lists, _, hadd⟩ := foldlM_expandOne hlater
  rw [foldl_add_eq] at hadd
  refine ⟨front, _, hadd.symm, hfront, ?_⟩
  intro document hdocument hmatched
  obtain ⟨input, hinput, hsame⟩ := List.any_eq_true.mp ((any_expand hfront document).mpr hmatched)
  rw [← hadd] at hdistinct
  rw [(List.pairwise_append.mp hdistinct).2.2 input hinput document hdocument] at hsame
  cases hsame

/-- The documents that patterns expand to are all different, are just those that some pattern
matches, and stand in the order in which they first come among the matches. So those of the earlier
patterns come before those that only a later one matches, and more patterns put more behind them. -/
theorem expand_in_order (h : expand matching patterns = .ok inputs) :
    Distinct inputs ∧
      (∀ document, inputs.any (·.same document) = true ↔ Matched matching patterns document) ∧
      (∃ lists, patterns.mapM matching = .ok lists ∧ Firsts lists.flatten inputs) ∧
      (∀ earlier later, patterns = earlier ++ later →
        ∃ front back, inputs = front ++ back ∧
          (∀ document ∈ front, Matched matching earlier document) ∧
          ∀ document ∈ back, ¬ Matched matching earlier document) ∧
      ∀ further extended, expand matching (patterns ++ further) = .ok extended →
        inputs <+: extended := by
  refine ⟨distinct_expand h, any_expand h, ?_, ?_, ?_⟩
  · obtain ⟨lists, hlists, hadd⟩ := foldlM_expandOne h
    refine ⟨lists, hlists, ?_⟩
    rw [← hadd]
    exact .foldl_add lists.flatten
  · rintro earlier later rfl
    obtain ⟨front, back, rfl, hfront, hback⟩ := exists_expand_append h
    refine ⟨front, back, rfl, ?_, hback⟩
    intro document hdocument
    exact (any_expand hfront document).mp (any_of_mem hdocument)
  · intro further extended hextended
    obtain ⟨front, back, rfl, hfront, _⟩ := exists_expand_append hextended
    rw [h] at hfront
    cases hfront
    exact List.prefix_append inputs back

end

/-- A directory of two documents. -/
def pair : Entry :=
  .directory [("a.ir.json", .file .empty), ("b.ir.json", .file .empty)]

/-- The second pattern matches both documents, and adds the one that the first does not match. -/
theorem expand_in_order_pair :
    expand pair.matching ["b.ir.json", "*.ir.json"] = .ok [⟨"b.ir.json"⟩, ⟨"a.ir.json"⟩] ∧
      Distinct [⟨"b.ir.json"⟩, ⟨"a.ir.json"⟩] ∧
      ∃ lists, ["b.ir.json", "*.ir.json"].mapM pair.matching = .ok lists ∧
        Firsts lists.flatten [⟨"b.ir.json"⟩, ⟨"a.ir.json"⟩] := by
  have h : expand pair.matching ["b.ir.json", "*.ir.json"] =
      .ok [⟨"b.ir.json"⟩, ⟨"a.ir.json"⟩] := rfl
  obtain ⟨hdistinct, _, hfirsts, _⟩ := expand_in_order h
  exact ⟨h, hdistinct, hfirsts⟩

/-! ### Patterns that are refused -/

/-- A run is over at the first pattern all of whose matches the patterns before it gave already, be
there none or not. It comes to its end if and only if every pattern adds a document. -/
theorem expand_noMatch (matching : String → Except MatchError (List FileName))
    (patterns : List String) :
    (∀ pattern, expand matching patterns = .error (.noMatch pattern) ↔
        ∃ earlier later inputs names, patterns = earlier ++ pattern :: later ∧
          expand matching earlier = .ok inputs ∧ matching pattern = .ok names ∧
          ∀ name ∈ names, Matched matching earlier name) ∧
      ((∃ inputs, expand matching patterns = .ok inputs) ↔
        ∀ earlier pattern later, patterns = earlier ++ pattern :: later →
          Adds matching earlier pattern) := by
  refine ⟨?_, ?_, ?_⟩
  · intro pattern
    rw [expand, foldlM_eq_error_iff]
    constructor
    · rintro ⟨earlier, _, later, inputs, hpatterns, hinputs, hone⟩
      obtain ⟨rfl, names, hnames, hold⟩ := expandOne_eq_noMatch.mp hone
      exact ⟨earlier, later, inputs, names, hpatterns, hinputs, hnames,
        fun name hname => (any_expand hinputs name).mp (hold name hname)⟩
    · rintro ⟨earlier, later, inputs, names, hpatterns, hinputs, hnames, hold⟩
      refine ⟨earlier, pattern, later, inputs, hpatterns, hinputs, ?_⟩
      exact expandOne_eq_noMatch.mpr
        ⟨rfl, names, hnames, fun name hname => (any_expand hinputs name).mpr (hold name hname)⟩
  · rintro ⟨inputs, h⟩ earlier pattern later rfl
    rw [expand_append] at h
    obtain ⟨middle, hmiddle, hlater⟩ := bind_eq_ok.mp h
    rw [List.foldlM_cons] at hlater
    obtain ⟨next, hone, _⟩ := bind_eq_ok.mp hlater
    obtain ⟨names, hnames, _, name, hname, hnew⟩ := expandOne_eq_ok.mp hone
    refine ⟨names, hnames, name, hname, fun hmatched => ?_⟩
    rw [(any_expand hmiddle name).mpr hmatched] at hnew
    cases hnew
  · intro hadds
    cases h : expand matching patterns with
    | ok inputs => exact ⟨inputs, rfl⟩
    | error error =>
        -- the pattern the run stopped at adds a document to those the run had by then
        obtain ⟨earlier, pattern, later, middle, hpatterns, hmiddle, hone⟩ :=
          foldlM_eq_error_iff.mp h
        obtain ⟨names, hnames, name, hname, hnew⟩ := hadds earlier pattern later hpatterns
        have hnone : middle.any (·.same name) = false :=
          Bool.eq_false_iff.mpr fun hany => hnew ((any_expand hmiddle name).mp hany)
        rw [expandOne_eq_ok.mpr ⟨names, hnames, rfl, name, hname, hnone⟩] at hone
        cases hone

/-- A pattern that matches a document is said to match none, since another pattern matches that
document too. -/
theorem expand_noMatch_matched :
    pair.matching "*.ir.json" = .ok [⟨"a.ir.json"⟩, ⟨"b.ir.json"⟩] ∧
      pair.matching "a.ir.json" = .ok [⟨"a.ir.json"⟩] ∧
      expand pair.matching ["*.ir.json", "a.ir.json"] = .error (.noMatch "a.ir.json") ∧
      (InputError.noMatch "a.ir.json").message = "No IR documents match a.ir.json" :=
  ⟨rfl, rfl, rfl, rfl⟩

end Inputs

end ComponentLowering
