import ComponentLowering.Decimal
import ComponentLowering.Files.Basic
/-!
Patterns of file names. Within a component `?` stands for one character, `*` for any number of them
and a bracket for one of a class; the component `**` stands for any number of directories.
-/

namespace ComponentLowering

/-- Characters between two ends, both included. -/
structure CharRange where
  first : Char
  last : Char
  deriving DecidableEq, Repr

inductive Wildcard where
  | char (c : Char)
  | anyChar
  | anyText
  | oneOf (ranges : List CharRange)
  | noneOf (ranges : List CharRange)
  deriving DecidableEq, Repr

inductive PatternStep where
  /-- Exactly this name, which is not looked for but tried. -/
  | exactly (name : String)
  | like (pieces : List Wildcard)
  | anyDirectories
  deriving DecidableEq, Repr

structure Pattern where
  /-- The directory from which the steps lead. -/
  start : FileName
  steps : List PatternStep
  onlyDirectories : Bool
  deriving DecidableEq, Repr

/-- What keeps a text from being a pattern. -/
inductive PatternFlaw where
  | tooManyStars
  | starsNotAlone
  | openBracket
  deriving DecidableEq, Repr

/-- A text that is no pattern, with the number of characters in front of what is wrong. -/
structure PatternError where
  position : Nat
  flaw : PatternFlaw
  deriving DecidableEq, Repr

def PatternFlaw.message : PatternFlaw → String
  | tooManyStars => "wildcards are either regular `*` or recursive `**`"
  | starsNotAlone => "recursive wildcards must form a single path component"
  | openBracket => "invalid range pattern"

def PatternError.message (error : PatternError) : String :=
  "Pattern syntax error near position " ++ decimal error.position ++ ": " ++ error.flaw.message

namespace CharRange

def contains (range : CharRange) (c : Char) : Bool :=
  range.first ≤ c ∧ c ≤ range.last

/-- The ranges of a bracket: `a-z`, or a character of its own. -/
def ofChars : List Char → List CharRange
  | first :: '-' :: last :: rest => ⟨first, last⟩ :: ofChars rest
  | c :: rest => ⟨c, c⟩ :: ofChars rest
  | [] => []

end CharRange

namespace Wildcard

/-- A bracket that is open: where it stands, whether it excludes, and what it held so far, latest
first. -/
structure Bracket where
  position : Nat
  excludes : Bool
  inside : List Char

/-- The piece that a bracket stands for. -/
def Bracket.close (bracket : Bracket) : Wildcard :=
  let ranges := CharRange.ofChars bracket.inside.reverse
  if bracket.excludes then noneOf ranges else oneOf ranges

/-- The pieces of a text from a position on, from inside a bracket or not. A bracket is never empty:
what comes first in it does not close it. Two stars stand alone, from where a component `opens` up
to a slash or the end. -/
def ofChars (position : Nat) (opens : Bool) :
    Option Bracket → List Char → Except PatternError (List Wildcard)
  | none, [] => .ok []
  | some bracket, [] => .error ⟨bracket.position, .openBracket⟩
  | some bracket, c :: rest => do
    if c = ']' ∧ bracket.inside ≠ [] then
      return bracket.close :: (← ofChars (position + 1) false none rest)
    else
      ofChars (position + 1) false (some { bracket with inside := c :: bracket.inside }) rest
  | none, '*' :: '*' :: '*' :: _ => .error ⟨position + 2, .tooManyStars⟩
  | none, ['*', '*'] => if opens then .ok [.anyText] else .error ⟨position - 1, .starsNotAlone⟩
  | none, '*' :: '*' :: '/' :: rest =>
    if opens then return .anyText :: .char '/' :: (← ofChars (position + 3) true none rest)
    else .error ⟨position - 1, .starsNotAlone⟩
  | none, '*' :: '*' :: _ => .error ⟨if opens then position + 2 else position - 1, .starsNotAlone⟩
  | none, '*' :: rest => return .anyText :: (← ofChars (position + 1) false none rest)
  | none, '?' :: rest => return .anyChar :: (← ofChars (position + 1) false none rest)
  | none, '[' :: '!' :: rest => ofChars (position + 2) false (some ⟨position, true, []⟩) rest
  | none, '[' :: rest => ofChars (position + 1) false (some ⟨position, false, []⟩) rest
  | none, c :: rest => return .char c :: (← ofChars (position + 1) (c = '/') none rest)

def ofString (text : String) : Except PatternError (List Wildcard) :=
  ofChars 0 true none text.toList

def literal? : Wildcard → Option Char
  | char c => some c
  | _ => none

def accepts : Wildcard → Char → Bool
  | char a, c => a = c
  | anyChar, _ => true
  | anyText, _ => true
  | oneOf ranges, c => ranges.any (·.contains c)
  | noneOf ranges, c => !ranges.any (·.contains c)

/-- Marks of the endings of a text, longest first: from these, whether an ending or a shorter one is
marked. -/
def orShorter : List Bool → List Bool
  | [] => []
  | marked :: shorter =>
    let rest := orShorter shorter
    (marked || rest.headD false) :: rest

/-- Whether pieces take each ending of a text, longest first and the empty one last. A piece is laid
once over the whole text, however the pieces before it share the text out. -/
def matchEndings (text : List Char) : List Wildcard → List Bool
  | [] => text.map (fun _ => false) ++ [true]
  | .anyText :: rest => orShorter (matchEndings text rest)
  | piece :: rest =>
    text.zipWith (fun c taken => piece.accepts c && taken) (matchEndings text rest).tail ++ [false]

def matchAll (pieces : List Wildcard) (text : List Char) : Bool :=
  (matchEndings text pieces).headD false

theorem tail_orShorter (marks : List Bool) : (orShorter marks).tail = orShorter marks.tail := by
  cases marks <;> rfl

theorem length_orShorter (marks : List Bool) : (orShorter marks).length = marks.length := by
  induction marks with
  | nil => rfl
  | cons marked shorter ih => simp [orShorter, ih]

/-- A text has one ending more than characters. -/
theorem length_matchEndings (text : List Char) (pieces : List Wildcard) :
    (matchEndings text pieces).length = text.length + 1 := by
  induction pieces with
  | nil => simp [matchEndings]
  | cons piece rest ih => cases piece <;> simp [matchEndings, length_orShorter, ih]

/-- The endings of a text other than itself are those of the text without its first character. -/
theorem tail_matchEndings_cons (c : Char) (text : List Char) (pieces : List Wildcard) :
    (matchEndings (c :: text) pieces).tail = matchEndings text pieces := by
  induction pieces with
  | nil => rfl
  | cons piece rest ih =>
    match h : matchEndings text rest, length_matchEndings text rest with
    | taken :: shorter, _ => cases piece <;> simp [matchEndings, tail_orShorter, ih, h]

theorem matchAll_nil (text : List Char) : matchAll [] text = text.isEmpty := by
  cases text <;> rfl

/-- Any number of characters: none, or one and any number more. -/
theorem matchAll_anyText_cons (rest : List Wildcard) (c : Char) (text : List Char) :
    matchAll (.anyText :: rest) (c :: text) =
      (matchAll rest (c :: text) || matchAll (.anyText :: rest) text) := by
  have tail := tail_matchEndings_cons c text rest
  match h : matchEndings (c :: text) rest, length_matchEndings (c :: text) rest with
  | taken :: shorter, _ =>
    rw [h, List.tail_cons] at tail
    simp [matchAll, matchEndings, h, orShorter, tail]

/-- Every other piece stands for one character. -/
theorem matchAll_cons_cons {piece : Wildcard} (single : piece ≠ .anyText) (rest : List Wildcard)
    (c : Char) (text : List Char) :
    matchAll (piece :: rest) (c :: text) = (piece.accepts c && matchAll rest text) := by
  have tail := tail_matchEndings_cons c text rest
  match h : matchEndings text rest, length_matchEndings text rest with
  | taken :: shorter, _ => cases piece <;> simp_all [matchAll, matchEndings]

/-- Only pieces for any number of characters take the empty text. -/
theorem matchAll_cons_empty (piece : Wildcard) (rest : List Wildcard) :
    matchAll (piece :: rest) [] = (decide (piece = .anyText) && matchAll rest []) := by
  match h : matchEndings [] rest, length_matchEndings [] rest with
  | [taken], _ => cases piece <;> simp [matchAll, matchEndings, orShorter, h]

end Wildcard

namespace PatternStep

def ofString (text : String) : Except PatternError PatternStep := do
  let pieces ← Wildcard.ofString text
  if text = "**" then return anyDirectories
  else if (pieces.mapM Wildcard.literal?).isSome then return exactly text
  else return like pieces

def admits : PatternStep → String → Bool
  | exactly expected, name => expected = name
  | like pieces, name => Wildcard.matchAll pieces name.toList
  | anyDirectories, _ => true

/-- Steps in which no two repeat `**`, which would say nothing. -/
def collapse : List PatternStep → List PatternStep
  | anyDirectories :: rest =>
    match collapse rest with
    | anyDirectories :: rest => anyDirectories :: rest
    | rest => anyDirectories :: rest
  | step :: rest => step :: collapse rest
  | [] => []

/-- The names of the directory itself and of the one around it, as far as a step that starts with a
point stands for them; the outer one comes first. -/
def specials : PatternStep → List String
  | like (.char '.' :: pieces) => ["..", "."].filter (like (.char '.' :: pieces)).admits
  | _ => []

end PatternStep

namespace Pattern

/-- The pattern that a text describes. A slash at its start leads from the root of all files, and
one at its end asks for directories; neither is a step. The text has to be sound as a whole before
it is cut into steps, since a bracket may hold a slash. -/
def ofString (text : String) : Except PatternError Pattern := do
  let _ ← Wildcard.ofString text
  let name : FileName := ⟨text⟩
  let texts := if name.isAbsolute then name.steps.tail else name.steps
  let texts := if texts.length ≠ 1 ∧ texts.getLast? = some "" then texts.dropLast else texts
  let steps ← texts.mapM PatternStep.ofString
  return {
    start := if name.isAbsolute then ⟨"/"⟩ else ⟨"."⟩
    steps := PatternStep.collapse steps
    onlyDirectories := text.toList.getLast? = some '/' }

end Pattern

/-! ### Search -/

/-- A name that a search came to, and whether a directory was seen there. What a listing tells of an
entry counts even if the name of the entry is too long to be followed. -/
structure Visit where
  name : FileName
  isDirectory : Bool
  deriving DecidableEq, Repr

structure ListFailure where
  directory : FileName
  error : FileError
  deriving DecidableEq, Repr

def ListFailure.message (failure : ListFailure) : String :=
  "attempting to read `" ++ failure.directory.text ++ "` resulted in an error: " ++
    failure.error.message

namespace Entry

mutual

/-- Everything below a directory of a name, in ascending order, directories before what they
hold. -/
def descendants (here : FileName) : Entry → List (FileName × String × Entry)
  | .file _ => []
  | .directory entries => descendantsAmong here entries
termination_by structural entry => entry

def descendantsAmong (here : FileName) : List (String × Entry) → List (FileName × String × Entry)
  | [] => []
  | (name, entry) :: rest =>
    (here.child name, name, entry) ::
      entry.descendants (here.child name) ++ descendantsAmong here rest
termination_by structural entries => entries

end

end Entry

namespace FileTree

def visit (tree : FileTree) (name : FileName) : Visit :=
  ⟨name, tree.hasDirectory name⟩

def listing (tree : FileTree) (here : Visit) : Except ListFailure (List (String × Entry)) :=
  (tree.list here.name).mapError (⟨here.name, ·⟩)

/-- Where steps lead to from a place. A directory is listed for every step that is no plain name;
below `**`, that is done for each directory after the steps behind `**` were taken from it. -/
def search (tree : FileTree) : List PatternStep → Visit → Except ListFailure (List Visit)
  | [], here => return [here]
  | .exactly name :: steps, here =>
    let there := tree.visit (here.name.child name)
    let found := if name = "." ∨ name = ".." then here.isDirectory else tree.contains there.name
    if found then search tree steps there else return []
  | .anyDirectories :: steps, here => do
    if ¬ here.isDirectory then return []
    let below := Entry.descendantsAmong here.name (← tree.listing here)
    let found ← below.mapM fun (name, last, entry) => do
      let there : Visit := ⟨name, entry.isDirectory⟩
      let found ←
        match steps with
        | [] => pure (if there.isDirectory then [there] else [])
        | step :: steps => if step.admits last then search tree steps there else pure []
      if there.isDirectory then let _ ← tree.listing there
      return found
    return found.flatten
  | .like pieces :: steps, here => do
    if ¬ here.isDirectory then return []
    let entries ← tree.listing here
    let step := PatternStep.like pieces
    let around ← step.specials.mapM fun name =>
      search tree steps (tree.visit (here.name.append name))
    let found ← (entries.filter fun (name, _) => step.admits name).mapM fun (name, entry) =>
      search tree steps ⟨here.name.child name, entry.isDirectory⟩
    return (around ++ found).flatten

def namesLike (tree : FileTree) (pattern : Pattern) : Except ListFailure (List FileName) := do
  let found ← tree.search pattern.steps (tree.visit pattern.start)
  return (found.filter fun visit => !pattern.onlyDirectories || visit.isDirectory).map Visit.name

end FileTree

/-! ### Reach -/

namespace PatternStep

/-- Whether a step may lead to the directory around. -/
def leadsBack : PatternStep → Bool
  | exactly name => name = ".."
  | step => ".." ∈ step.specials

/-- All that steps may come to from a place: what lies below a directory, down to a number of
levels. Plain names lead to that directory, and steps back behind them out of it again. -/
def reach (here : FileName) : List PatternStep → FileName × Nat
  | exactly name :: steps => reach (here.child name) steps
  | steps =>
    let back := steps.countP leadsBack
    (Nat.repeat (·.append "..") back here,
      if anyDirectories ∈ steps then FileName.sizeLimit else back + steps.length)

end PatternStep

def Pattern.reach (pattern : Pattern) : FileName × Nat :=
  PatternStep.reach pattern.start pattern.steps

end ComponentLowering
