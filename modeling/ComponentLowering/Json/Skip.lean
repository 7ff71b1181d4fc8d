import ComponentLowering.Json.Reader
/-!
Passing over a value that nobody asked for. The grammar still has to hold, but nothing is evaluated:
brackets may nest to any depth, numbers may be of any size, and an escaped half of a character may
stand alone.
-/

namespace ComponentLowering.Json.Reader

inductive Bracket where
  | square
  | curly
  deriving DecidableEq

def Bracket.closing : Bracket → Char
  | square => ']'
  | curly => '}'

def Bracket.unfinished : Bracket → Unfinished
  | square => .list
  | curly => .object

/-- The flaw of what neither goes on nor closes a bracket. -/
def Bracket.flaw : Bracket → Flaw
  | square => .expectedCommaOrBracket
  | curly => .expectedCommaOrBrace

/-- Passes over a number. The end of the text does not excuse a missing digit. -/
def skipNumber : Reader Unit := do
  let missing : ReadError.Cause := .malformed .invalidNumber
  if (← peek?) = some '-' then drop
  let _ ← wholeDigits missing
  if (← peek?) = some '.' then
    drop
    let _ ← someDigits missing
  if (← peek?) = some 'e' ∨ (← peek?) = some 'E' then
    drop
    if (← peek?) = some '-' ∨ (← peek?) = some '+' then drop
    let _ ← someDigits missing

/-- Passes over the characters up to the closing quote. -/
def skipCharacters : Nat → Reader Unit
  | 0 => truncated .string
  | bound + 1 => do
    match ← peek .string with
    | '"' => drop
    | '\\' =>
      drop
      let letter ← peek .string
      if letter = 'u' then
        drop
        let _ ← hexEscape
      else if (letterEscape? letter).isSome then drop
      else malformed .invalidEscape
      skipCharacters bound
    | c =>
      if c < ' ' then stop (.malformed .controlCharacter) 0
      else
        drop
        skipCharacters bound

def skipKey : Reader Unit := do
  if (← ahead .object) = '"' then
    drop
    skipCharacters (← read)
    colon
  else malformed .keyNotString

def skipScalar : Reader Unit := do
  match ← ahead .value with
  | 'n' => word ['n', 'u', 'l', 'l']
  | 't' => word ['t', 'r', 'u', 'e']
  | 'f' => word ['f', 'a', 'l', 's', 'e']
  | '"' => drop; skipCharacters (← read)
  | c => if c = '-' ∨ c.isDigit then skipNumber else malformed .expectedValue

mutual

/-- Passes over a value and what follows it up to the end of all open brackets, innermost first. -/
def skipWithin (opened : List Bracket) : Nat → Reader Unit
  | 0 => truncated .value
  | bound + 1 => do
    match ← ahead .value with
    | '[' =>
      drop
      if (← ahead .list) = ']' then
        drop
        skipAfter opened bound
      else
        skipWithin (.square :: opened) bound
    | '{' =>
      drop
      if (← ahead .object) = '}' then
        drop
        skipAfter opened bound
      else
        skipKey
        skipWithin (.curly :: opened) bound
    | _ =>
      skipScalar
      skipAfter opened bound

/-- Passes over what follows a value up to the end of all open brackets, innermost first. -/
def skipAfter (opened : List Bracket) : Nat → Reader Unit
  | 0 => truncated .value
  | bound + 1 =>
    match opened with
    | [] => return ()
    | bracket :: outer => do
      let c ← ahead bracket.unfinished
      if c = bracket.closing then
        drop
        skipAfter outer bound
      else if c = ',' then
        drop
        if bracket = .curly then skipKey
        skipWithin opened bound
      else malformed bracket.flaw

end

def skip : Reader Unit := do
  skipWithin [] (← read)

end ComponentLowering.Json.Reader
