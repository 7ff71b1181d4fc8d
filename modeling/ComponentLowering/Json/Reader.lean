import ComponentLowering.Json.ReadError
import ComponentLowering.Json.Writer
import ComponentLowering.Named
/-!
Reading JSON in one forward pass. A reader takes a value off the front of a text and leaves the
rest, or stops at the first error; nothing behind that error has an influence. The readers of single
values skip the blanks in front of them.

Every loop is bounded by the length of the text, which readers carry along, and every nesting of
values by the depth that is left; the bound of a loop is never met, because each round takes a
character.

A reader that stops tells the text that it leaves. Where that is in the whole text is found out only
then (`Stop.within`).
-/

namespace ComponentLowering.Json

/-- How a reader stopped: why, in front of which rest of the text, and how many bytes of that rest
had been looked at. -/
structure Stop where
  cause : ReadError.Cause
  rest : List Char
  seen : Nat

def byteSize (text : List Char) : Nat :=
  text.foldl (fun size c => size + c.utf8Size) 0

def Stop.within (text : List Char) (stop : Stop) : ReadError where
  cause := stop.cause
  position := Position.start.advance (byteSize text - byteSize stop.rest + stop.seen) text

/-- Takes a value off the front of a text whose length bounds all loops. -/
abbrev Reader : Type → Type :=
  ReaderT Nat (StateT (List Char) (Except Stop))

namespace Reader

/-- The greatest number of arrays and objects that may be open at once. -/
def depthLimit : Nat := 127

variable {α σ : Type}

/-- Stops in front of the rest of the text, of which some bytes had been looked at. -/
def stop (cause : ReadError.Cause) (seen : Nat) : Reader α := do
  throw ⟨cause, ← get, seen⟩

/-- Stops at a character that breaks the grammar. -/
def malformed (flaw : Flaw) : Reader α :=
  stop (.malformed flaw) 1

def truncated (unfinished : Unfinished) : Reader α :=
  stop (.truncated unfinished) 0

/-- Stops with a fault of the content that was read last. -/
def reject (fault : Fault) : Reader α :=
  stop (.unsuitable fault) 0

/-- The next character, which stays in the text, or nothing at the end. -/
def peek? : Reader (Option Char) :=
  return (← get).head?

def peek (unfinished : Unfinished) : Reader Char := do
  match ← get with
  | [] => truncated unfinished
  | c :: _ => return c

def drop : Reader Unit :=
  modify List.tail

def skipBlanks : Reader Unit :=
  modify (·.dropWhile isBlank)

/-- Skips blanks; the character after them stays in the text. -/
def ahead (unfinished : Unfinished) : Reader Char := do
  skipBlanks
  peek unfinished

def word : List Char → Reader Unit
  | [] => return ()
  | c :: rest => do
    if (← peek .value) = c then
      drop
      word rest
    else malformed .expectedWord

/-- Takes the digits in front of anything else. -/
def digits : Reader (List Char) := do
  let text ← get
  set (text.dropWhile Char.isDigit)
  return text.takeWhile Char.isDigit

/-- Takes the digits in front of anything else, of which there must be one. A text that ends there
has a cause of its own. -/
def someDigits (atEnd : ReadError.Cause) : Reader (List Char) := do
  match ← peek? with
  | none => stop atEnd 0
  | some c => if c.isDigit then digits else malformed .invalidNumber

/-- Takes the digits of a whole number. Only the number zero starts with the digit zero. -/
def wholeDigits (atEnd : ReadError.Cause) : Reader (List Char) := do
  if (← peek?) = some '0' then
    drop
    if (← peek?).any Char.isDigit then malformed .invalidNumber else return ['0']
  else someDigits atEnd

/-! ### Numbers -/

def greatestNatural : Nat := Nat.pow 2 64 - 1

def digitValue (c : Char) : Nat :=
  c.toNat - '0'.toNat

/-- Appends digits to a number as long as it stays within a limit; also gives how many were
appended. -/
def absorb (limit number : Nat) : List Char → Nat × Nat
  | [] => (number, 0)
  | c :: rest =>
    let longer := number * 10 + digitValue c
    if longer ≤ limit then
      let (result, count) := absorb limit longer rest
      (result, count + 1)
    else (number, 0)

def powerOfTen (exponent : Nat) : Float :=
  Float.ofScientific 1 false exponent

/-- Divides by a power of ten, in steps that a double can express. -/
def divideByPower (x : Float) (exponent : Nat) : Float :=
  if exponent ≤ 308 then
    x / powerOfTen exponent
  else if x == 0 then
    x
  else
    divideByPower (x / powerOfTen 308) (exponent - 308)
termination_by exponent

/-- The double of a significand and a decimal exponent, unless it is too great. -/
def scaled (significand : Nat) (exponent : Int) : Reader Float :=
  let x := significand.toUInt64.toFloat
  match exponent with
  | .ofNat exponent =>
    if exponent ≤ 308 then
      let x := x * powerOfTen exponent
      if x.isInf then stop (.malformed .numberOutOfRange) 0 else return x
    else if significand = 0 then return x
    else stop (.malformed .numberOutOfRange) 0
  | .negSucc exponent => return divideByPower x (exponent + 1)

/-- The greatest exponent that is added to the place of the point. -/
def greatestExponent : Nat := Nat.pow 2 31 - 1

/-- Reads an exponent, if there is one, for a significand that stands at a decimal place. An
exponent that makes the number too great is not read to its end. -/
def exponentPart (significand : Nat) (place : Int) : Reader Float := do
  match ← peek? with
  | some 'e' | some 'E' =>
    drop
    let negative := (← peek?) = some '-'
    if negative ∨ (← peek?) = some '+' then drop
    let text ← get
    let digits ← someDigits (.truncated .value)
    let (exponent, count) := absorb greatestExponent 0 digits
    if count = digits.length then
      scaled significand (if negative then place - exponent else place + exponent)
    else if significand = 0 ∨ negative then return 0
    else
      set (text.drop (count + 1))
      stop (.malformed .numberOutOfRange) 0
  | _ => scaled significand place

def number (negative : Bool) : Reader Number := do
  let sign (x : Float) : Number := .real (if negative then -x else x)
  let whole ← wholeDigits (.truncated .value)
  let (significand, count) := absorb greatestNatural 0 whole
  let surplus := whole.length - count
  match ← peek? with
  | some '.' =>
    drop
    let (significand, places) :=
      absorb greatestNatural significand (← someDigits (.truncated .value))
    return sign (← exponentPart significand (surplus - places))
  | some 'e' | some 'E' => return sign (← exponentPart significand surplus)
  | _ =>
    if surplus ≠ 0 then return sign (← scaled significand surplus)
    else if ¬ negative then return .whole significand
    else if significand = 0 ∨ Nat.pow 2 63 < significand then
      return sign significand.toUInt64.toFloat
    else return .whole (-significand)

def signedNumber : Reader Number := do
  if (← peek?) = some '-' then
    drop
    number true
  else
    number false

/-! ### Strings -/

def hexValue? (c : Char) : Option Nat :=
  if c.isDigit then some (c.toNat - '0'.toNat)
  else if 'a' ≤ c ∧ c ≤ 'f' then some (c.toNat - 'a'.toNat + 10)
  else if 'A' ≤ c ∧ c ≤ 'F' then some (c.toNat - 'A'.toNat + 10)
  else none

def hexNumber? (cs : List Char) : Option Nat :=
  cs.foldlM (fun n c => (hexValue? c).map (n * 16 + ·)) 0

/-- Reads the four hexadecimal digits of an escape. The text counts as ended when fewer than four
bytes are left. -/
def hexEscape : Reader Nat := do
  let text ← get
  let four := text.take 4
  if byteSize four < 4 then
    stop (.truncated .string) 4
  else
    match hexNumber? four with
    | none => stop (.malformed .invalidEscape) 4
    | some n => set (text.drop 4); return n

/-- The first half of a character outside the first 65536. -/
def isLeadingHalf (n : Nat) : Bool :=
  0xd800 ≤ n ∧ n ≤ 0xdbff

def isTrailingHalf (n : Nat) : Bool :=
  0xdc00 ≤ n ∧ n ≤ 0xdfff

/-- Takes a character of the escape that the first half of a character needs behind it. -/
def demand (c : Char) : Reader Unit := do
  if (← peek .string) = c then drop else malformed .noSecondHalf

/-- Reads a numbered escape after its letter; two halves make one character, and none stands
alone. -/
def numberedEscape : Reader Char := do
  let first ← hexEscape
  if isTrailingHalf first then
    stop (.malformed .loneHalf) 0
  else if isLeadingHalf first then
    demand '\\'
    demand 'u'
    let second ← hexEscape
    if isTrailingHalf second then
      return Char.ofNat (0x10000 + (first - 0xd800) * 0x400 + (second - 0xdc00))
    else stop (.malformed .loneHalf) 0
  else return Char.ofNat first

def letterEscape? : Char → Option Char
  | '"' => some '"'
  | '\\' => some '\\'
  | '/' => some '/'
  | 'b' => some '\x08'
  | 'f' => some '\x0c'
  | 'n' => some '\n'
  | 'r' => some '\r'
  | 't' => some '\t'
  | _ => none

def escape : Reader Char := do
  let letter ← peek .string
  if letter = 'u' then
    drop
    numberedEscape
  else
    match letterEscape? letter with
    | some c => drop; return c
    | none => malformed .invalidEscape

/-- Reads characters up to the closing quote, behind those already read, latest first. -/
def characters (before : List Char) : Nat → Reader String
  | 0 => truncated .string
  | bound + 1 => do
    match ← peek .string with
    | '"' => drop; return String.ofList before.reverse
    | '\\' => drop; characters ((← escape) :: before) bound
    | c =>
      if c < ' ' then malformed .controlCharacter
      else
        drop
        characters (c :: before) bound

def restOfString : Reader String := do
  characters [] (← read)

/-! ### Arrays and objects -/

/-- Steps to the next element of an array after its bracket or its last element: whether there is
one. The closing bracket is taken. -/
def nextElement (isFirst : Bool) : Reader Bool := do
  let c ← ahead .list
  if c = ']' then
    drop
    return false
  else if isFirst then
    return true
  else if c = ',' then
    drop
    if (← ahead .value) = ']' then malformed .trailingComma else return true
  else malformed .expectedCommaOrBracket

def openKey : Reader Unit := do
  if (← peek .value) = '"' then drop else malformed .keyNotString

/-- Steps to the next key of an object after its bracket or its last member: the key, if there is
one. The closing bracket is taken. -/
def nextKey? (isFirst : Bool) : Reader (Option String) := do
  let c ← ahead .object
  if c = '}' then
    drop
    return none
  else if isFirst then
    openKey
    return some (← restOfString)
  else if c = ',' then
    drop
    if (← ahead .value) = '}' then malformed .trailingComma
    openKey
    return some (← restOfString)
  else malformed .expectedCommaOrBrace

def colon : Reader Unit := do
  if (← ahead .object) = ':' then drop else malformed .expectedColon

/-- Reads the elements of an array up to its end. -/
def elementsFrom (element : Reader α) (isFirst : Bool) : Nat → Reader (List α)
  | 0 => truncated .list
  | bound + 1 => do
    if ← nextElement isFirst then
      let a ← element
      return a :: (← elementsFrom element false bound)
    else return []

def elements (element : Reader α) : Reader (List α) := do
  elementsFrom element true (← read)

/-- Reads the members of an object up to its end, each from behind its key. -/
def membersFrom (member : σ → String → Reader σ) (s : σ) (isFirst : Bool) : Nat → Reader σ
  | 0 => truncated .object
  | bound + 1 => do
    match ← nextKey? isFirst with
    | none => return s
    | some key => membersFrom member (← member s key) false bound

def members (member : σ → String → Reader σ) (s : σ) : Reader σ := do
  membersFrom member s true (← read)

/-! ### Values -/

/-- Reads a value that is no array and no object. -/
def scalar : Reader Json := do
  match ← ahead .value with
  | 'n' => word ['n', 'u', 'l', 'l']; return .null
  | 't' => word ['t', 'r', 'u', 'e']; return .bool true
  | 'f' => word ['f', 'a', 'l', 's', 'e']; return .bool false
  | '"' => drop; return .str (← restOfString)
  | c => if c = '-' ∨ c.isDigit then return .num (← signedNumber) else malformed .expectedValue

def value (depth : Nat) : Reader Json := do
  match ← ahead .value with
  | '[' =>
    match depth with
    | 0 => malformed .tooDeep
    | depth + 1 =>
      drop
      return .arr (← elements (value depth))
  | '{' =>
    match depth with
    | 0 => malformed .tooDeep
    | depth + 1 =>
      drop
      let member (before : List (String × Json)) (key : String) := do
        colon
        return (key, ← value depth) :: before
      return .obj (← members member []).reverse
  | _ => scalar

/-- Rejects a value for its type. A scalar is read to its end, so that its own errors come first; of
an array or object the bracket tells enough. -/
def mistyped (expected : Expected) : Reader α := do
  match ← ahead .value with
  | '[' => reject (.invalidType .sequence expected)
  | '{' => reject (.invalidType .map expected)
  | _ => reject (.invalidType (← scalar).found expected)

/-- Makes sure that an array or object follows. Its bracket stays in the text. -/
def opening (bracket : Char) (expected : Expected) : Reader Unit := do
  if (← ahead .value) ≠ bracket then mistyped expected

def string : Reader String := do
  if (← ahead .value) = '"' then
    drop
    restOfString
  else mistyped .string

def bool : Reader Bool := do
  match ← ahead .value with
  | 't' => word ['t', 'r', 'u', 'e']; return true
  | 'f' => word ['f', 'a', 'l', 's', 'e']; return false
  | _ => mistyped .bool

def null : Reader Unit := do
  if (← ahead .value) = 'n' then word ['n', 'u', 'l', 'l'] else mistyped .null

/-- Reads a natural number of 64 bits. -/
def natural : Reader UInt64 := do
  let c ← ahead .value
  if c = '-' ∨ c.isDigit then
    match ← signedNumber with
    | .whole n =>
      if 0 ≤ n then return n.toNat.toUInt64
      else reject (.invalidValue (.number (.whole n)) .natural)
    | .real x => reject (.invalidType (.number (.real x)) .natural)
  else mistyped .natural

/-- Reads nothing from `null`, and any other value as `item` does. -/
def optional (item : Reader α) : Reader (Option α) := do
  if (← ahead .value) = 'n' then
    null
    return none
  else return some (← item)

def variantOfName [Named α] (name : String) : Reader α :=
  match Named.ofName? name with
  | some a => return a
  | none => reject (.unknownVariant name (Named.names α))

/-- Reads a named value: its name, or an object whose one member has that name and holds `null`.
What stands in the place of the member's name and is no string breaks the grammar. -/
def variant [Named α] (depth : Nat) : Reader α := do
  match ← ahead .value with
  | '"' => variantOfName (← string)
  | '{' =>
    if depth = 0 then malformed .tooDeep
    drop
    skipBlanks
    openKey
    let a ← variantOfName (← restOfString)
    colon
    null
    if (← ahead .object) = '}' then drop else stop (.malformed .expectedValue) 0
    return a
  | _ => malformed .expectedValue

/-! ### Records -/

/-- Reads a record: an object read by `ofMembers` or an array read by `ofElements`, each from behind
its bracket and with one level of depth less. -/
def record (form : RecordForm) (depth : Nat) (ofMembers ofElements : Nat → Reader α) :
    Reader α := do
  let c ← ahead .value
  if c = '{' ∨ c = '[' then
    match depth with
    | 0 => malformed .tooDeep
    | depth + 1 =>
      drop
      if c = '{' then ofMembers depth else ofElements depth
  else mistyped (.record form)

/-- Rejects a key that was read before. The end of the object is taken if it follows at once. -/
def repeated (name : String) : Reader α := do
  skipBlanks
  if (← peek?) = some '}' then drop
  reject (.duplicateField name)

/-- Reads the value of a field from behind its key, unless the field was read before. -/
def once (name : String) (before : Option α) (item : Reader α) : Reader (Option α) := do
  if before.isSome then repeated name
  else
    colon
    return some (← item)

def required (name : String) (found : Option α) : Reader α :=
  match found with
  | some a => return a
  | none => reject (.missingField name)

/-- Reads the element at an index of a record written as an array. -/
def field (form : RecordForm) (index : Nat) (item : Reader α) : Reader α := do
  if ← nextElement (index = 0) then item else reject (.invalidLength index (.fieldsOf form))

def closeArray : Reader Unit := do
  match ← ahead .list with
  | ']' => drop
  | ',' =>
    drop
    skipBlanks
    malformed (if (← peek?) = some ']' then .trailingComma else .trailingCharacters)
  | _ => malformed .trailingCharacters

/-- Reads a value with nothing but blanks behind it. -/
def whole (item : Reader α) : Reader α := do
  let a ← item
  skipBlanks
  if (← peek?).isSome then malformed .trailingCharacters
  return a

def run (item : Reader α) (text : List Char) : Except ReadError α :=
  match (whole item (text.length + 1)).run text with
  | .ok (a, _) => .ok a
  | .error stop => .error (stop.within text)

end Reader

end ComponentLowering.Json
