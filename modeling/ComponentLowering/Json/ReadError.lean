import ComponentLowering.Json.Fault
/-!
Why reading a text stopped, and where.
-/

namespace ComponentLowering

inductive Flaw where
  | expectedColon
  | expectedCommaOrBracket
  | expectedCommaOrBrace
  | expectedValue
  /-- A word other than `null`, `true` and `false`. -/
  | expectedWord
  | keyNotString
  | trailingComma
  | trailingCharacters
  | controlCharacter
  | invalidEscape
  /-- The first half of a character without the second, or the second without the first. -/
  | loneHalf
  /-- The first half of a character with no escape behind it. -/
  | noSecondHalf
  | invalidNumber
  | numberOutOfRange
  /-- Too many brackets are open. -/
  | tooDeep
  deriving DecidableEq, Repr

/-- What is not finished where a text ends. -/
inductive Unfinished where
  | list
  | object
  | string
  | value
  deriving DecidableEq, Repr

/-- A place in a text: the number of its line, and of the bytes in front of it on that line. -/
structure Position where
  line : Nat
  column : Nat
  deriving DecidableEq, Repr

inductive ReadError.Cause where
  /-- The text breaks the grammar, a number is too great, or too many brackets are open. -/
  | malformed (flaw : Flaw)
  /-- The text ends inside a value. -/
  | truncated (unfinished : Unfinished)
  /-- The content is not the one asked for. -/
  | unsuitable (fault : Fault)

structure ReadError where
  cause : ReadError.Cause
  position : Position

def Flaw.message : Flaw → String
  | expectedColon => "expected `:`"
  | expectedCommaOrBracket => "expected `,` or `]`"
  | expectedCommaOrBrace => "expected `,` or `\x7d`"
  | expectedValue => "expected value"
  | expectedWord => "expected ident"
  | keyNotString => "key must be a string"
  | trailingComma => "trailing comma"
  | trailingCharacters => "trailing characters"
  | controlCharacter => "control character (\\u0000-\\u001F) found while parsing a string"
  | invalidEscape => "invalid escape"
  | loneHalf => "lone leading surrogate in hex escape"
  | noSecondHalf => "unexpected end of hex escape"
  | invalidNumber => "invalid number"
  | numberOutOfRange => "number out of range"
  | tooDeep => "recursion limit exceeded"

def Unfinished.message : Unfinished → String
  | list => "EOF while parsing a list"
  | object => "EOF while parsing an object"
  | string => "EOF while parsing a string"
  | value => "EOF while parsing a value"

namespace Position

def start : Position :=
  ⟨1, 0⟩

/-- Moves on by so many bytes of a text, or to its end. -/
def advance (position : Position) (bytes : Nat) : List Char → Position
  | [] => position
  | c :: rest =>
    if bytes = 0 then position
    else if c = '\n' then advance ⟨position.line + 1, 0⟩ (bytes - 1) rest
    else advance ⟨position.line, position.column + min bytes c.utf8Size⟩ (bytes - c.utf8Size) rest

def text (position : Position) : String :=
  "line " ++ decimal position.line ++ " column " ++ decimal position.column

end Position

namespace ReadError

def Cause.message : Cause → String
  | malformed flaw => flaw.message
  | truncated unfinished => unfinished.message
  | unsuitable fault => fault.message

def message (error : ReadError) : String :=
  error.cause.message ++ " at " ++ error.position.text

end ReadError

end ComponentLowering
