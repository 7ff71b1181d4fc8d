import ComponentLowering.Text.Invisible
/-!
Strings quoted for a message: what would not be seen on a line is escaped.
-/

namespace ComponentLowering.Text

def visible (c : Char) : List Char :=
  match c with
  | '"' => ['\\', '"']
  | '\\' => ['\\', '\\']
  | '\n' => ['\\', 'n']
  | '\r' => ['\\', 'r']
  | '\t' => ['\\', 't']
  | '\x00' => ['\\', '0']
  | c =>
    if isInvisible c then '\\' :: 'u' :: '{' :: Nat.toDigits 16 c.toNat ++ ['}'] else [c]

/-- A string in quotes, with everything in it visible. -/
def quoted (s : String) : String :=
  String.ofList ('"' :: s.toList.flatMap visible ++ ['"'])

end ComponentLowering.Text
