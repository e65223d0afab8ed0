import BoundSql.Unicode.Property

/-!
# Quoted listings

The form in which a text is shown in a message: between quotation marks, with escapes for the
marks, the backslash and every character that has no visible form of its own.
-/

namespace BoundSql.Text

/-- How a character is shown. -/
def listedChar (c : Char) : List Char :=
  match c with
  | '\x00' => ['\\', '0']
  | '\t' => ['\\', 't']
  | '\n' => ['\\', 'n']
  | '\r' => ['\\', 'r']
  | '"' => ['\\', '"']
  | '\\' => ['\\', '\\']
  | c =>
    if Unicode.isVisible c then [c]
    else '\\' :: 'u' :: '\x7b' :: Nat.toDigits 16 c.toNat ++ ['\x7d']

/-- A text between quotation marks. -/
def listed (s : String) : String :=
  String.ofList ('"' :: s.toList.flatMap listedChar ++ ['"'])

end BoundSql.Text
