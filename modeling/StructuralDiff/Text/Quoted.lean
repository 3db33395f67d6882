import StructuralDiff.Text.Unprintable

/-!
# Quoted text

How messages quote a text: in double quotes, with an escape for each character
that would be ambiguous or invisible, so that every text can be recognised from
its quoted form.
-/

namespace StructuralDiff.Text

/-- The escape of a character that is shown by its code point: lower-case
hexadecimal digits without padding. -/
def codePointEscape (char : Char) : List Char :=
  ['\\', 'u', '\x7b'] ++ Nat.toDigits 16 char.toNat ++ ['\x7d']

/-- A character as it stands between the quotes. -/
def quotedChar (char : Char) : List Char :=
  match char with
  | '\x00' => ['\\', '0']
  | '\t' => ['\\', 't']
  | '\n' => ['\\', 'n']
  | '\r' => ['\\', 'r']
  | '"' => ['\\', '"']
  | '\\' => ['\\', '\\']
  | other => if isUnprintable other then codePointEscape other else [other]

/-- A text in double quotes. -/
def quoted (text : String) : String :=
  String.ofList ('"' :: text.toList.flatMap quotedChar ++ ['"'])

/-- Quoted texts between square brackets, with a comma and a space between them. -/
def quotedList (texts : List String) : String :=
  "[" ++ ", ".intercalate (texts.map quoted) ++ "]"

end StructuralDiff.Text
