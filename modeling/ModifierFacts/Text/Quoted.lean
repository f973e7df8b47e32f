import ModifierFacts.Text.Printable

/-!
# Quoted texts

A text between double quotes, as error messages cite it: quote, backslash and the usual controls
have a short escape, and a character that cannot be seen is given by its code point.
-/

namespace ModifierFacts.Text

/-- One character of a quotation. -/
def quoteChar (c : Char) : List Char :=
  match c with
  | '\x00' => ['\\', '0']
  | '\t' => ['\\', 't']
  | '\r' => ['\\', 'r']
  | '\n' => ['\\', 'n']
  | '"' => ['\\', '"']
  | '\\' => ['\\', '\\']
  | c => if isPrintable c then [c] else
    ['\\', 'u', '\x7b'] ++ Nat.toDigits 16 c.toNat ++ ['\x7d']

/-- A text in double quotes. -/
def quoted (s : String) : String :=
  "\"" ++ String.ofList (s.toList.flatMap quoteChar) ++ "\""

end ModifierFacts.Text
