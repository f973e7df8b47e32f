/-!
# Writing documents

`Json.Value` is a document to be written. `Value.toText` writes it without blanks, members in the
order given and texts with the shortest escapes; `Value.pretty` writes it over several lines.
-/

namespace ModifierFacts.Json

/-! ## 1. Documents -/

/-- A document to be written. -/
inductive Value where
  | null
  | boolean (b : Bool)
  | natural (n : Nat)
  | text (s : String)
  | array (items : List Value)
  | object (members : List (String × Value))

/-- A value, or `null` for none. -/
def Value.ofOption {α : Type} (write : α → Value) : Option α → Value
  | some a => write a
  | none => .null

/-! ## 2. Texts -/

/-- The character of a hexadecimal digit below sixteen, in lower case. -/
def hexChar (n : Nat) : Char := Nat.digitChar n

/-- One character of a text literal. Quote, backslash and the control characters are escaped, all
else stands for itself. -/
def escapeChar (c : Char) : List Char :=
  match c with
  | '"' => ['\\', '"']
  | '\\' => ['\\', '\\']
  | '\x08' => ['\\', 'b']
  | '\x0c' => ['\\', 'f']
  | '\n' => ['\\', 'n']
  | '\r' => ['\\', 'r']
  | '\t' => ['\\', 't']
  | c =>
    if c.toNat < 0x20 then ['\\', 'u', '0', '0', hexChar (c.toNat / 16), hexChar (c.toNat % 16)]
    else [c]

/-- A text literal. -/
def quote (s : String) : List Char := '"' :: s.toList.flatMap escapeChar ++ ['"']

/-! ## 3. Without blanks -/

mutual

/-- The characters of a document. -/
def Value.chars : Value → List Char
  | .null => ['n', 'u', 'l', 'l']
  | .boolean true => ['t', 'r', 'u', 'e']
  | .boolean false => ['f', 'a', 'l', 's', 'e']
  | .natural n => Nat.toDigits 10 n
  | .text s => quote s
  | .array items => '[' :: itemChars items ++ [']']
  | .object members => '\x7b' :: memberChars members ++ ['\x7d']

/-- Items with commas between them. -/
def itemChars : List Value → List Char
  | [] => []
  | [v] => v.chars
  | v :: vs => v.chars ++ ',' :: itemChars vs

/-- Members with commas between them. -/
def memberChars : List (String × Value) → List Char
  | [] => []
  | [(key, v)] => quote key ++ ':' :: v.chars
  | (key, v) :: ms => quote key ++ ':' :: v.chars ++ ',' :: memberChars ms

end

/-- A document as text. -/
def Value.toText (v : Value) : String := String.ofList v.chars

/-! ## 4. Over several lines -/

/-- A line break with the indentation of a level, two blanks each. -/
def newLine (level : Nat) : List Char := '\n' :: List.replicate (2 * level) ' '

mutual

/-- The characters of a document whose brackets stand at a level of indentation. Empty brackets stay
on one line. -/
def Value.prettyChars (level : Nat) : Value → List Char
  | .array (v :: vs) => '[' :: prettyItems level (v :: vs) ++ newLine level ++ [']']
  | .object (m :: ms) => '\x7b' :: prettyMembers level (m :: ms) ++ newLine level ++ ['\x7d']
  | v => v.chars

/-- Items, each on a line of its own. -/
def prettyItems (level : Nat) : List Value → List Char
  | [] => []
  | [v] => newLine (level + 1) ++ v.prettyChars (level + 1)
  | v :: vs => newLine (level + 1) ++ v.prettyChars (level + 1) ++ ',' :: prettyItems level vs

/-- Members, each on a line of its own. -/
def prettyMembers (level : Nat) : List (String × Value) → List Char
  | [] => []
  | [(key, v)] => newLine (level + 1) ++ quote key ++ ':' :: ' ' :: v.prettyChars (level + 1)
  | (key, v) :: ms =>
    newLine (level + 1) ++ quote key ++ ':' :: ' ' :: v.prettyChars (level + 1) ++
      ',' :: prettyMembers level ms

end

/-- A document over several lines, as text. -/
def Value.pretty (v : Value) : String := String.ofList (v.prettyChars 0)

end ModifierFacts.Json
