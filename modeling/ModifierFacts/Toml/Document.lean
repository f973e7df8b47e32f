import ModifierFacts.Toml.Item
import ModifierFacts.Toml.Number

/-!
# Configuration texts

`Toml.parse` reads a whole text into the entries of its root table; it fails if the text is not well
formed or defines anything twice.
-/

namespace ModifierFacts.Toml

/-! ## 1. Values -/

/-- A number, a date or a time. -/
def numeric? (cs : List Char) : Option (Scalar × List Char) :=
  match datetime cs with
  | .read _ rest => some (.datetime, rest)
  | .refused => none
  | .otherForm =>
    match decimal cs with
    | .read x rest => some (.float x, rest)
    | .refused => none
    | .otherForm =>
      match specialFloat? cs with
      | some (x, rest) => some (.float x, rest)
      | none => (integer? cs).map fun (i, rest) => (.integer i, rest)

/-- A value without parts. -/
def scalar? (cs : List Char) : Option (Scalar × List Char) :=
  match cs with
  | '"' :: _ | '\x27' :: _ => (text? cs).map fun (s, rest) => (.text s, rest)
  | 't' :: 'r' :: 'u' :: 'e' :: rest => some (.boolean true, rest)
  | 'f' :: 'a' :: 'l' :: 's' :: 'e' :: rest => some (.boolean false, rest)
  | 'i' :: _ | 'n' :: _ => (specialFloat? cs).map fun (x, rest) => (.float x, rest)
  | c :: _ => if c.isDigit || c = '+' || c = '-' then numeric? cs else none
  | [] => none

mutual

/-- A value, inside of which `room` more brackets may enclose each other. Each step down takes a
character or follows one that did, so that `fuel` is enough if it is above twice the length of the
input. -/
def value? (fuel room : Nat) (cs : List Char) : Option (Item × List Char) :=
  match fuel with
  | 0 => none
  | fuel + 1 =>
    match cs with
    | '[' :: rest =>
      match room with
      | 0 => none
      | room + 1 => (items? fuel room rest).map fun (vs, rest) => (.array vs, rest)
    | '\x7b' :: rest =>
      match room with
      | 0 => none
      | room + 1 =>
        match skipBlanks rest with
        | '\x7d' :: rest => some (.inline [], rest)
        | rest => (members? fuel room [] rest).map fun (es, rest) => (.inline es, rest)
    | cs => (scalar? cs).map fun (s, rest) => (.scalar s, rest)

/-- The items of an array up to its bracket. -/
def items? (fuel room : Nat) (cs : List Char) : Option (List Item × List Char) :=
  match fuel with
  | 0 => none
  | fuel + 1 => do
    match ← skipSpace cs with
    | ']' :: rest => return ([], rest)
    | cs => do
      let (v, cs) ← value? fuel room cs
      match ← skipSpace cs with
      | ']' :: rest => return ([v], rest)
      | ',' :: rest => do
        let (vs, rest) ← items? fuel room rest
        return (v :: vs, rest)
      | _ => none

/-- The assignments of a table between braces up to its bracket. -/
def members? (fuel room : Nat) (entries : Entries) (cs : List Char) :
    Option (Entries × List Char) :=
  match fuel with
  | 0 => none
  | fuel + 1 => do
    let ((path, key), cs) ← key? cs
    let cs ← expect? '=' cs
    let (v, cs) ← value? fuel room (skipBlanks cs)
    let entries ← assign path key v entries
    match skipBlanks cs with
    | '\x7d' :: rest => return (entries, rest)
    | ',' :: rest => members? fuel room entries rest
    | _ => none

end

/-! ## 2. Statements -/

/-- What has been read of a text: the root table, and the path that the last header named. -/
structure State where
  root : Entries := []
  current : List String := []

/-- An assignment, up to the end of its line. -/
def assignment? (state : State) (cs : List Char) : Option (State × List Char) := do
  let ((path, key), cs) ← key? cs
  let cs ← expect? '=' cs
  let (v, cs) ← value? (2 * cs.length + 2) (nesting - 1) (skipBlanks cs)
  let cs ← lineEnd? cs
  let root ← assignIn state.current path key v state.root
  return ({ state with root }, cs)

/-- A header after its first bracket, up to the end of its line. -/
def header? (state : State) (cs : List Char) : Option (State × List Char) :=
  match cs with
  | '[' :: cs => do
    let ((path, key), cs) ← key? cs
    let cs ← expect? ']' (← expect? ']' cs)
    let cs ← lineEnd? cs
    let root ← openRow path key state.root
    return (⟨root, path ++ [key]⟩, cs)
  | cs => do
    let ((path, key), cs) ← key? cs
    let cs ← expect? ']' cs
    let cs ← lineEnd? cs
    let root ← openTable path key state.root
    return (⟨root, path ++ [key]⟩, cs)

/-- The statements of a text. Each takes a character, so that `fuel` is enough if it is above the
length of the input. -/
def statements? : Nat → State → List Char → Option State
  | 0, _, _ => none
  | fuel + 1, state, cs =>
    match skipBlanks cs with
    | [] => some state
    | '#' :: rest => do statements? fuel state (← lineEnd? ('#' :: rest))
    | '[' :: rest => do
      let (state, cs) ← header? state rest
      statements? fuel state cs
    | c :: rest =>
      if c = '\n' ∨ c = '\r' then do statements? fuel state (← newline? (c :: rest))
      else do
        let (state, cs) ← assignment? state (c :: rest)
        statements? fuel state cs

/-- The input without the byte order mark at its beginning. -/
def skipMark : List Char → List Char
  | '\ufeff' :: cs => cs
  | cs => cs

/-- The root table of a text, if it is well formed. -/
def parse (text : String) : Option Entries :=
  let cs := skipMark text.toList
  (statements? (cs.length + 1) {} cs).map (·.root)

end ModifierFacts.Toml
