/-!
# Blanks, texts and keys of a configuration text

A `Toml.Scan` reads from the beginning of the input and returns what is left, or fails. There are
four forms of texts: between quotes with escapes, between apostrophes without, and both of these
over several lines between triple marks.
-/

namespace ModifierFacts.Toml

/-- A way to read from the beginning of the input. -/
abbrev Scan (α : Type) := List Char → Option (α × List Char)

/-! ## 1. Blanks and line ends -/

/-- A blank within a line. -/
def isBlank (c : Char) : Bool := c = ' ' || c = '\t'

/-- A character that comments and texts may contain as it is: no control character but the tab. -/
def isPlain (c : Char) : Bool := c = '\t' || (0x20 ≤ c.toNat && c.toNat ≠ 0x7f)

/-- The input without the blanks at its beginning. -/
def skipBlanks (cs : List Char) : List Char := cs.dropWhile isBlank

/-- The input after a line feed, or after a carriage return and a line feed. -/
def newline? : List Char → Option (List Char)
  | '\n' :: cs => some cs
  | '\r' :: '\n' :: cs => some cs
  | _ => none

/-- The input after a comment, if one stands here; its line end is left. -/
def skipComment : List Char → List Char
  | '#' :: cs => cs.dropWhile isPlain
  | cs => cs

/-- The input after the end of a line, before which blanks and a comment may stand. The end of the
input ends a line too. -/
def lineEnd? (cs : List Char) : Option (List Char) :=
  match skipComment (skipBlanks cs) with
  | [] => some []
  | cs => newline? cs

/-- Skips blanks, line ends and comments, as they may stand between the items of an array. -/
def skipSpaceFrom (inComment : Bool) : List Char → Option (List Char)
  | [] => some []
  | '\n' :: cs => skipSpaceFrom false cs
  | '\r' :: '\n' :: cs => skipSpaceFrom false cs
  | c :: cs =>
    if inComment then if isPlain c then skipSpaceFrom true cs else none
    else if isBlank c then skipSpaceFrom false cs
    else if c = '#' then skipSpaceFrom true cs
    else if c = '\r' then none
    else some (c :: cs)

/-- Skips blanks, line ends and comments. -/
def skipSpace (cs : List Char) : Option (List Char) := skipSpaceFrom false cs

/-! ## 2. Texts on one line -/

/-- The value of hexadecimal digits. -/
def hexNumber? (cs : List Char) : Option Nat :=
  cs.foldlM (fun n c =>
    if c.isDigit then some (16 * n + (c.toNat - '0'.toNat))
    else if 'a' ≤ c ∧ c ≤ 'f' then some (16 * n + (c.toNat - 'a'.toNat + 10))
    else if 'A' ≤ c ∧ c ≤ 'F' then some (16 * n + (c.toNat - 'A'.toNat + 10))
    else none) 0

/-- The character that an escape gives by its number. -/
def numbered? (digits : List Char) : Option Char := do
  let n ← hexNumber? digits
  if h : n.isValidChar then some (Char.ofNatAux n h) else none

/-- The character after a backslash, for the escapes of one character. -/
def simpleEscape? : Char → Option Char
  | 'b' => some '\x08'
  | 't' => some '\t'
  | 'n' => some '\n'
  | 'f' => some '\x0c'
  | 'r' => some '\r'
  | '"' => some '"'
  | '\\' => some '\\'
  | _ => none

/-- Puts a character in front of what a scan read. -/
def consScan (c : Char) (r : Option (List Char × List Char)) : Option (List Char × List Char) :=
  r.map fun (cs, rest) => (c :: cs, rest)

/-- A text between quotes, after the first. -/
def basicBody : Scan (List Char)
  | [] => none
  | '"' :: rest => some ([], rest)
  | '\\' :: 'u' :: a :: b :: c :: d :: rest => do
    consScan (← numbered? [a, b, c, d]) (basicBody rest)
  | '\\' :: 'U' :: a :: b :: c :: d :: e :: f :: g :: h :: rest => do
    consScan (← numbered? [a, b, c, d, e, f, g, h]) (basicBody rest)
  | '\\' :: e :: rest => do consScan (← simpleEscape? e) (basicBody rest)
  | c :: rest => if isPlain c && c != '\\' then consScan c (basicBody rest) else none

/-- A text between apostrophes, after the first. -/
def literalBody : Scan (List Char)
  | [] => none
  | '\x27' :: rest => some ([], rest)
  | c :: rest => if isPlain c then consScan c (literalBody rest) else none

/-! ## 3. Texts over several lines -/

/-- Where a text between triple quotes stands. -/
inductive BasicMode where
  /-- In the text. -/
  | within
  /-- After a backslash at the end of a line, before the line end. -/
  | lineEnd
  /-- After that line end: blanks and further line ends are dropped. -/
  | trimming
  deriving DecidableEq

/-- A text between triple quotes, after the first three and their line end. Up to two quotes may
stand before the closing three. -/
def basicLines : BasicMode → Scan (List Char)
  | _, [] => none
  | .lineEnd, '\n' :: rest => basicLines .trimming rest
  | .lineEnd, '\r' :: '\n' :: rest => basicLines .trimming rest
  | .lineEnd, c :: rest => if isBlank c then basicLines .lineEnd rest else none
  | .trimming, '\n' :: rest => basicLines .trimming rest
  | .trimming, '\r' :: '\n' :: rest => basicLines .trimming rest
  | .trimming, ' ' :: rest => basicLines .trimming rest
  | .trimming, '\t' :: rest => basicLines .trimming rest
  | _, '"' :: '"' :: '"' :: '"' :: '"' :: rest => some (['"', '"'], rest)
  | _, '"' :: '"' :: '"' :: '"' :: rest => some (['"'], rest)
  | _, '"' :: '"' :: '"' :: rest => some ([], rest)
  | _, '\n' :: rest => consScan '\n' (basicLines .within rest)
  | _, '\r' :: '\n' :: rest => consScan '\n' (basicLines .within rest)
  | _, '\\' :: 'u' :: a :: b :: c :: d :: rest => do
    consScan (← numbered? [a, b, c, d]) (basicLines .within rest)
  | _, '\\' :: 'U' :: a :: b :: c :: d :: e :: f :: g :: h :: rest => do
    consScan (← numbered? [a, b, c, d, e, f, g, h]) (basicLines .within rest)
  | _, '\\' :: e :: rest =>
    match simpleEscape? e with
    | some c => consScan c (basicLines .within rest)
    | none => basicLines .lineEnd (e :: rest)
  | _, c :: rest => if isPlain c && c != '\\' then consScan c (basicLines .within rest) else none

/-- A text between triple apostrophes, after the first three and their line end. -/
def literalLines : Scan (List Char)
  | [] => none
  | '\x27' :: '\x27' :: '\x27' :: '\x27' :: '\x27' :: rest => some (['\x27', '\x27'], rest)
  | '\x27' :: '\x27' :: '\x27' :: '\x27' :: rest => some (['\x27'], rest)
  | '\x27' :: '\x27' :: '\x27' :: rest => some ([], rest)
  | '\n' :: rest => consScan '\n' (literalLines rest)
  | '\r' :: '\n' :: rest => consScan '\n' (literalLines rest)
  | c :: rest => if isPlain c then consScan c (literalLines rest) else none

/-- The input without the line end at its beginning. -/
def skipNewline (cs : List Char) : List Char := (newline? cs).getD cs

/-- The text of what a scan read. -/
def asText (r : Option (List Char × List Char)) : Option (String × List Char) :=
  r.map fun (cs, rest) => (String.ofList cs, rest)

/-- A text on one line. -/
def lineText? : Scan String
  | '"' :: rest => asText (basicBody rest)
  | '\x27' :: rest => asText (literalBody rest)
  | _ => none

/-- A text of any form. -/
def text? : Scan String
  | '"' :: '"' :: '"' :: rest => asText (basicLines .within (skipNewline rest))
  | '\x27' :: '\x27' :: '\x27' :: rest => asText (literalLines (skipNewline rest))
  | cs => lineText? cs

/-! ## 4. Keys -/

/-- A character of a key without quotes. -/
def isKeyChar (c : Char) : Bool := c.isAlphanum || c = '-' || c = '_'

/-- One part of a key. -/
def keyPart? (cs : List Char) : Option (String × List Char) :=
  match cs with
  | '"' :: _ | '\x27' :: _ => lineText? cs
  | _ =>
    match cs.takeWhile isKeyChar with
    | [] => none
    | part => some (String.ofList part, cs.dropWhile isKeyChar)

/-- The parts of a dotted key with blanks around them. Every part but the last takes two
characters, so `fuel` is enough if it is the length of the input. -/
def keyParts? : Nat → Scan (List String)
  | 0, _ => none
  | fuel + 1, cs => do
    let (part, cs) ← keyPart? (skipBlanks cs)
    match skipBlanks cs with
    | '.' :: cs => do
      let (parts, cs) ← keyParts? fuel cs
      return (part :: parts, cs)
    | cs => return ([part], cs)

/-- How deep keys and values may nest, exclusively. -/
def nesting : Nat := 80

/-- A dotted key: the parts before the last one, and the last one. -/
def key? (cs : List Char) : Option ((List String × String) × List Char) := do
  let (parts, cs) ← keyParts? cs.length cs
  if parts.length < nesting then
    return ((parts.dropLast, ← parts.getLast?), cs)
  else none

end ModifierFacts.Toml
