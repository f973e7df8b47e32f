import ModifierFacts.Json.Node

/-!
# Reading values out of a document

A `Json.Reader` takes a tree to a value or to the first thing that is wrong with it. Its first
argument is the number of arrays and objects that may still be entered; `Json.nesting` is that of a
whole document.

* simple values: `text`, `boolean`, `word`, `listOf`, `nullable`;
* names out of a fixed list: `variant`;
* `Json.decode` reads a text, after which nothing may follow.
-/

namespace ModifierFacts.Json

/-- A way to read values of a type out of trees. -/
abbrev Reader (α : Type) := Nat → Node → Except DecodeError α

/-- How many arrays and objects may enclose each other. -/
def nesting : Nat := 127

/-! ## 1. Mismatches -/

/-- What a number is called in messages. -/
def Number.found : Number → Found
  | integer i => .integer i
  | float x => .float x

/-- What a tree is called in messages; a tree that does not begin with a value is malformed. -/
def Node.found : Node → Except DecodeError Found
  | null => .ok .null
  | boolean b => .ok (.boolean b)
  | number n => .ok n.found
  | text s => .ok (.text s)
  | array _ _ => .ok .sequence
  | object _ _ => .ok .map
  | valueless | missing => .error .malformed

/-- The failure of a reader that expected something else. -/
def unexpected {α : Type} (v : Node) (expected : String) : Except DecodeError α := do
  let found ← v.found
  throw (.misfit (.invalidType found expected))

/-! ## 2. Simple values -/

/-- A text. -/
def text : Reader String
  | _, .text s => .ok s
  | _, v => unexpected v "a string"

/-- A truth value. -/
def boolean : Reader Bool
  | _, .boolean b => .ok b
  | _, v => unexpected v "a boolean"

/-- A whole number from zero up that fits into 64 bits. -/
def word (expected : String) : Reader UInt64
  | _, .number (.integer i) =>
    if 0 ≤ i then .ok (UInt64.ofNat i.toNat)
    else .error (.misfit (.invalidValue (.integer i) expected))
  | _, v => unexpected v expected

/-- A list of values. -/
def listOf {α : Type} (reader : Reader α) : Reader (List α)
  | room + 1, .array items closed => do
    let values ← items.mapM (reader room)
    if closed then return values else throw .malformed
  | 0, .array _ _ => .error .malformed
  | _, v => unexpected v "a sequence"

/-- A value, or `null` for none. -/
def nullable {α : Type} (reader : Reader α) : Reader (Option α)
  | _, .null => .ok none
  | room, v => (reader room v).map some

/-! ## 3. Names out of a list -/

/-- The value that a name stands for. An unknown name is the `fallback`, if there is one. -/
def named {α : Type} (known : List (String × α)) (fallback : Option α) (name : String) :
    Except DecodeError α :=
  match known.lookup name with
  | some a => .ok a
  | none =>
    match fallback with
    | some a => .ok a
    | none => .error (.misfit (.unknownVariant name (known.map (·.1))))

/-- A value that is chosen by a name: the bare name, or an object whose one key is the name. `bare`
takes the name alone, `payload` the name and the value of the member. -/
def chosen {α : Type} (bare : String → Except DecodeError α)
    (payload : String → Except DecodeError (Reader α)) : Reader α
  | _, .text name => bare name
  | room + 1, .object ((some name, v) :: rest) closed => do
    let reader ← payload name
    let a ← reader room v
    if rest.isEmpty && closed then return a else throw .malformed
  | _, _ => .error .malformed

/-- The payload of a name that has none. -/
def noPayload {α : Type} (a : α) : Reader α
  | _, .null => .ok a
  | _, v => unexpected v "unit"

/-- A name out of a list. -/
def variant {α : Type} (known : List (String × α)) (fallback : Option α) : Reader α :=
  chosen (named known fallback) fun name => (named known fallback name).map noPayload

/-! ## 4. Texts -/

/-- Reads a text as one value. -/
def decode {α : Type} (reader : Reader α) (s : String) : Except DecodeError α := do
  let document := Document.read s
  let a ← reader nesting document.root
  if document.ends then return a else throw .malformed

end ModifierFacts.Json
