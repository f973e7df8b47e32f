import ModifierFacts.Json.Error
import ModifierFacts.Json.Token

/-!
# The structure of a document

`Json.Node` is what can be made out of a text: a value tree, which may stop where the text stops
being a document. Whoever reads a value out of it walks it in document order and so meets the first
fault first, be it a place where the text breaks off or a value that does not fit.

* `Node.missing` stands where a value was due and none could be read; an array or object that did
  not end with its bracket is not `closed`.
* `Json.Progress` is the state of the assembly of a tree from tokens, `Progress.step` takes one
  token in, and `Document.read` runs it over a text.
* `Node.isWhole` says that a tree has no break, `Node.isSound` that moreover each of its literals
  stands for something and it does not nest too deep.
-/

namespace ModifierFacts.Json

/-! ## 1. Trees -/

/-- A document, as far as it can be made out. An array or object is `closed` if its elements end
with its bracket, and not with the end of the text or something that cannot stand there. The key of
a member is `none` if its literal stands for nothing. -/
inductive Node where
  | null
  | boolean (b : Bool)
  | number (n : Number)
  | text (s : String)
  /-- A literal of the right form that stands for nothing. -/
  | valueless
  /-- A value was due and none could be read. -/
  | missing
  | array (items : List Node) (closed : Bool)
  | object (members : List (Option String × Node)) (closed : Bool)

mutual

/-- Has the tree no break? Its literals are not looked at. -/
def Node.isWhole : Node → Bool
  | .missing => false
  | .array items closed => areWhole items && closed
  | .object members closed => membersWhole members && closed
  | .null | .boolean _ | .number _ | .text _ | .valueless => true

/-- Has none of the trees a break? -/
def areWhole : List Node → Bool
  | [] => true
  | v :: vs => v.isWhole && areWhole vs

/-- Has no value of the members a break? -/
def membersWhole : List (Option String × Node) → Bool
  | [] => true
  | (_, v) :: ms => v.isWhole && membersWhole ms

end

mutual

/-- Can the tree be read to its end: does it have no break, does every literal stand for something,
and do at most `room` arrays and objects enclose each other? -/
def Node.isSound (room : Nat) : Node → Bool
  | .missing | .valueless => false
  | .array items closed => 0 < room && areSound (room - 1) items && closed
  | .object members closed => 0 < room && membersSound (room - 1) members && closed
  | .null | .boolean _ | .number _ | .text _ => true

/-- Can all the trees be read to their end? -/
def areSound (room : Nat) : List Node → Bool
  | [] => true
  | v :: vs => v.isSound room && areSound room vs

/-- Can all keys and values be read to their end? -/
def membersSound (room : Nat) : List (Option String × Node) → Bool
  | [] => true
  | (key, v) :: ms => key.isSome && v.isSound room && membersSound room ms

end

/-! ## 2. Assembly -/

/-- An array or object whose closing bracket has not come yet, with the elements so far, the last
one first. The key is that of a member whose value is being read. -/
inductive Frame where
  | array (items : List Node)
  | object (members : List (Option String × Node)) (key : Option String)

/-- What has been read, and what is due next. The frames enclose each other, the innermost first. -/
inductive Progress where
  /-- A value. -/
  | value (outer : List Frame)
  /-- A first item, or the end of the array. -/
  | firstItem (outer : List Frame)
  /-- A first key, or the end of the object. -/
  | firstKey (outer : List Frame)
  /-- A key, after a comma. -/
  | nextKey (members : List (Option String × Node)) (outer : List Frame)
  /-- The colon after a key. -/
  | colon (members : List (Option String × Node)) (key : Option String) (outer : List Frame)
  /-- A comma, or the end of the array. -/
  | nextItem (items : List Node) (outer : List Frame)
  /-- A comma, or the end of the object. -/
  | nextMember (members : List (Option String × Node)) (outer : List Frame)
  /-- Nothing: the document is complete. -/
  | complete (root : Node)
  /-- Nothing more is read. -/
  | stopped (root : Node)

namespace Progress

/-- A value has been read. -/
def put (v : Node) : List Frame → Progress
  | [] => complete v
  | .array items :: outer => nextItem (v :: items) outer
  | .object members key :: outer => nextMember ((key, v) :: members) outer

/-- The tree in which `v` is the last thing that could be made out. -/
def abandon (v : Node) : List Frame → Node
  | [] => v
  | .array items :: outer => abandon (.array (v :: items).reverse false) outer
  | .object members key :: outer => abandon (.object ((key, v) :: members).reverse false) outer

/-- The tree of a text that ends here. -/
def root : Progress → Node
  | value [] => .missing
  | value (.array items :: outer) => abandon (.array items.reverse false) outer
  | value (.object members key :: outer) =>
    abandon (.object ((key, .missing) :: members).reverse false) outer
  | firstItem outer => abandon (.array [] false) outer
  | firstKey outer => abandon (.object [] false) outer
  | nextKey members outer => abandon (.object members.reverse false) outer
  | colon members key outer =>
    abandon (.object ((key, .missing) :: members).reverse false) outer
  | nextItem items outer => abandon (.array items.reverse false) outer
  | nextMember members outer => abandon (.object members.reverse false) outer
  | complete v => v
  | stopped v => v

/-- A value begins, or the assembly stops. -/
def beginValue (outer : List Frame) : Token → Progress
  | .null => put .null outer
  | .boolean b => put (.boolean b) outer
  | .number (some n) => put (.number n) outer
  | .text (some s) => put (.text s) outer
  | .number none | .text none => put .valueless outer
  | .openArray => firstItem outer
  | .openObject => firstKey outer
  | .closeArray | .closeObject | .comma | .colon | .stray => stopped (value outer).root

/-- A key is due: a text, or the assembly stops. -/
def beginKey (members : List (Option String × Node)) (outer : List Frame) : Token → Progress
  | .text key => colon members key outer
  | _ => stopped (nextKey members outer).root

/-- Takes one token in. -/
def step (p : Progress) (t : Token) : Progress :=
  match p, t with
  | value outer, t => beginValue outer t
  | firstItem outer, .closeArray => put (.array [] true) outer
  | firstItem outer, t => beginValue (.array [] :: outer) t
  | firstKey outer, .closeObject => put (.object [] true) outer
  | firstKey outer, t => beginKey [] outer t
  | nextKey members outer, t => beginKey members outer t
  | colon members key outer, .colon => value (.object members key :: outer)
  | nextItem items outer, .comma => value (.array items :: outer)
  | nextItem items outer, .closeArray => put (.array items.reverse true) outer
  | nextMember members outer, .comma => nextKey members outer
  | nextMember members outer, .closeObject => put (.object members.reverse true) outer
  | p, _ => stopped p.root

end Progress

/-! ## 3. Documents -/

/-- A text as a document: its tree, and whether the text ends with it. -/
structure Document where
  root : Node
  ends : Bool

namespace Document

/-- The document that an assembly leads to. -/
def ofProgress : Progress → Document
  | .complete v => ⟨v, true⟩
  | p => ⟨p.root, false⟩

/-- The document of a token sequence. -/
def ofTokens (ts : List Token) : Document := ofProgress (ts.foldl Progress.step (.value []))

/-- Reads a text as a document. -/
def read (text : String) : Document := ofTokens (tokens text.toList)

end Document

end ModifierFacts.Json
