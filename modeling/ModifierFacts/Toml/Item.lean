/-!
# Tables of a configuration text

* `Toml.Scalar` is a value without parts, `Toml.Item` anything that can stand under a key.
* `Toml.Entries` are the keys of a table in the order of their first mention.
* `Toml.descend` walks down a path of keys and makes the tables on it that are not there yet;
  `openTable`, `openRow` and `assign` are the three statements of the language on top of it. They
  refuse to define anything twice and to reach into what was closed.
-/

namespace ModifierFacts.Toml

/-! ## 1. Items -/

/-- A value without parts. -/
inductive Scalar where
  | text (s : String)
  | integer (i : Int)
  | float (x : Float)
  | boolean (b : Bool)
  /-- A date, a time, or both. Nothing but its form is looked at. -/
  | datetime

/-- How a table came to be. -/
inductive Origin where
  /-- It has a header of its own. -/
  | header
  /-- A header further down went through it. -/
  | implied
  /-- An assignment to a dotted key went through it. -/
  | dotted
  deriving DecidableEq, Repr

/-- Anything under a key. -/
inductive Item where
  | scalar (s : Scalar)
  | array (items : List Item)
  /-- A table between braces; it is closed. -/
  | inline (entries : List (String × Item))
  | table (origin : Origin) (entries : List (String × Item))
  /-- The tables under a doubly bracketed header. The last one is open. -/
  | rows (tables : List (List (String × Item)))

/-- The keys of a table with their items. -/
abbrev Entries := List (String × Item)

/-- Puts another item under a key that is there. -/
def replace (entries : Entries) (key : String) (item : Item) : Entries :=
  entries.map fun e => if e.1 = key then (key, item) else e

/-! ## 2. Statements -/

/-- Changes the table at the end of a path. Tables on the way are made if need be, by `make`; of an
array of tables the last one is meant. An assignment does not go through a table that has a
header. -/
def descend (make : Origin) (change : Origin → Entries → Option Entries) :
    List String → Origin → Entries → Option Entries
  | [], origin, entries => change origin entries
  | key :: path, _, entries =>
    match entries.lookup key with
    | none => do
      let inner ← descend make change path make []
      return entries ++ [(key, .table make inner)]
    | some (.table origin inner) =>
      if make = .dotted ∧ origin = .header then none
      else do
        let inner ← descend make change path origin inner
        return replace entries key (.table origin inner)
    | some (.rows tables) =>
      match tables.reverse with
      | [] => none
      | last :: before => do
        let last ← descend make change path .header last
        return replace entries key (.rows (last :: before).reverse)
    | some (.scalar _) | some (.array _) | some (.inline _) => none

/-- A header: the table may be one that was only implied so far. -/
def openTable (path : List String) (key : String) (root : Entries) : Option Entries :=
  descend .implied (fun _ entries =>
    match entries.lookup key with
    | none => some (entries ++ [(key, .table .header [])])
    | some (.table .implied inner) =>
      some (entries.filter (·.1 != key) ++ [(key, .table .header inner)])
    | some _ => none) path .header root

/-- A doubly bracketed header: one more row. -/
def openRow (path : List String) (key : String) (root : Entries) : Option Entries :=
  descend .implied (fun _ entries =>
    match entries.lookup key with
    | none => some (entries ++ [(key, .rows [[]])])
    | some (.rows tables) => some (replace entries key (.rows (tables ++ [[]])))
    | some _ => none) path .header root

/-- An assignment to a dotted key inside a table: the path through it, the last part and the
item. A path may only end in a table that dotted keys made. -/
def assign (path : List String) (key : String) (item : Item) (entries : Entries) :
    Option Entries :=
  descend .dotted (fun origin entries =>
    if !path.isEmpty && origin != .dotted then none
    else
      match entries.lookup key with
      | none => some (entries ++ [(key, item)])
      | some _ => none) path .header entries

/-- An assignment inside the table that the last header named. -/
def assignIn (table path : List String) (key : String) (item : Item) (root : Entries) :
    Option Entries :=
  descend .implied (fun _ entries => assign path key item entries) table .header root

end ModifierFacts.Toml
