import ModifierFacts.Json.Read

/-!
# Reading records

A record is read from an object or from an array. A `Json.Record` describes it by its fields in
declaration order; the values read so far are kept in a draft of type `δ`, one place per field.

* From an object the members are taken in document order: a known key given twice is refused, an
  unknown one is passed over. Missing fields are looked for at the end.
* From an array the items are the fields in order; fields with a default may be cut off at the end.
-/

namespace ModifierFacts.Json

/-- One field of a record, as a place in a draft. -/
structure Field (δ : Type) where
  name : String
  /-- Has the place been filled? -/
  isFilled : δ → Bool
  /-- Reads the value into its place. -/
  fill : Nat → Node → δ → Except DecodeError δ
  /-- May the field be cut off from an array? -/
  hasDefault : Bool

/-- A field whose place is an optional value. -/
def Field.of {δ β : Type} (name : String) (hasDefault : Bool) (get : δ → Option β)
    (put : β → δ → δ) (reader : Reader β) : Field δ where
  name
  isFilled d := (get d).isSome
  fill room v d := (reader room v).map (put · d)
  hasDefault

/-- The description of a record of type `α` by a draft of type `δ`. -/
structure Record (δ α : Type) where
  /-- What the record is called in messages. -/
  title : String
  fields : List (Field δ)
  /-- The draft without a value. -/
  blank : δ
  /-- Completes a draft by defaults, or reports the first field that is missing. -/
  finish : δ → Except DecodeError α

/-- The value of a field that has no default. -/
def required {β : Type} (name : String) : Option β → Except DecodeError β
  | some b => .ok b
  | none => .error (.misfit (.missingField name))

namespace Record

variable {δ α : Type}

/-! ## 1. Objects -/

/-- Takes one member of an object in. -/
def addMember (r : Record δ α) (room : Nat) (draft : δ) :
    Option String × Node → Except DecodeError δ
  | (none, _) => .error .malformed
  | (some key, v) =>
    match r.fields.find? (·.name == key) with
    | some field =>
      if field.isFilled draft then .error (.misfit (.duplicateField key))
      else field.fill room v draft
    | none => if v.isWhole then .ok draft else .error .malformed

/-- Reads the record from the members of an object. -/
def ofMembers (r : Record δ α) (room : Nat) (members : List (Option String × Node)) :
    Except DecodeError δ :=
  members.foldlM (r.addMember room) r.blank

/-! ## 2. Arrays -/

/-- What is left to do when the items of an array run out: fields with a default are skipped, and
the first one without is reported. -/
def cutOff (r : Record δ α) (fields : List (Field δ)) (count : Nat) : Except DecodeError Unit :=
  if fields.all (·.hasDefault) then .ok ()
  else .error (.misfit (.invalidLength count (r.title ++ " with " ++ elements r.fields.length)))

/-- Reads the items of an array into the fields in order. `count` items have been read before;
`overlong` is the failure when items are left over. -/
def addItems (r : Record δ α) (room : Nat) (overlong : DecodeError) (closed : Bool) :
    List (Field δ) → Nat → List Node → δ → Except DecodeError δ
  | field :: fields, count, v :: vs, draft => do
    let draft ← field.fill room v draft
    r.addItems room overlong closed fields (count + 1) vs draft
  | fields, count, [], draft => do
    if closed then
      r.cutOff fields count
      return draft
    else throw .malformed
  | [], _, _ :: _, _ => .error overlong

/-! ## 3. Either -/

/-- Reads the record. -/
def reader (r : Record δ α) : Reader α
  | room + 1, .object members closed => do
    let draft ← r.ofMembers room members
    if closed then r.finish draft else throw .malformed
  | room + 1, .array items closed => do
    let draft ← r.addItems room .malformed closed r.fields 0 items r.blank
    r.finish draft
  | 0, .object _ _ | 0, .array _ _ => .error .malformed
  | _, v => unexpected v r.title

end Record

end ModifierFacts.Json
