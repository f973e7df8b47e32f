import ModifierFacts.Decimal.Layout
import ModifierFacts.Text.Quoted

/-!
# What can be wrong with a document

A document may be malformed, which is not explained further, or well formed as far as it was read
but unfit for the value it is read as. `Misfit` lists the ways of being unfit, `Misfit.message` is
their wording. `Found` says what stood in the place of what was expected.
-/

namespace ModifierFacts

/-! ## 1. What was found -/

/-- The sort of value that a message names, with the value itself where it is a simple one. -/
inductive Found where
  | null
  | boolean (b : Bool)
  | integer (i : Int)
  | float (x : Float)
  | text (s : String)
  | sequence
  | map
  /-- A bare name where one with a payload was expected. -/
  | bareName

/-- The wording of what was found. The layout is that of the document's format. -/
def Found.describe (layout : Decimal.Layout) : Found → String
  | null => "null"
  | boolean b => "boolean `" ++ (if b then "true" else "false") ++ "`"
  | integer i => s!"integer `{i}`"
  | float x => "floating point `" ++ layout.text x ++ "`"
  | text s => "string " ++ Text.quoted s
  | sequence => "sequence"
  | map => "map"
  | bareName => "unit variant"

/-! ## 2. Misfits -/

/-- Why a well-formed document does not fit. -/
inductive Misfit where
  | invalidType (found : Found) (expected : String)
  | invalidValue (found : Found) (expected : String)
  | invalidLength (length : Nat) (expected : String)
  | unknownVariant (name : String) (known : List String)
  | missingField (name : String)
  | duplicateField (name : String)

/-- A count of elements. -/
def elements (n : Nat) : String := if n = 1 then "1 element" else s!"{n} elements"

/-- Names as alternatives: two are joined, more are listed. -/
def alternatives (names : List String) : String :=
  match names.map fun n => "`" ++ n ++ "`" with
  | [a, b] => a ++ " or " ++ b
  | [a] => a
  | quoted => "one of " ++ ", ".intercalate quoted

/-- The text of a misfit. -/
def Misfit.message (layout : Decimal.Layout) : Misfit → String
  | invalidType found expected =>
    "invalid type: " ++ found.describe layout ++ ", expected " ++ expected
  | invalidValue found expected =>
    "invalid value: " ++ found.describe layout ++ ", expected " ++ expected
  | invalidLength length expected => s!"invalid length {length}, expected {expected}"
  | unknownVariant name known => "unknown variant `" ++ name ++ "`, expected " ++ alternatives known
  | missingField name => "missing field `" ++ name ++ "`"
  | duplicateField name => "duplicate field `" ++ name ++ "`"

/-! ## 3. Errors -/

/-- The failure of reading a document. -/
inductive DecodeError where
  | malformed
  | misfit (reason : Misfit)

end ModifierFacts
