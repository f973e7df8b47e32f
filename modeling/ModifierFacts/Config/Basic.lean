import ModifierFacts.Extraction.Run
import ModifierFacts.Json.Error
import ModifierFacts.Toml.Document

/-!
# Configuration

What a run can be told: what to do about a unit that cannot be classified, and how many workers to
use. `Config.ofTable` reads it from the root table of a configuration text, `Config.parse` from the
text itself. Keys that are not known are passed over; an empty text is the default configuration.
-/

namespace ModifierFacts

/-! ## 1. The configuration -/

namespace FailurePolicy

/-- The policies under their names. -/
def named : List (String × FailurePolicy) := [("abort-unit", .abortUnit), ("abort-run", .abortRun)]

/-- The name of a policy. -/
def tag : FailurePolicy → String
  | abortUnit => "abort-unit"
  | abortRun => "abort-run"

end FailurePolicy

/-- The configuration of a run. -/
structure Config where
  failurePolicy : FailurePolicy := .abortUnit
  /-- The number of workers; `none` leaves the choice to the machine. -/
  threads : Option UInt64 := none
  deriving DecidableEq, Repr

/-! ## 2. Errors -/

/-- Why a table is no configuration. -/
inductive ConfigMisfit where
  /-- A value does not fit. -/
  | misfit (reason : Misfit)
  /-- The policy is neither a name nor a table. -/
  | notNameOrTable
  /-- The policy is a table without a key. -/
  | noElement
  /-- The policy is a table with more than one key. -/
  | manyElements
  /-- The payload of a policy is a table with keys. -/
  | tableNotEmpty
  /-- The payload of a policy is an array of tables. -/
  | rowsNotEmpty
  /-- The payload of a policy is a simple value. -/
  | notTable (found : String)

/-- The text of a misfit. -/
def ConfigMisfit.message : ConfigMisfit → String
  | misfit reason => reason.message .plain
  | notNameOrTable => "wanted string or table"
  | noElement => "wanted exactly 1 element, found 0 elements"
  | manyElements => "wanted exactly 1 element, more than 1 element"
  | tableNotEmpty => "expected empty table"
  | rowsNotEmpty => "expected empty array"
  | notTable found => "expected table, found " ++ found

/-- Why a configuration cannot be had. -/
inductive ConfigError where
  /-- The file cannot be read. -/
  | unreadable (path reason : String)
  /-- The text is not well formed. -/
  | malformed
  /-- The text is well formed and no configuration. -/
  | unfit (reason : ConfigMisfit)

namespace ConfigError

/-- The text of the error. -/
def message : ConfigError → String
  | unreadable path reason => "cannot read config " ++ path ++ ": " ++ reason
  | malformed => "invalid config: malformed text"
  | unfit reason => "invalid config: " ++ reason.message

/-- The text of the error followed by that of its cause. -/
def chain : ConfigError → List String
  | unreadable path reason => [message (unreadable path reason), reason]
  | malformed => [message malformed, "malformed text"]
  | unfit reason => [message (unfit reason), reason.message]

end ConfigError

/-! ## 3. Reading -/

namespace Toml

/-- What a simple value is called where a table was expected. -/
def Scalar.label : Scalar → String
  | text _ => "string"
  | integer _ => "integer"
  | float _ => "float"
  | boolean _ => "boolean"
  | datetime => "datetime"

/-- What an item is called in messages. A date is spelled out like a table of its parts. -/
def Item.found : Item → Found
  | scalar (.text s) => .text s
  | scalar (.integer i) => .integer i
  | scalar (.float x) => .float x
  | scalar (.boolean b) => .boolean b
  | scalar .datetime => .map
  | array _ | rows _ => .sequence
  | inline _ | table _ _ => .map

end Toml

namespace FailurePolicy

/-- The policy of a name. -/
def ofName (name : String) : Except ConfigMisfit FailurePolicy :=
  match named.lookup name with
  | some policy => .ok policy
  | none => .error (.misfit (.unknownVariant name (named.map (·.1))))

/-- The payload of a policy, which has to be empty. -/
def emptyPayload : Toml.Item → Except ConfigMisfit Unit
  | .array [] | .inline [] | .table _ [] | .rows [] => .ok ()
  | .array _ | .inline _ | .table _ _ => .error .tableNotEmpty
  | .rows _ => .error .rowsNotEmpty
  | .scalar s => .error (.notTable s.label)

/-- The policy that one key of a table names. -/
def ofEntry (entry : String × Toml.Item) : Except ConfigMisfit FailurePolicy := do
  let policy ← ofName entry.1
  emptyPayload entry.2
  return policy

/-- Reads a policy: its name, or a table with the name as key. -/
def ofItem : Toml.Item → Except ConfigMisfit FailurePolicy
  | .scalar (.text name) => ofName name
  | .inline [] | .table _ [] => .error .noElement
  | .inline [entry] | .table _ [entry] => ofEntry entry
  | .inline _ | .table _ _ => .error .manyElements
  | .scalar _ | .array _ | .rows _ => .error .notNameOrTable

end FailurePolicy

namespace Config

/-- Reads a number of workers. -/
def threadsOfItem : Toml.Item → Except ConfigMisfit UInt64
  | .scalar (.integer i) =>
    if 0 ≤ i then .ok (UInt64.ofNat i.toNat)
    else .error (.misfit (.invalidValue (.integer i) "usize"))
  | item => .error (.misfit (.invalidType item.found "usize"))

/-- Takes one key of the root table in. -/
def addEntry (c : Config) (entry : String × Toml.Item) : Except ConfigMisfit Config := do
  if entry.1 = "failure-policy" then
    return { c with failurePolicy := ← FailurePolicy.ofItem entry.2 }
  else if entry.1 = "threads" then
    return { c with threads := some (← threadsOfItem entry.2) }
  else return c

/-- Reads a configuration from a root table, key by key. -/
def ofTable (entries : Toml.Entries) : Except ConfigMisfit Config :=
  entries.foldlM addEntry {}

/-- Reads a configuration text. -/
def parse (text : String) : Except ConfigError Config :=
  match Toml.parse text with
  | none => .error .malformed
  | some entries =>
    match ofTable entries with
    | .ok config => .ok config
    | .error reason => .error (.unfit reason)

end Config

end ModifierFacts
