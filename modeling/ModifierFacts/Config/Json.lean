import ModifierFacts.Config.Basic
import ModifierFacts.Json.Record
import ModifierFacts.Json.Value

/-!
# Configurations as documents

The same configuration as a document: both fields have a default, and the policy is a name.
-/

namespace ModifierFacts

open Json (Reader Record Value)

namespace FailurePolicy

/-- Reads a policy. -/
def reader : Reader FailurePolicy := Json.variant named none

/-- Writes a policy. -/
def toJson (p : FailurePolicy) : Value := .text p.tag

end FailurePolicy

namespace Config

/-- A configuration on the way in. -/
structure Draft where
  failurePolicy : Option FailurePolicy := none
  threads : Option (Option UInt64) := none

/-- A configuration as a record. -/
def record : Record Draft Config where
  title := "struct ExtractorConfig"
  fields := [
    .of "failure-policy" true (·.failurePolicy) (fun x d => { d with failurePolicy := some x })
      FailurePolicy.reader,
    .of "threads" true (·.threads) (fun x d => { d with threads := some x })
      (Json.nullable (Json.word "usize"))]
  blank := {}
  finish d := .ok {
    failurePolicy := d.failurePolicy.getD .abortUnit
    threads := d.threads.getD none }

/-- Reads a configuration. -/
def reader : Reader Config := record.reader

/-- Writes a configuration. -/
def toJson (c : Config) : Value :=
  .object [("failure-policy", c.failurePolicy.toJson),
    ("threads", .ofOption (fun n => .natural n.toNat) c.threads)]

end Config

end ModifierFacts
