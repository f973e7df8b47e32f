import ModifierFacts.Fact.Basic

/-!
# Fact sinks

A sink takes facts, one call at a time, and may refuse any of them. It only ever appends.

* `SinkCall` is what a sink can be asked to do, `Reply` what comes of it.
* `FactSink` is a sink as a reaction: from its state and a call to a reply and the next state. A
  sink with a reaction that depends on all earlier calls is one whose state remembers them.
* `FactSink.memory` keeps the facts it takes; `FactSink.guarded` puts a refusal in front of another
  sink.
-/

namespace ModifierFacts

/-! ## 1. Calls and replies -/

/-- Why a sink does not take a fact. -/
inductive FactError where
  /-- Reading or writing failed, in the words of the device. -/
  | io (reason : String)
  /-- A writer crashed in the middle of an earlier call. -/
  | poisoned
  deriving DecidableEq, Repr

namespace FactError

/-- The text of the error. -/
def message : FactError → String
  | io reason => "fact sink I/O error: " ++ reason
  | poisoned => "fact sink poisoned by a panicking writer"

/-- The text of the error followed by those of its causes. -/
def chain : FactError → List String
  | io reason => [message (io reason), reason]
  | poisoned => [message poisoned]

end FactError

/-- What a sink can be asked to do. -/
inductive SinkCall where
  /-- Take a fact. -/
  | record (fact : Fact)
  /-- Bring to its destination whatever is held back. -/
  | flush
  deriving DecidableEq, Repr

/-- What comes of a call. -/
inductive Reply where
  | accepted
  | refused (error : FactError)
  /-- The call did not return. -/
  | crashed
  deriving DecidableEq, Repr

/-! ## 2. Sinks -/

/-- A sink as a reaction on states of type `σ`. -/
structure FactSink (σ : Type) where
  reply : σ → SinkCall → Reply × σ

namespace FactSink

/-- The sink that keeps every fact, in the order of arrival. -/
def memory : FactSink (List Fact) where
  reply
    | facts, .record fact => (.accepted, facts ++ [fact])
    | facts, .flush => (.accepted, facts)

/-- A sink behind a refusal: a call that is refused does not reach it. -/
def guarded {σ : Type} (refusal : SinkCall → Option FactError) (sink : FactSink σ) :
    FactSink σ where
  reply state call :=
    match refusal call with
    | some error => (.refused error, state)
    | none => sink.reply state call

end FactSink

end ModifierFacts
