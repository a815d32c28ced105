import Recast.Journal.Outcome
import Recast.Stack.Scan

/-!
# Attempts

An `Attempt` is an outcome on a limited stack: next to a fault in markup, any other `Failure` may
end it, and what was written before stays. `Attempt.ask` makes scans and gives an answer if none of
them fails.
-/

namespace Recast

/-- What a conversion wrote on a limited stack, and how it ended. -/
structure Attempt (α : Type) where
  journal : Journal
  result : Except Failure α

namespace Attempt

variable {α β : Type}

/-- Ends with a value and writes nothing. -/
def done (a : α) : Attempt α :=
  ⟨[], .ok a⟩

/-- Ends with a failure. -/
def fail (failure : Failure) : Attempt α :=
  ⟨[], .error failure⟩

/-- Goes on with the value of an attempt, unless it is a failure. -/
def andThen (first : Attempt α) (next : α → Attempt β) : Attempt β :=
  match first.result with
  | .error failure => ⟨first.journal, .error failure⟩
  | .ok a => ⟨first.journal ++ (next a).journal, (next a).result⟩

instance : Monad Attempt where
  pure := done
  bind := andThen

/-- An outcome as an attempt. -/
def ofOutcome (outcome : Outcome α) : Attempt α :=
  ⟨outcome.journal, outcome.result.mapError .markup⟩

/-- Makes scans with room for `limit` calls, and gives an answer if none of them fails. -/
def ask (limit : Nat) (scans : List Scan) (answer : Unit → Except MarkupFault α) : Attempt α :=
  match scans.findSome? (Scan.failure? limit) with
  | some failure => fail failure
  | none => ofOutcome (Outcome.ofExcept (answer ()))

/-- Looks keys up in a table, and fails at the first one that is not there. -/
def lookUp (keys : List Text) (table : List (Text × Text)) : Attempt Unit :=
  match keys.find? fun key => (table.lookup key).isNone with
  | some key => fail (.unknownKey key)
  | none => done ()

/-- The values of a list of attempts in order, up to the first failure. -/
def collect : List (Attempt α) → Attempt (List α)
  | [] => done []
  | first :: rest => do
    let a ← first
    let as ← collect rest
    return a :: as

end Attempt

end Recast
