import Recast.Journal.Warning
import Recast.Scan.Fault

/-!
# Outcomes

A conversion writes a journal of events while it works, and ends with a value or with a fault. An
`Outcome` holds both: what was written before a fault is kept. Outcomes are put together with `do`,
and `Outcome.collect` runs a list of them in order.
-/

namespace Recast

/-- What is known of a component after its conversion. -/
structure ComponentRecord where
  name : Text
  props : List Text
  /-- The state entries, each with its type in brackets. -/
  state : List Text
  /-- The summaries of effects and lifecycle methods. -/
  effects : List Text
  isClass : Bool
  deriving DecidableEq, Repr

/-- An entry of the journal. -/
inductive Event where
  | warned (warning : Warning)
  | droppedAttribute (name : Text)
  | madeCall (tag constructor : Text)
  | extractedState (description : Text)
  | startedFunctional (name : Text)
  | startedClass (name : Text)
  | recorded (component : ComponentRecord)
  deriving DecidableEq, Repr

/-- The entries of a conversion in order. -/
abbrev Journal := List Event

/-- The warnings of a journal. -/
def Journal.warnings (journal : Journal) : List Warning :=
  journal.filterMap fun
    | .warned warning => some warning
    | _ => none

/-- The components of a journal. -/
def Journal.components (journal : Journal) : List ComponentRecord :=
  journal.filterMap fun
    | .recorded component => some component
    | _ => none

/-- What a conversion wrote and how it ended. -/
structure Outcome (α : Type) where
  journal : Journal
  result : Except MarkupFault α

namespace Outcome

variable {α β : Type}

/-- Ends with a value and writes nothing. -/
def done (a : α) : Outcome α :=
  ⟨[], .ok a⟩

/-- Ends with a fault. -/
def fail (fault : MarkupFault) : Outcome α :=
  ⟨[], .error fault⟩

/-- Goes on with the value of an outcome, unless it is a fault. -/
def andThen (first : Outcome α) (next : α → Outcome β) : Outcome β :=
  match first.result with
  | .error fault => ⟨first.journal, .error fault⟩
  | .ok a => ⟨first.journal ++ (next a).journal, (next a).result⟩

instance : Monad Outcome where
  pure := done
  bind := andThen

/-- Writes one entry. -/
def note (event : Event) : Outcome Unit :=
  ⟨[event], .ok ()⟩

/-- Writes a warning. -/
def warn (warning : Warning) : Outcome Unit :=
  note (.warned warning)

/-- Writes a warning if there is one. -/
def warn? : Option Warning → Outcome Unit
  | some warning => warn warning
  | none => done ()

/-- The outcome of a step that writes nothing. -/
def ofExcept (result : Except MarkupFault α) : Outcome α :=
  ⟨[], result⟩

/-- The values of a list of outcomes in order, up to the first fault. -/
def collect : List (Outcome α) → Outcome (List α)
  | [] => done []
  | first :: rest => do
    let a ← first
    let as ← collect rest
    return a :: as

end Outcome

end Recast
