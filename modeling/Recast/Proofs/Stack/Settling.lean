import Recast.Proofs.Journal.Laws
import Recast.Proofs.Stack.Searches
import Recast.Stack.Attempt

/-!
# Attempts and outcomes

A step with a limit `Settles` to an outcome if each limit leads to this outcome or to an overflow,
the latter with a first part of its journal written, and if there is a depth that is always enough.
The steps of a conversion are put together with `do`, and so are these facts: the answer to defined
scans settles (`settles_ask`), and so do sequences (`Settles.bind`), lists (`Settles.collect`) and
calls (`Settles.call`).
-/

namespace Recast

namespace Attempt

variable {α β : Type}

instance : LawfulMonad Attempt :=
  LawfulMonad.mk' Attempt
    (fun x => by
      obtain ⟨journal, result⟩ := x
      cases result <;> simp [Functor.map, andThen, done])
    (fun a f => by simp [pure, bind, andThen, done])
    (fun x f g => by
      obtain ⟨journal, result⟩ := x
      cases result with
      | error failure => rfl
      | ok a =>
        cases h : (f a).result <;> simp [bind, andThen, h])

/-- A fault ends a sequence of attempts as it ends a sequence of outcomes. -/
theorem bind_of_fault {outcome : Outcome α} {fault : MarkupFault}
    (ended : outcome.result = .error fault) (f : α → Attempt β) (g : α → Outcome β) :
    ofOutcome outcome >>= f = ofOutcome (outcome >>= g) := by
  obtain ⟨journal, result⟩ := outcome
  obtain rfl : result = .error fault := ended
  rfl

/-- Attempts that agree with outcomes agree in sequence. -/
theorem bind_of_value {outcome : Outcome α} {a : α} (ended : outcome.result = .ok a)
    {f : α → Attempt β} {g : α → Outcome β} (same : f a = ofOutcome (g a)) :
    ofOutcome outcome >>= f = ofOutcome (outcome >>= g) := by
  obtain ⟨journal, result⟩ := outcome
  obtain rfl : result = .ok a := ended
  simp only [bind, andThen, ofOutcome, Except.mapError, same, Outcome.andThen]

/-- The attempt overflows, with a first part of the journal written. -/
def Overflows (attempt : Attempt α) (journal : Journal) : Prop :=
  attempt.result = .error .overflow ∧ attempt.journal <+: journal

theorem overflows_fail (journal : Journal) : (fail .overflow : Attempt α).Overflows journal :=
  ⟨rfl, List.nil_prefix⟩

theorem Overflows.bind {attempt : Attempt α} {outcome : Outcome α}
    (h : attempt.Overflows outcome.journal) (f : α → Attempt β) (g : α → Outcome β) :
    (attempt >>= f).Overflows (outcome >>= g).journal := by
  obtain ⟨journal, result⟩ := attempt
  obtain ⟨rfl, part⟩ := h
  refine ⟨rfl, part.trans ?_⟩
  obtain ⟨journal, result⟩ := outcome
  cases result with
  | error fault => exact List.prefix_rfl
  | ok a => exact List.prefix_append _ _

/-- An overflow of the second part of a sequence. -/
theorem Overflows.behind {outcome : Outcome α} {a : α} (first : outcome.result = .ok a)
    {f : α → Attempt β} {g : α → Outcome β} (h : (f a).Overflows (g a).journal) :
    (ofOutcome outcome >>= f).Overflows (outcome >>= g).journal := by
  obtain ⟨journal, result⟩ := outcome
  obtain rfl : result = .ok a := first
  exact ⟨h.1, List.prefix_append_right_inj journal |>.2 h.2⟩

end Attempt

open Attempt

variable {α β : Type}

/-- The attempts agree with the outcome as far as the limit allows. -/
structure Settles (attempt : Nat → Attempt α) (outcome : Outcome α) : Prop where
  agrees : ∀ limit,
    attempt limit = ofOutcome outcome ∨ (attempt limit).Overflows outcome.journal
  enough : ∃ depth, ∀ limit, depth ≤ limit → attempt limit = ofOutcome outcome

/-- A step that needs no room. -/
theorem settles_ofOutcome (outcome : Outcome α) : Settles (fun _ => ofOutcome outcome) outcome :=
  ⟨fun _ => .inl rfl, 0, fun _ _ => rfl⟩

theorem settles_pure (a : α) : Settles (fun _ => pure a) (pure a) :=
  settles_ofOutcome (pure a)

theorem Settles.bind {attempt : Nat → Attempt α} {outcome : Outcome α}
    {f : Nat → α → Attempt β} {g : α → Outcome β} (first : Settles attempt outcome)
    (next : ∀ a, outcome.result = .ok a → Settles (f · a) (g a)) :
    Settles (fun limit => attempt limit >>= f limit) (outcome >>= g) := by
  constructor
  · intro limit
    rcases first.agrees limit with same | overflows
    · rw [same]
      cases ended : outcome.result with
      | error fault => exact .inl (bind_of_fault ended (f limit) g)
      | ok a =>
        rcases (next a ended).agrees limit with same | overflows
        · exact .inl (bind_of_value ended same)
        · exact .inr (.behind ended overflows)
    · exact .inr (overflows.bind (f limit) g)
  · obtain ⟨depth, same⟩ := first.enough
    cases ended : outcome.result with
    | error fault =>
      refine ⟨depth, fun limit room => ?_⟩
      rw [same limit room, bind_of_fault ended (f limit) g]
    | ok a =>
      obtain ⟨more, same'⟩ := (next a ended).enough
      refine ⟨max depth more, fun limit room => ?_⟩
      rw [same limit (by omega), bind_of_value ended (same' limit (by omega))]

/-- A step with a known value does not show in the outcome. -/
theorem Settles.andThen {attempt : Nat → Attempt α} {a : α} {f : Nat → α → Attempt β}
    {outcome : Outcome β} (first : Settles attempt (pure a)) (next : Settles (f · a) outcome) :
    Settles (fun limit => attempt limit >>= f limit) outcome :=
  first.bind (g := fun _ => outcome) fun _ ended => Except.ok.inj ended ▸ next

theorem Settles.map {attempt : Nat → Attempt α} {outcome : Outcome α}
    (h : Settles attempt outcome) (f : α → β) :
    Settles (fun limit => f <$> attempt limit) (f <$> outcome) := by
  simp only [map_eq_pure_bind]
  exact h.bind fun a _ => settles_pure (f a)

/-- A list of steps, each of which settles. -/
theorem Settles.collect {ι : Type} {attempt : Nat → ι → Attempt α} {outcome : ι → Outcome α} :
    ∀ {items : List ι}, (∀ item ∈ items, Settles (attempt · item) (outcome item)) →
      Settles (fun limit => collect (items.map (attempt limit)))
        (Outcome.collect (items.map outcome))
  | [], _ => settles_pure []
  | item :: items, h => by
    obtain ⟨first, rest⟩ := List.forall_mem_cons.1 h
    exact first.bind fun a _ => (Settles.collect rest).bind fun as _ => settles_pure (a :: as)

/-- A call takes one place on the stack. -/
theorem Settles.call {attempt : Nat → Attempt α} {outcome : Outcome α}
    (none : attempt 0 = fail .overflow) (h : Settles (fun limit => attempt (limit + 1)) outcome) :
    Settles attempt outcome := by
  constructor
  · intro limit
    cases limit with
    | zero =>
      rw [none]
      exact .inr (overflows_fail _)
    | succ limit => exact h.agrees limit
  · obtain ⟨depth, same⟩ := h.enough
    refine ⟨depth + 1, fun limit room => ?_⟩
    cases limit with
    | zero => omega
    | succ limit => exact same limit (by omega)

/-! ## Scans -/

theorem findSome?_failure? {scans : List Scan} (h : AllDefined scans) (limit : Nat) :
    scans.findSome? (Scan.failure? limit) = none ∨
      scans.findSome? (Scan.failure? limit) = some .overflow := by
  cases found : scans.findSome? (Scan.failure? limit) with
  | none => exact .inl rfl
  | some failure =>
    obtain ⟨scan, mem, failed⟩ := List.exists_of_findSome?_eq_some found
    rcases Scan.failure?_of_defined limit (h scan mem) with fine | ⟨overflow, -⟩
    · rw [fine] at failed
      cases failed
    · rw [overflow] at failed
      exact .inr (congrArg some (Option.some.inj failed).symm)

/-- For defined scans there is a number of calls that is enough. -/
theorem exists_findSome?_failure?_eq_none : ∀ {scans : List Scan}, AllDefined scans →
    ∃ depth, ∀ limit, depth ≤ limit → scans.findSome? (Scan.failure? limit) = none
  | [], _ => ⟨0, fun _ _ => rfl⟩
  | scan :: scans, h => by
    obtain ⟨first, rest⟩ := List.forall_mem_cons.1 h
    obtain ⟨depth, fine⟩ := exists_findSome?_failure?_eq_none rest
    refine ⟨max (scan.rank + 1) depth, fun limit room => ?_⟩
    rcases Scan.failure?_of_defined limit first with none | ⟨-, deep⟩
    · rw [List.findSome?_cons, none]
      exact fine limit (by omega)
    · omega

/-- The answer to defined scans. -/
theorem settles_ask {scans : List Scan} (h : AllDefined scans)
    (answer : Unit → Except MarkupFault α) :
    Settles (fun limit => ask limit scans answer) (Outcome.ofExcept (answer ())) := by
  constructor
  · intro limit
    rw [ask]
    rcases findSome?_failure? h limit with fine | overflow
    · rw [fine]
      exact .inl rfl
    · rw [overflow]
      exact .inr (overflows_fail _)
  · obtain ⟨depth, fine⟩ := exists_findSome?_failure?_eq_none h
    refine ⟨depth, fun limit room => ?_⟩
    rw [ask, fine limit room]

/-- Defined scans whose answer is no fault. -/
theorem settles_scans {scans : List Scan} (h : AllDefined scans) (a : α) :
    Settles (fun limit => Attempt.ask limit scans fun _ => .ok a) (pure a) :=
  settles_ask h fun _ => .ok a

/-- Going on with the answer to defined scans, where a fault in the answer ends the outcome. -/
theorem Settles.ask {scans : List Scan} (h : AllDefined scans)
    {answer : Unit → Except MarkupFault α} {f : Nat → α → Attempt β} {outcome : Outcome β}
    (fault : ∀ fault, answer () = .error fault → outcome = Outcome.fail fault)
    (next : ∀ a, answer () = .ok a → Settles (f · a) outcome) :
    Settles (fun limit => Attempt.ask limit scans answer >>= f limit) outcome := by
  have asked := (settles_ask h answer).bind (g := fun _ => outcome) next
  cases answered : answer () with
  | error given =>
    rw [answered] at asked
    rw [fault given answered] at asked ⊢
    exact asked
  | ok a =>
    rw [answered] at asked
    exact asked

end Recast
