import Mathlib.Tactic.Common
import Recast.Journal.Outcome

/-!
# Laws of outcomes

Outcomes put together with `do` obey the laws of sequencing: what one part writes comes before what
the next one writes, in whatever way the parts are grouped. An outcome that records no component is
`Quiet`, and so is one made of quiet parts.
-/

namespace Recast.Outcome

variable {α β γ : Type}

instance : LawfulMonad Outcome :=
  LawfulMonad.mk' Outcome
    (fun x => by
      obtain ⟨journal, result⟩ := x
      cases result <;> simp [Functor.map, andThen, done])
    (fun a f => by simp [pure, bind, andThen, done])
    (fun x f g => by
      obtain ⟨journal, result⟩ := x
      cases result with
      | error fault => rfl
      | ok a =>
        cases h : (f a).result <;> simp [bind, andThen, h])

theorem bind_of_ok {x : Outcome α} {a : α} (h : x.result = .ok a) (f : α → Outcome β) :
    x >>= f = ⟨x.journal ++ (f a).journal, (f a).result⟩ := by
  simp only [bind, andThen, h]

theorem ofExcept_ok (a : α) : ofExcept (.ok a) = pure a := rfl

/-- A sequence of two outcomes ends with a value just if both do. -/
theorem bind_result_eq_ok {x : Outcome α} {f : α → Outcome β} {b : β} :
    (x >>= f).result = .ok b ↔ ∃ a, x.result = .ok a ∧ (f a).result = .ok b := by
  obtain ⟨journal, result⟩ := x
  cases result with
  | error fault => simp [bind, andThen]
  | ok a => simp [bind, andThen]

theorem exists_bind_result {x : Outcome α} {f : α → Outcome β} (hx : ∃ a, x.result = .ok a)
    (hf : ∀ a, ∃ b, (f a).result = .ok b) : ∃ b, (x >>= f).result = .ok b := by
  obtain ⟨a, first⟩ := hx
  obtain ⟨b, second⟩ := hf a
  exact ⟨b, bind_result_eq_ok.2 ⟨a, first, second⟩⟩

theorem map_result (f : α → β) (x : Outcome α) : (f <$> x).result = x.result.map f := by
  obtain ⟨journal, result⟩ := x
  cases result <;> rfl

theorem map_journal (f : α → β) (x : Outcome α) : (f <$> x).journal = x.journal := by
  obtain ⟨journal, result⟩ := x
  cases result with
  | error fault => rfl
  | ok a => exact List.append_nil journal

theorem map_result_eq_ok {f : α → β} {x : Outcome α} {b : β} :
    (f <$> x).result = .ok b ↔ ∃ a, x.result = .ok a ∧ f a = b := by
  obtain ⟨journal, result⟩ := x
  rw [map_result]
  cases result <;> simp [Except.map]

theorem collect_nil : collect ([] : List (Outcome α)) = pure [] := rfl

theorem collect_cons (x : Outcome α) (xs : List (Outcome α)) :
    collect (x :: xs) = (do
      let a ← x
      let as ← collect xs
      return a :: as) := rfl

/-- Outcomes collected in two lists are collected one list after the other. -/
theorem collect_append (xs ys : List (Outcome α)) :
    collect (xs ++ ys) = (do
      let as ← collect xs
      let bs ← collect ys
      return as ++ bs) := by
  induction xs with
  | nil => simp [collect_nil]
  | cons x xs ih => simp [collect_cons, ih]

/-- Outcomes that all end with a value are collected with all they wrote. -/
theorem collect_map_of_ok {f : α → Outcome β} {value : α → β}
    (h : ∀ a, (f a).result = .ok (value a)) :
    ∀ xs : List α, collect (xs.map f) = ⟨xs.flatMap fun a => (f a).journal, .ok (xs.map value)⟩
  | [] => rfl
  | a :: xs => by
    rw [List.map_cons, collect_cons, collect_map_of_ok h xs, bind_of_ok (h a)]
    simp [bind, andThen, pure, done]

/-- Any value that an outcome ends with has the property. -/
def Ensures (x : Outcome α) (P : α → Prop) : Prop :=
  ∀ a, x.result = .ok a → P a

variable {P : β → Prop} {Q : α → Prop}

theorem ensures_pure {b : β} (h : P b) : (pure b : Outcome β).Ensures P := by
  rintro _ ⟨⟩
  exact h

theorem Ensures.bind {x : Outcome α} {f : α → Outcome β} (hx : x.Ensures Q)
    (hf : ∀ a, Q a → (f a).Ensures P) : (x >>= f).Ensures P := by
  obtain ⟨journal, result⟩ := x
  cases result with
  | error fault => rintro _ ⟨⟩
  | ok a => exact fun b hb => hf a (hx a rfl) b hb

theorem ensures_bind {x : Outcome α} {f : α → Outcome β} (hf : ∀ a, (f a).Ensures P) :
    (x >>= f).Ensures P :=
  Ensures.bind (Q := fun _ => True) (fun _ _ => trivial) fun a _ => hf a

/-- A step that leaves every value as it is changes nothing. -/
theorem bind_eq_self {x : Outcome α} {f : α → Outcome α} (h : x.Ensures fun a => f a = pure a) :
    x >>= f = x := by
  obtain ⟨journal, result⟩ := x
  cases result with
  | error fault => rfl
  | ok a =>
    have same : f a = pure a := h a rfl
    simp [bind, andThen, same, pure, done]

/-! ## Outcomes that record no component -/

theorem components_append (a b : Journal) :
    Journal.components (a ++ b) = a.components ++ b.components :=
  List.filterMap_append

/-- The outcome records no component. -/
def Quiet (x : Outcome α) : Prop :=
  x.journal.components = []

theorem quiet_pure (a : α) : (pure a : Outcome α).Quiet := rfl

theorem quiet_fail (fault : MarkupFault) : (fail fault : Outcome α).Quiet := rfl

theorem quiet_ofExcept (result : Except MarkupFault α) : (ofExcept result).Quiet := rfl

theorem quiet_warn (warning : Warning) : (warn warning).Quiet := rfl

theorem quiet_warn? : ∀ warning? : Option Warning, (warn? warning?).Quiet
  | some warning => quiet_warn warning
  | none => rfl

theorem Quiet.bind {x : Outcome α} {f : α → Outcome β} (hx : x.Quiet) (hf : ∀ a, (f a).Quiet) :
    (x >>= f).Quiet := by
  obtain ⟨journal, result⟩ := x
  cases result with
  | error fault => exact hx
  | ok a =>
    change Journal.components (journal ++ (f a).journal) = []
    rw [components_append, show journal.components = [] from
      hx, show (f a).journal.components = [] from hf a]
    rfl

theorem Quiet.map {x : Outcome α} (hx : x.Quiet) (f : α → β) : (f <$> x).Quiet := by
  rw [map_eq_pure_bind]
  exact hx.bind fun a => quiet_pure (f a)

theorem quiet_collect : ∀ {xs : List (Outcome α)}, (∀ x ∈ xs, x.Quiet) → (collect xs).Quiet
  | [], _ => rfl
  | x :: xs, h => by
    rw [collect_cons]
    refine (h x (by simp)).bind fun a => Quiet.bind (quiet_collect fun y hy => h y (by simp [hy]))
      fun as => ?_
    exact quiet_pure (a :: as)

/-! ## Outcomes that record one component -/

/-- The name of a record, and whether it is of a class. -/
def label (record : ComponentRecord) : Text × Bool :=
  (record.name, record.isClass)

/-- An outcome with a value records one component, under the label; one with a fault records
none. -/
def RecordsOnce (x : Outcome α) (name : Text) (isClass : Bool) : Prop :=
  x.journal.components.map label =
    match x.result with
    | .ok _ => [(name, isClass)]
    | .error _ => []

theorem RecordsOnce.bind {name : Text} {isClass : Bool} {x : Outcome α} {f : α → Outcome β}
    (hx : x.Quiet)
    (hf : ∀ a, (f a).RecordsOnce name isClass) : (x >>= f).RecordsOnce name isClass := by
  obtain ⟨journal, result⟩ := x
  have silent : journal.components = [] := hx
  cases result with
  | error fault =>
    change journal.components.map label = []
    rw [silent, List.map_nil]
  | ok a =>
    have once : (f a).journal.components.map label = _ := hf a
    change (Journal.components (journal ++ (f a).journal)).map label = _
    rw [components_append, silent, List.nil_append, once]
    rfl

end Recast.Outcome
