import Recast.Proofs.Component.Unmarked
import Recast.Proofs.Stack.Components
import Recast.Proofs.Stack.Overflow

/-!
# Sessions of a converter

A `Converter` converts one source after the other and keeps nothing of a source but the phase it
ends in. Each call is `Consistent`: it is completed just if it succeeds, just if there are no
errors, and just if there is code; a call that fails has the one failure that ended it, with the
warnings up to it (`Fails`). One step is consistent from every phase (`Converter.step_consistent`),
so every step of a session is (`Converter.session_consistent`).

Only two things end a conversion: markup that cannot be read, and calls that nest too deeply for the
limit (`Exceeds`). There is no limit that is enough for every source (`convert_nestedTemplates`).
-/

namespace Recast

open Outcome

/-- A converter: how many calls may be open at once, its options, and where it stands. -/
structure Converter where
  limit : Nat
  options : Options
  phase : Phase

/-- The converter after a source, and what it reports. -/
def Converter.step (converter : Converter) (source : Text) : Converter × Report :=
  let report := convertWithin converter.limit converter.options source
  (⟨converter.limit, converter.options, report.phase⟩, report)

/-- The converter after each of the sources, with what it reports. -/
def Converter.session (converter : Converter) : List Text → List (Converter × Report)
  | [] => []
  | source :: sources =>
    let after := converter.step source
    after :: after.1.session sources

/-- The calls for a source without its imports nest more deeply than the limit allows. -/
def Exceeds (limit : Nat) (options : Options) (source : Text) : Prop :=
  (convertComponentsWithin limit options source).result = .error .overflow

/-- How the conversion of a source without its imports fails, with the warnings up to there: its
definitions cannot be read, or one of them is not converted while those before it are, or the calls
nest too deeply, with a first part of the journal written. -/
inductive Fails (limit : Nat) (options : Options) (source : Text) : Failure → List Warning → Prop
  | reading {fault : MarkupFault} (read : findDefinitions source = .error fault) :
      Fails limit options source (.markup fault) []
  | converting {before after : List Definition} {definition : Definition} {fault : MarkupFault}
      (read : findDefinitions source = .ok (before ++ definition :: after))
      (converted : ∀ earlier ∈ before,
        ∃ text, (convertFunctional options earlier).result = .ok text)
      (failed : (convertFunctional options definition).result = .error fault) :
      Fails limit options source (.markup fault)
        ((before ++ [definition]).flatMap fun tried =>
          (convertFunctional options tried).journal.warnings)
  | nesting {journal : Journal} (part : journal <+: (convertComponents options source).journal)
      (exceeded : convertComponentsWithin limit options source = ⟨journal, .error .overflow⟩) :
      Fails limit options source .overflow journal.warnings

/-- What a call reports, and the phase it ends in, fit together. -/
structure Consistent (limit : Nat) (options : Options) (source : Text) (phase : Phase)
    (report : Report) : Prop where
  completed : phase = .completed ↔ report.success = true
  errors : report.success = true ↔ report.errors = []
  code : report.errors = [] ↔ report.code ≠ []
  failure : report.success = false → ∃ failure warnings,
    Fails limit options (stripImports source) failure warnings ∧
      report.errors = ["Conversion failed: ".toList ++ failure.message] ∧
      report.components = [] ∧ report.warnings = warnings.map (·.message)
  unmarked : '<' ∉ stripImports source →
    (report.success = true ↔ ¬Exceeds limit options (stripImports source))

/-! ## Where a conversion fails -/

section Pass

variable {α : Type} {span : α → Span} {written : α → Outcome Text}

/-- A pass fails at the first thing that is not written, and has written in the journal up to
there. -/
theorem editsFor_error {fault : MarkupFault} : ∀ {found : List α},
    (editsFor span written found).result = .error fault →
      ∃ before a after, found = before ++ a :: after ∧
        (∀ b ∈ before, ∃ text, (written b).result = .ok text) ∧
        (written a).result = .error fault ∧
        (editsFor span written found).journal =
          (before ++ [a]).flatMap fun b => (written b).journal
  | [], h => by cases h
  | a :: found, h => by
    rw [editsFor_cons] at h ⊢
    cases text : (written a).result with
    | error other =>
      simp only [bind, andThen, text] at h ⊢
      exact ⟨[], a, found, rfl, by simp, by rw [text, Except.error.inj h], by simp⟩
    | ok made =>
      rw [bind_of_ok text] at h ⊢
      cases edits : (editsFor span written found).result with
      | ok rest => simp [bind, andThen, edits, pure, done] at h
      | error other =>
        simp only [bind, andThen, edits] at h ⊢
        obtain ⟨before, b, after, rfl, earlier, failed, journal⟩ := editsFor_error (edits.trans h)
        refine ⟨a :: before, b, after, rfl, ?_, failed, by simp [journal]⟩
        intro c hc
        rcases List.mem_cons.1 hc with rfl | hc
        · exact ⟨made, text⟩
        · exact earlier c hc

end Pass

theorem warnings_flatMap {α : Type} (written : α → Journal) (found : List α) :
    Journal.warnings (found.flatMap written) = found.flatMap fun a => (written a).warnings :=
  List.filterMap_flatMap

/-- Without a limit components are not converted only if the functional pass fails. -/
theorem convertComponents_fails (limit : Nat) {options : Options} {source : Text}
    {fault : MarkupFault} (h : (convertComponents options source).result = .error fault) :
    Fails limit options source (.markup fault)
      (convertComponents options source).journal.warnings := by
  have functional : (convertFunctionals options source).result = .error fault ∧
      (convertComponents options source).journal = (convertFunctionals options source).journal := by
    cases first : (convertFunctionals options source).result with
    | error other =>
      simp only [convertComponents, bind, andThen, first] at h ⊢
      exact ⟨h, trivial⟩
    | ok converted =>
      obtain ⟨_, -, replaced⟩ := convertClasses_result options converted
      rw [convertComponents, bind_of_ok first, replaced] at h
      cases h
  rw [functional.2]
  cases read : findDefinitions source with
  | error other =>
    have failed : convertFunctionals options source = fail other := by
      rw [convertFunctionals, read]
      rfl
    rw [failed] at functional ⊢
    obtain rfl := Except.error.inj functional.1
    exact .reading read
  | ok definitions =>
    have failed := functional.1
    rw [convertFunctionals_eq options read, map_result] at failed
    rw [convertFunctionals_eq options read, map_journal]
    cases edits : (editsFor Definition.span (convertFunctional options) definitions).result with
    | ok made => simp [edits, Except.map] at failed
    | error other =>
      rw [edits] at failed
      obtain ⟨before, definition, after, rfl, earlier, stopped, journal⟩ := editsFor_error edits
      obtain rfl := Except.error.inj failed
      rw [journal, warnings_flatMap]
      exact .converting read earlier stopped

/-! ## One conversion -/

section Conversion

variable {limit : Nat} {options : Options} {source : Text}

/-- A conversion ends as its components do. -/
theorem convertSourceWithin_of_error {failure : Failure}
    (h : (convertComponentsWithin limit options (stripImports source)).result = .error failure) :
    convertSourceWithin limit options source =
      ⟨(convertComponentsWithin limit options (stripImports source)).journal, .error failure⟩ := by
  simp only [convertSourceWithin, bind, Attempt.andThen, h]

theorem convertSourceWithin_of_ok {body : Text}
    (h : (convertComponentsWithin limit options (stripImports source)).result = .ok body) :
    (convertSourceWithin limit options source).result =
      .ok (importHeader options ++
        Wide.ofText ("\n\n".toList ++ trim body ++ "\n".toList)) := by
  simp only [convertSourceWithin, bind, Attempt.andThen, h, pure, Attempt.done]
  split <;> rfl

/-- A conversion that succeeds has code. -/
theorem convertWithin_of_ok {body : Text}
    (h : (convertComponentsWithin limit options (stripImports source)).result = .ok body) :
    (convertWithin limit options source).success = true ∧
      (convertWithin limit options source).errors = [] ∧
      (convertWithin limit options source).code =
        importHeader options ++ Wide.ofText ("\n\n".toList ++ trim body ++ "\n".toList) := by
  rw [convertWithin, Attempt.report, convertSourceWithin_of_ok h]
  exact ⟨rfl, rfl, rfl⟩

theorem convertWithin_of_error {failure : Failure}
    (h : (convertComponentsWithin limit options (stripImports source)).result = .error failure) :
    convertWithin limit options source = ⟨false, [], [failureMessage failure],
      (convertComponentsWithin limit options (stripImports source)).journal.warnings.map
        (·.message), []⟩ := by
  rw [convertWithin, convertSourceWithin_of_error h, Attempt.report]

/-- With a limit components are not converted only if the functional pass fails or the calls nest
too deeply. -/
theorem convertComponentsWithin_fails {failure : Failure}
    (h : (convertComponentsWithin limit options source).result = .error failure) :
    Fails limit options source failure
      (convertComponentsWithin limit options source).journal.warnings := by
  rcases (settles_components options source).agrees limit with same | ⟨overflow, part⟩
  · have ended : (convertComponents options source).result.mapError .markup = .error failure := by
      rw [same] at h
      exact h
    cases result : (convertComponents options source).result with
    | error fault =>
      rw [result] at ended
      obtain rfl := Except.error.inj ended
      have journal := congrArg Attempt.journal same
      rw [journal]
      exact convertComponents_fails limit result
    | ok body =>
      rw [result] at ended
      cases ended
  · obtain rfl := Except.error.inj (h.symm.trans overflow)
    exact .nesting part (Attempt.mk.injEq .. ▸ ⟨rfl, overflow⟩)

/-- Without markup components are converted unless the calls nest too deeply. -/
theorem exceeds_of_unmarked (unmarked : '<' ∉ source) {failure : Failure}
    (h : (convertComponentsWithin limit options source).result = .error failure) :
    Exceeds limit options source := by
  rcases (settles_components options source).agrees limit with same | ⟨overflow, -⟩
  · obtain ⟨text, converted⟩ := convertComponents_of_unmarked options unmarked
    rw [same, Attempt.ofOutcome, converted] at h
    cases h
  · exact overflow

end Conversion

theorem convertWithin_consistent (limit : Nat) (options : Options) (source : Text) :
    Consistent limit options source (convertWithin limit options source).phase
      (convertWithin limit options source) := by
  cases ended : (convertComponentsWithin limit options (stripImports source)).result with
  | error failure =>
    rw [convertWithin_of_error ended]
    refine ⟨by simp [Report.phase], by simp, by simp, fun _ => ?_, fun unmarked => ?_⟩
    · exact ⟨failure, _, convertComponentsWithin_fails ended, rfl, rfl, rfl⟩
    · simp [exceeds_of_unmarked unmarked ended]
  | ok body =>
    obtain ⟨success, errors, code⟩ := convertWithin_of_ok ended
    have code : (convertWithin limit options source).code ≠ [] := by
      rw [code]
      simp [Wide.ofText]
    have within : ¬Exceeds limit options (stripImports source) := by
      rw [Exceeds, ended]
      exact nofun
    refine ⟨by simp [Report.phase, success], by simp [success, errors], by simp [errors, code],
      fun failed => ?_, fun _ => by simp [success, within]⟩
    rw [success] at failed
    cases failed

/-! ## Sessions -/

/-- A call reports the same from every phase, keeps limit and options, and is consistent. -/
theorem Converter.step_consistent (converter : Converter) (source : Text) :
    (converter.step source).1.limit = converter.limit ∧
      (converter.step source).1.options = converter.options ∧
      (converter.step source).2 = convertWithin converter.limit converter.options source ∧
      Consistent converter.limit converter.options source (converter.step source).1.phase
        (converter.step source).2 :=
  ⟨rfl, rfl, rfl, convertWithin_consistent converter.limit converter.options source⟩

/-- For finitely many sources there is a limit that is enough. -/
theorem exists_limit_of_sources (options : Options) (sources : List Text) :
    ∃ depth, ∀ limit, depth ≤ limit → ∀ source ∈ sources,
      ¬Exceeds limit options (stripImports source) := by
  induction sources with
  | nil => exact ⟨0, fun _ _ => List.forall_mem_nil _⟩
  | cons source sources ih =>
    obtain ⟨depth, same⟩ := (settles_components options (stripImports source)).enough
    obtain ⟨more, rest⟩ := ih
    refine ⟨max depth more, fun limit room => List.forall_mem_cons.2 ⟨?_, rest limit (by omega)⟩⟩
    rw [Exceeds, same limit (by omega), Attempt.ofOutcome]
    cases (convertComponents options (stripImports source)).result with
    | error fault =>
      intro exceeded
      cases exceeded
    | ok text =>
      intro exceeded
      cases exceeded

/-- Every call of a session is consistent, and reports what it would report alone. For the sources
of the session there is a limit that none of them exceeds. -/
theorem Converter.session_consistent (converter : Converter) (sources : List Text) :
    (converter.session sources).map (·.2) =
        sources.map (convertWithin converter.limit converter.options) ∧
      List.Forall₂ (fun source after =>
          Consistent converter.limit converter.options source after.1.phase after.2)
        sources (converter.session sources) ∧
      ∃ depth, ∀ limit, depth ≤ limit → ∀ source ∈ sources,
        ¬Exceeds limit converter.options (stripImports source) := by
  refine ⟨?_, ?_, exists_limit_of_sources converter.options sources⟩
  · induction sources generalizing converter with
    | nil => rfl
    | cons source sources ih =>
      obtain ⟨limit, options, report, -⟩ := converter.step_consistent source
      rw [Converter.session, List.map_cons, List.map_cons, ih, limit, options, report]
  · induction sources generalizing converter with
    | nil => exact .nil
    | cons source sources ih =>
      obtain ⟨limit, options, -, consistent⟩ := converter.step_consistent source
      have later := ih (converter.step source).1
      rw [limit, options] at later
      exact .cons consistent later

/-- Half as many literals inside one another as calls are allowed are too many for every limit,
though there is no markup. -/
theorem convertWithin_nestedTemplates {limit depth : Nat} (deep : limit ≤ 2 * depth)
    (options : Options) : convertWithin limit options (nestedTemplates depth) =
      ⟨false, [], ["Conversion failed: maximum recursion depth exceeded".toList], [], []⟩ := by
  have failed : convertComponentsWithin limit options (stripImports (nestedTemplates depth)) =
      Attempt.fail .overflow := by
    rw [stripImports_nestedTemplates]
    exact convertComponentsWithin_nestedTemplates deep options
  rw [convertWithin_of_error (congrArg Attempt.result failed), failed]
  rfl

/-- A source without markup that is not converted: 500 template literals inside one another. -/
theorem convert_nestedTemplates :
    '<' ∉ stripImports (nestedTemplates 500) ∧
      convert .standard (nestedTemplates 500) =
        ⟨false, [], ["Conversion failed: maximum recursion depth exceeded".toList], [], []⟩ := by
  refine ⟨?_, convertWithin_nestedTemplates (Nat.le_refl 1000) .standard⟩
  rw [stripImports_nestedTemplates]
  exact not_mem_nestedTemplates (by decide) (by decide) (by decide) 500

end Recast
