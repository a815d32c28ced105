import Recast.Proofs.Command.Performance
import Recast.Proofs.Files.Neighbour

/-!
# What becomes of the input file

A run that names no output file writes beside its input, under the stem of the input and the suffix
of the options. Nothing keeps these from being the name of the input, so a run can write over its
own input (`Overwrites`). This is the only way in which it changes the input, but for a log that is
kept in the same file (`run_read_input`). With a suffix that has no slash it happens just if the
suffix is the extension of the input (`overwrites_iff`).
-/

namespace Recast

open Directory

variable {order : Order} {time : LogTime} {stdin : Text} {directory start : Directory}
  {log? : Option Route}
variable {options : Options} {source : Text} {route : Route}

/-- A run writes over its own input: it gets as far as writing to a file, and the suffix of the
options restores the last name of the input. -/
inductive Overwrites (order : Order) (time : LogTime) (stdin : Text) (directory : Directory) :
    Bytes → Prop
  | intro {start : Directory} {log? : Option Route} {options : Options}
    {source path last suffix : Text}
      (starts : order.Starts time directory start log?)
        (reaches : order.Reaches stdin start options source)
      (file : order.isMachine = false) (success : (convert options source).success)
      (beside : standardDestination options order.input = .ok (.ofText path))
        (fits : checkPath path = .ok ())
      (named : (Path.namesOf order.input).getLast? = some last)
        (suffixed : options.outputSuffix = .ofText suffix)
      (restores : Path.Restores suffix last) :
      Overwrites order time stdin directory (convert options source).code.written

/-- The file that a run opens for the code is its input just if it writes over its input. -/
theorem overwrites_iff_opens (stdin : Text) (unnamed : order.output? = none)
    (starts : order.Starts time directory start log?)
    (opened : start.openFile order.input = .ok route) (written : Bytes) :
    Overwrites order time stdin directory written ↔
      ∃ options source, order.Opens stdin start options source route ∧
        written = (convert options source).code.written := by
  constructor
  · rintro ⟨starts', reaches, file, success, beside, fits, named, suffixed, restores⟩
    obtain ⟨rfl, -⟩ := starts.unique starts'
    obtain ⟨last, suffix, named', suffixed', single, path⟩ := standardDestination_eq_ok.1 beside
    obtain rfl := Option.some.inj (named.symm.trans named')
    obtain rfl := Wide.ofText_injective (suffixed.symm.trans suffixed')
    have again := (openFile_neighbour opened named single path).2 ⟨fits, restores⟩
    exact ⟨_, _, ⟨reaches, file, success, _, .standard (by rw [unnamed]; rfl) beside, again⟩, rfl⟩
  · rintro ⟨options, source, opens, rfl⟩
    obtain ⟨path, destination, again⟩ := opens.opened
    cases destination with
    | named given =>
      rw [unnamed] at given
      cases given
    | standard _ beside =>
      obtain ⟨last, suffix, named, suffixed, single, path⟩ := standardDestination_eq_ok.1 beside
      obtain ⟨fits, restores⟩ := (openFile_neighbour opened named single path).1 again
      exact ⟨starts, opens.toReaches, opens.file, opens.success, beside, fits, named, suffixed,
        restores⟩

/-- Carrying out an order changes its input just if it writes over it. -/
theorem perform_fileAt?_input (stdin : Text) (unnamed : order.output? = none)
    (starts : order.Starts time directory start log?)
    (opened : start.openFile order.input = .ok route)
    {content : Bytes} (listed : start.fileAt? route = some content) :
    ∃ left, (perform order stdin start).directory.fileAt? route = some left ∧
      (∀ written, Overwrites order time stdin directory written → left = written) ∧
      ((∀ written, ¬ Overwrites order time stdin directory written) → left = content) := by
  have overwrites := overwrites_iff_opens stdin unnamed starts opened
  by_cases opens : ∃ options source route', order.Opens stdin start options source route'
  · obtain ⟨options, source, route', opens⟩ := opens
    rw [(perform_of_opens opens).1, fileAt?_put]
    split
    next here =>
      subst here
      refine ⟨_, rfl, fun written replaced => ?_,
        fun never => absurd ((overwrites _).2 ⟨_, _, opens, rfl⟩) (never _)⟩
      obtain ⟨options', source', opens', rfl⟩ := (overwrites written).1 replaced
      obtain ⟨rfl, rfl⟩ := opens.toReaches.unique opens'.toReaches
      rfl
    next elsewhere =>
      refine ⟨content, listed, fun written replaced => ?_, fun _ => rfl⟩
      obtain ⟨options', source', opens', -⟩ := (overwrites written).1 replaced
      exact absurd (opens'.route_unique opens) elsewhere
  · have closed : ∀ options source route, ¬ order.Opens stdin start options source route :=
      fun options source route opens_ => opens ⟨options, source, route, opens_⟩
    rw [(perform_of_not_opens closed).1]
    refine ⟨content, listed, fun written replaced => ?_, fun _ => rfl⟩
    obtain ⟨options', source', opens', -⟩ := (overwrites written).1 replaced
    exact absurd opens' (closed _ _ _)

/-- With a suffix that has no slash, a run that gets as far as writing writes over its input just if
the suffix is the extension of the input. -/
theorem overwrites_iff {last suffix : Text} (starts : order.Starts time directory start log?)
    (reaches : order.Reaches stdin start options source) (file : order.isMachine = false)
    (success : (convert options source).success) (fits : checkPath order.input = .ok ())
    (named : (Path.namesOf order.input).getLast? = some last)
    (suffixed : options.outputSuffix = .ofText suffix) (plain : '/' ∉ suffix) :
    (∃ written, Overwrites order time stdin directory written) ↔
      suffix = Path.extensionOf last := by
  have member := List.mem_of_getLast? named
  obtain ⟨nonempty, one⟩ := Path.mem_namesOf member
  constructor
  · rintro ⟨-, ⟨starts', reaches', -, -, -, -, named', suffixed', restores⟩⟩
    obtain ⟨rfl, -⟩ := starts.unique starts'
    obtain ⟨rfl, rfl⟩ := reaches.unique reaches'
    obtain rfl := Option.some.inj (named.symm.trans named')
    obtain rfl := Wide.ofText_injective (suffixed.symm.trans suffixed')
    exact (Path.restores_iff plain nonempty one).1 restores
  · intro extension
    have whole : Path.stemOf last ++ suffix = last := by
      rw [extension, Path.stemOf_append_extensionOf]
    have beside : standardDestination options order.input =
        .ok (.ofText ((Path.ofText order.input).front ++ last)) := by
      refine standardDestination_eq_ok.2 ⟨last, suffix, named, suffixed, ?_, by rw [whole]⟩
      rw [whole]
      exact Path.isName_of_mem member
    have shorter := checkPath_of_sublist (front_append_sublist named) (by simp [nonempty]) fits
    exact ⟨_, starts, reaches, file, success, beside, shorter, named, suffixed,
      (Path.restores_iff plain nonempty one).2 extension⟩

/-- A run that names no output file leaves in its input what it writes over it, and else what was
there; behind this there can only be the log. -/
theorem run_read_input {content : Bytes} (unnamed : order.output? = none)
    (read : directory.read order.input = .ok content) :
    ∃ left added, (run order time stdin directory).directory.read order.input =
      .ok (left ++ added) ∧
      (∀ written, Overwrites order time stdin directory written → left = written) ∧
      ((∀ written, ¬ Overwrites order time stdin directory written) → left = content) ∧
      (added ≠ [] → ∃ route, directory.openFile order.input = .ok route ∧
        ∃ start, order.Starts time directory start (some route)) := by
  obtain ⟨route, opened, listed⟩ := read_eq_ok.1 read
  by_cases starts : ∃ start log?, order.Starts time directory start log?
  · obtain ⟨start, log?, starts⟩ := starts
    have kept : start.fileAt? route = some content := by
      rw [starts.fileAt?, listed]
      split <;> rfl
    have opened' := starts.extends.openFile opened (get?_ne_folder kept)
    obtain ⟨left, done, replaced, never⟩ := perform_fileAt?_input stdin unnamed starts opened' kept
    obtain ⟨-, grown, added, files⟩ := run_of_starts stdin starts
    have after : (run order time stdin directory).directory.fileAt? route =
        some (left ++ if log? = some route then added else []) := by
      rw [files, done]
      split <;> simp
    refine ⟨left, if log? = some route then added else [], ?_, replaced, never, fun nonempty => ?_⟩
    · have still := (grown.trans (perform_extends order stdin start)).openFile opened'
        (get?_ne_folder after)
      exact read_eq_ok.2 ⟨route, still, after⟩
    · split at nonempty
      next here => exact ⟨route, opened, start, here ▸ starts⟩
      · exact absurd rfl nonempty
  · have closed : ∀ start log?, ¬ order.Starts time directory start log? :=
      fun start log? started => starts ⟨start, log?, started⟩
    rw [run_of_not_starts stdin closed]
    refine ⟨content, [],
      by rw [List.append_nil]; exact read, ?_, fun _ => rfl, fun absurd => (absurd rfl).elim⟩
    rintro written ⟨started⟩
    exact absurd started (closed _ _)

/-- A source, and a configuration with its extension as the suffix of output files. -/
def sameSuffix : Directory :=
  [(["a.jsx".toList], .file (encode "const x = 1;".toList)),
   ([standardConfig], .file (encode "output_suffix: .jsx\n".toList))]

/-- The source is read, and what was converted from it is all that is left of it. -/
theorem run_read_sameSuffix :
    sameSuffix.read "a.jsx".toList = .ok (encode "const x = 1;".toList) ∧
      (∃ written, Overwrites (plainOrder "a.jsx".toList) ⟨[], []⟩ [] sameSuffix written) ∧
      ∃ left added, (run (plainOrder "a.jsx".toList) ⟨[], []⟩ [] sameSuffix).directory.read
        "a.jsx".toList =
          .ok (left ++ added) ∧
        (∀ written, Overwrites (plainOrder "a.jsx".toList) ⟨[], []⟩ [] sameSuffix written →
          left = written) ∧
        ((∀ written, ¬ Overwrites (plainOrder "a.jsx".toList) ⟨[], []⟩ [] sameSuffix written) →
          left = encode "const x = 1;".toList) ∧
        (added ≠ [] → ∃ route, sameSuffix.openFile "a.jsx".toList = .ok route ∧
          ∃ start, (plainOrder "a.jsx".toList).Starts ⟨[], []⟩ sameSuffix start (some route)) := by
  have read : sameSuffix.read "a.jsx".toList = .ok (encode "const x = 1;".toList) := by
    decide +kernel
  have reaches : (plainOrder "a.jsx".toList).Reaches [] sameSuffix
      { Options.standard with outputSuffix := .ofText ".jsx".toList } "const x = 1;".toList :=
    ⟨except_toOption_eq_some.1 (by decide +kernel),
      by decide +kernel, except_toOption_eq_some.1 (by decide +kernel)⟩
  have named : (Path.namesOf (plainOrder "a.jsx".toList).input).getLast? = some "a.jsx".toList := by
    decide +kernel
  have extension : ".jsx".toList = Path.extensionOf "a.jsx".toList := by decide +kernel
  have overwrites : ∃ written,
      Overwrites (plainOrder "a.jsx".toList) ⟨[], []⟩ [] sameSuffix written :=
    (overwrites_iff (.unlogged rfl) reaches rfl (by decide +kernel) (by decide +kernel) named rfl
      (by decide +kernel)).2 extension
  exact ⟨read, overwrites, run_read_input rfl read⟩

/-- The source is lost, and the run succeeds. -/
theorem run_sameSuffix_overwrites :
    (run (plainOrder "a.jsx".toList) ⟨[], []⟩ [] sameSuffix).exitCode = 0 ∧
      (run (plainOrder "a.jsx".toList) ⟨[], []⟩ [] sameSuffix).directory.read "a.jsx".toList ≠
        sameSuffix.read "a.jsx".toList := by
  decide +kernel

end Recast
