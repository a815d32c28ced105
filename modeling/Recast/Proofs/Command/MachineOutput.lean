import Recast.Proofs.Command.Performance
import Recast.Proofs.Console.ControlFree

/-!
# Output for other programs

Where standard output is for the result, a run should put the result there and nothing else, and all
that it has to say on standard error (`Clean`). It does so just if the code holds no control
sequence and can be encoded; a document is always clean. Standard output loses the control sequences
of the code, which a file keeps, and it stays empty if the code cannot be encoded (`run_clean_iff`).
-/

namespace Recast

variable {order : Order} {time : LogTime} {stdin : Text} {directory : Directory}
variable {options : Options} {source : Text}

/-- Standard output holds the result and nothing else, standard error all messages, and the exit
code tells whether the conversion was reached and succeeded. -/
structure Clean (order : Order) (time : LogTime) (stdin : Text) (directory : Directory) : Prop where
  /-- The whole report, if it is asked for. -/
  document : order.asJson = true → ∀ options source, order.Reaches stdin directory options source →
    (run order time stdin directory).stdout = (convert options source).document ++ ['\n']
  /-- Else the code of a conversion that succeeds. -/
  code : order.asJson = false → ∀ options source, order.Reaches stdin directory options source →
    (convert options source).success = true →
      Wide.ofText (run order time stdin directory).stdout = (convert options source).code
  /-- Else nothing: no conversion is reached, or one that fails. -/
  empty : (∀ options source, order.Reaches stdin directory options source →
      order.asJson = false ∧ (convert options source).success = false) →
    (run order time stdin directory).stdout = []
  /-- Everything that is shown. -/
  shown : ∀ t, .showed t ∈ (perform order stdin directory).acts →
    t <:+: (run order time stdin directory).stderr
  /-- After the conversion: what was said up to its end, and then what the report says. -/
  messages : ∀ options source, order.Reaches stdin directory options source →
    (run order time stdin directory).stderr =
      (order.opening directory options source).flatMap
        (Act.stderr true (.ofVerbosity order.verbosity)) ++
        if order.asJson then [] else Console.report order.verbosity (convert options source)
  /-- Without a conversion: last the trouble that keeps a run from reaching it. -/
  trouble : (∀ options source, ¬ order.Reaches stdin directory options source) →
    ∃ message, Console.error message <:+ (run order time stdin directory).stderr
  exit : (run order time stdin directory).exitCode = 0 ↔
    ∃ options source, order.Reaches stdin directory options source ∧
      (convert options source).success = true

/-! ## The streams of a run -/

theorem flatMap_stdout {acts : List Act} (h : acts.all Act.isMessage) :
    acts.flatMap (Act.stdout true) = [] := by
  rw [List.flatMap_eq_nil_iff]
  intro act member
  cases act with
  | wrote t => cases List.all_eq_true.1 h _ member
  | showed t => rfl
  | logged record => rfl

theorem infix_stderr {acts : List Act} {t : Text} (h : .showed t ∈ acts) (least : Level) :
    t <:+: acts.flatMap (Act.stderr true least) := by
  obtain ⟨before, after, rfl⟩ := List.append_of_mem h
  exact ⟨before.flatMap (Act.stderr true least), after.flatMap (Act.stderr true least),
    by simp [Act.stderr]⟩

theorem failed_isMessage {acts : List Act} (h : acts.all Act.isMessage) (trouble : Trouble) :
    (Performance.failed acts directory trouble).acts.all Act.isMessage := by
  rw [Performance.failed, List.all_append, h, trouble.acts_isMessage]
  rfl

theorem Trouble.exists_message {trouble : Trouble} (h : trouble ≠ .unprintable) :
    ∃ message, trouble.messages.2 = some message := by
  cases trouble with
  | unprintable => exact absurd rfl h
  | _ => exact ⟨_, rfl⟩

section Machine

variable (machine : order.isMachine = true) (unlogged : order.logs? = none)
include machine unlogged

/-- A run without a log puts its acts on the two streams. -/
theorem run_of_machine :
    (run order time stdin directory).exitCode = (perform order stdin directory).exitCode ∧
      (run order time stdin directory).stdout = (perform order stdin directory).acts.flatMap
        (Act.stdout true) ∧
      (run order time stdin directory).stderr =
        (perform order stdin directory).acts.flatMap
          (Act.stderr true (.ofVerbosity order.verbosity)) := by
  rw [run, unlogged, ← machine]
  exact ⟨rfl, rfl, rfl⟩

/-- A run that does not reach the conversion leaves standard output empty and shows its trouble. -/
theorem run_of_not_reaches (h : ∀ options source, ¬ order.Reaches stdin directory options source) :
    (run order time stdin directory).stdout = [] ∧ (run order time stdin directory).exitCode ≠ 0 ∧
      ∃ message, Console.error message <:+ (run order time stdin directory).stderr := by
  obtain ⟨exit, stdout, stderr⟩ := run_of_machine machine unlogged
  obtain ⟨acts, trouble, messages, printable, failed⟩ := perform_of_not_reaches h
  obtain ⟨message, shown⟩ := Trouble.exists_message (printable machine)
  rw [exit, stdout, stderr, failed]
  refine ⟨flatMap_stdout (failed_isMessage messages trouble), Nat.one_ne_zero, message, ?_⟩
  rw [Performance.failed, Trouble.acts, shown, List.flatMap_append]
  refine List.IsSuffix.trans ?_ (List.suffix_append _ _)
  simp [Act.stderr]

/-- A document goes to standard output as it is. -/
theorem run_of_document (json : order.asJson = true)
    (h : order.Reaches stdin directory options source) :
    (run order time stdin directory).stdout = (convert options source).document ++ ['\n'] ∧
      (run order time stdin directory).exitCode = (convert options source).exitCode ∧
      (run order time stdin directory).stderr =
        (order.opening directory options source).flatMap
          (Act.stderr true (.ofVerbosity order.verbosity)) := by
  obtain ⟨exit, stdout, stderr⟩ := run_of_machine machine unlogged
  have delivery : order.delivery = .document := by rw [Order.delivery, json]; rfl
  rw [exit, stdout, stderr, perform_of_reaches h, deliver, delivery]
  simp [flatMap_stdout (order.opening_isMessage directory options source), Act.stdout, Act.stderr]

/-- Code goes to standard output without its control sequences, and the report to standard error. -/
theorem run_of_code (json : order.asJson = false) (h : order.Reaches stdin directory options source)
    (encodable : (convert options source).code.text?.isSome) :
    Wide.ofText (run order time stdin directory).stdout =
      withoutControls (convert options source).code ∧
      (run order time stdin directory).exitCode = (convert options source).exitCode ∧
      (run order time stdin directory).stderr =
        (order.opening directory options source).flatMap
          (Act.stderr true (.ofVerbosity order.verbosity)) ++
          Console.report order.verbosity (convert options source) := by
  obtain ⟨exit, stdout, stderr⟩ := run_of_machine machine unlogged
  have delivery : order.delivery = .code := by rw [Order.delivery, json, machine]; rfl
  obtain ⟨text, left⟩ := Option.isSome_iff_exists.1 ((text?_withoutControls _).2 encodable)
  have left := Wide.text?_eq_some.1 left
  rw [exit, stdout, stderr, perform_of_reaches h, deliver, delivery]
  simp only [Wide.toText_eq_ok.2 left]
  rw [left]
  simp [flatMap_stdout (order.opening_isMessage directory options source), Act.stdout, Act.stderr]

/-- Code that cannot be encoded leaves standard output empty. -/
theorem run_of_unencodable (json : order.asJson = false)
    (h : order.Reaches stdin directory options source)
    (unencodable : ¬ (convert options source).code.text?.isSome) :
    (run order time stdin directory).stdout = [] ∧
      (run order time stdin directory).exitCode ≠ 0 := by
  obtain ⟨exit, stdout, stderr⟩ := run_of_machine machine unlogged
  have delivery : order.delivery = .code := by rw [Order.delivery, json, machine]; rfl
  rw [← text?_withoutControls, Wide.text?] at unencodable
  rw [exit, stdout, perform_of_reaches h, deliver, delivery]
  dsimp only
  cases left : (withoutControls (convert options source).code).toText with
  | ok text => simp [left, Except.toOption] at unencodable
  | error fault =>
    exact ⟨flatMap_stdout (failed_isMessage (order.opening_isMessage _ _ _) _), Nat.one_ne_zero⟩

end Machine

theorem Report.exitCode_eq_zero {report : Report} :
    report.exitCode = 0 ↔ report.success = true := by
  rw [Report.exitCode]
  split <;> simp_all

/-! ## Clean runs -/

/-- A run that reaches the conversion of plain code, or is asked for a document, is clean. -/
theorem run_of_plain (machine : order.isMachine = true) (unlogged : order.logs? = none)
    (reaches : order.Reaches stdin directory options source)
    (plain : order.asJson = false → (convert options source).success = true →
      ¬ HasControl (convert options source).code ∧ options.importModule.text?.isSome) :
    (run order time stdin directory).exitCode = (convert options source).exitCode ∧
      (run order time stdin directory).stderr =
        (order.opening directory options source).flatMap
          (Act.stderr true (.ofVerbosity order.verbosity)) ++
          (if order.asJson then [] else Console.report order.verbosity (convert options source)) ∧
      (order.asJson = true →
        (run order time stdin directory).stdout = (convert options source).document ++ ['\n']) ∧
      (order.asJson = false →
        Wide.ofText (run order time stdin directory).stdout = (convert options source).code) := by
  cases json : order.asJson with
  | true =>
    obtain ⟨stdout, exit, stderr⟩ := run_of_document machine unlogged json reaches
    exact ⟨exit, by simpa using stderr, fun _ => stdout, nofun⟩
  | false =>
    have kept : (convert options source).code.text?.isSome ∧
        ¬ HasControl (convert options source).code := by
      cases success : (convert options source).success with
      | true =>
        obtain ⟨free, encodable⟩ := plain json success
        exact ⟨(convert_code_isSome success).2 encodable, free⟩
      | false =>
        rw [convert_code_of_failure success]
        exact ⟨rfl, withoutControls_eq_self_iff.1 rfl⟩
    obtain ⟨stdout, exit, stderr⟩ := run_of_code machine unlogged json reaches kept.1
    rw [withoutControls_eq_self_iff.2 kept.2] at stdout
    exact ⟨exit, by simpa using stderr, nofun, fun _ => stdout⟩

theorem clean_of_plain (machine : order.isMachine = true) (unlogged : order.logs? = none)
    (plain : ∀ options source, order.Reaches stdin directory options source → order.asJson = false →
      (convert options source).success = true →
        ¬ HasControl (convert options source).code ∧ options.importModule.text?.isSome) :
    Clean order time stdin directory := by
  have shown (t : Text) (h : .showed t ∈ (perform order stdin directory).acts) :
      t <:+: (run order time stdin directory).stderr := by
    rw [(run_of_machine machine unlogged).2.2]
    exact infix_stderr h _
  by_cases reached : ∃ options source, order.Reaches stdin directory options source
  · obtain ⟨options, source, reaches⟩ := reached
    obtain ⟨exit, stderr, document, code⟩ :=
      run_of_plain machine unlogged reaches (plain _ _ reaches)
    refine ⟨fun json _ _ reaches' => ?_, fun json _ _ reaches' _ => ?_, fun silent => ?_, shown,
      fun _ _ reaches' => ?_, fun unreached => absurd reaches (unreached _ _), ?_⟩
    · obtain ⟨rfl, rfl⟩ := reaches.unique reaches'
      exact document json
    · obtain ⟨rfl, rfl⟩ := reaches.unique reaches'
      exact code json
    · obtain ⟨json, failed⟩ := silent _ _ reaches
      have nothing := code json
      rw [convert_code_of_failure failed] at nothing
      exact List.map_eq_nil_iff.1 nothing
    · obtain ⟨rfl, rfl⟩ := reaches.unique reaches'
      exact stderr
    · rw [exit, Report.exitCode_eq_zero]
      refine ⟨fun success => ⟨options, source, reaches, success⟩,
        fun ⟨_, _, reaches', success⟩ => ?_⟩
      obtain ⟨rfl, rfl⟩ := reaches.unique reaches'
      exact success
  · have unreached : ∀ options source, ¬ order.Reaches stdin directory options source :=
      fun options source reaches => reached ⟨options, source, reaches⟩
    obtain ⟨stdout, exit, trouble⟩ := run_of_not_reaches machine unlogged unreached
    exact ⟨fun _ _ _ reaches => absurd reaches (unreached _ _),
      fun _ _ _ reaches => absurd reaches (unreached _ _),
      fun _ => stdout, shown, fun _ _ reaches => absurd reaches (unreached _ _), fun _ => trouble,
      iff_of_false exit fun ⟨_, _, reaches, _⟩ => unreached _ _ reaches⟩

/-- A run is clean just if the code that it puts on standard output holds no control sequence and is
a text. If not, the control sequences are lost, or all of it. -/
theorem run_clean_iff (machine : order.isMachine = true) (unlogged : order.logs? = none) :
    (Clean order time stdin directory ↔
      ∀ options source, order.Reaches stdin directory options source →
      order.asJson = false → (convert options source).success = true →
        ¬ HasControl (convert options source).code ∧ options.importModule.text?.isSome) ∧
      ∀ options source, order.Reaches stdin directory options source → order.asJson = false →
        (convert options source).success = true →
          (options.importModule.text?.isSome →
            Wide.ofText (run order time stdin directory).stdout =
              withoutControls (convert options source).code ∧
              (run order time stdin directory).exitCode = 0) ∧
          (¬ options.importModule.text?.isSome →
            (run order time stdin directory).stdout = [] ∧
              (run order time stdin directory).exitCode ≠ 0) := by
  refine ⟨⟨fun clean options source reaches json success => ?_, clean_of_plain machine unlogged⟩,
    fun options source reaches json success => ⟨fun encodable => ?_, fun unencodable => ?_⟩⟩
  · have code := clean.code json options source reaches success
    have encodable : (convert options source).code.text?.isSome := by
      rw [← code, Wide.text?_ofText]
      rfl
    rw [(run_of_code machine unlogged json reaches encodable).1] at code
    exact ⟨withoutControls_eq_self_iff.1 code, (convert_code_isSome success).1 encodable⟩
  · rw [← convert_code_isSome success] at encodable
    obtain ⟨stdout, exit, -⟩ := run_of_code machine unlogged json reaches encodable
    exact ⟨stdout, exit.trans (Report.exitCode_eq_zero.2 success)⟩
  · rw [← convert_code_isSome success] at unencodable
    exact run_of_unencodable machine unlogged json reaches unencodable

/-- In an empty directory every text from standard input is converted with the standard options. -/
theorem reaches_stdin (stdin : Text) :
    (plainOrder ['-']).Reaches stdin [] Options.standard (uniformLines stdin) :=
  ⟨except_toOption_eq_some.1 (by decide +kernel), rfl, rfl⟩

/-- Code in which nothing is coloured comes out as it is. -/
theorem clean_plainCode :
    (plainOrder ['-']).isMachine = true ∧ (plainOrder ['-']).logs? = none ∧
      Clean (plainOrder ['-']) ⟨[], []⟩ "const c = 'red';".toList [] := by
  refine ⟨rfl, rfl, (run_clean_iff rfl rfl).1.2 fun options source reaches _ _ => ?_⟩
  obtain ⟨rfl, rfl⟩ := (reaches_stdin "const c = 'red';".toList).unique reaches
  exact ⟨withoutControls_eq_self_iff.1 (by decide +kernel), by decide +kernel⟩

/-- Code with a coloured word in a string. -/
def colouredCode : Text :=
  "const c = '\x1b[31mred\x1b[0m';\n".toList

/-- The word comes out without its colour, so the string is another one. -/
theorem not_clean_colouredCode : ¬ Clean (plainOrder ['-']) ⟨[], []⟩ colouredCode [] := by
  intro clean
  have code := clean.code rfl _ _ (reaches_stdin colouredCode) (by decide +kernel)
  exact absurd code (by decide +kernel)

end Recast
