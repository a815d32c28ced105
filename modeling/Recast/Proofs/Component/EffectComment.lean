import Mathlib.Data.List.Forall2
import Recast.Proofs.Component.HookExtraction
import Recast.Proofs.Text.Lines

/-!
# Effects as comments

An effect is commented out: `effectComment` puts the comment mark before every line of its body. The
dependency list stands behind one mark only, so that of a list on several lines only the first is
commented out. The lines that are left as code are the later lines of the list, unless they are
comments themselves (`liveLines_effectComment`), and a block is all comment just if the list has no
such line (`liveLines_lifecycle`).
-/

namespace Recast

/-- Whether a line is a comment. -/
def isCommentLine (line : Text) : Bool :=
  startsWith line "//".toList

/-- The lines of a text that are not comments. -/
def liveLines (t : Text) : List Text :=
  (lines t).filter fun line => !isCommentLine line

/-- The lines of an effect's dependency list behind the first, with the closing bracket, that are
not comments. -/
def EffectBlock.exposed (effect : EffectBlock) : List Text :=
  match effect.dependencies? with
  | none => []
  | some list => (lines (list ++ "]".toList)).tail.filter fun line => !isCommentLine line

/-! ## Comments -/

theorem isCommentLine_append (rest : Text) : isCommentLine ("//".toList ++ rest) := by
  rw [isCommentLine, startsWith, dropHead?_append]
  rfl

/-- A line of an effect's body with its mark is a comment. -/
theorem isCommentLine_trimEnd (line : Text) : isCommentLine (trimEnd ("// ".toList ++ line)) := by
  have mark : "// ".toList ++ line = "//".toList ++ (' ' :: line) := rfl
  rw [mark, trimEnd_append (by rintro c ⟨⟩; decide)]
  exact isCommentLine_append _

/-- A closing bracket behind a line makes no comment of it. -/
theorem isCommentLine_append_bracket (line : Text) :
    isCommentLine (line ++ "]".toList) = isCommentLine line := by
  match line with
  | [] => rfl
  | [c] => by_cases h : '/' = c <;> simp [isCommentLine, startsWith, dropHead?, h]
  | c :: d :: rest =>
    simp only [isCommentLine, startsWith, dropHead?, String.reduceToList, List.cons_append]
    split <;> [split <;> rfl; rfl]

/-! ## The lines of a block -/

theorem lines_effectBody (body : Text) :
    ((lines body).map fun line => trimEnd ("// ".toList ++ line)).flatMap lines =
      (lines body).map fun line => trimEnd ("// ".toList ++ line) := by
  rw [List.flatMap_map, List.map_eq_flatMap]
  refine List.flatMap_congr fun line hl => splitOn_eq_singleton fun hm => ?_
  rcases List.mem_append.1 (mem_of_mem_trimEnd hm) with hm | hm
  · exact absurd hm (by decide)
  · exact not_mem_of_mem_splitOn hl hm

/-- The lines of a block: its heading, the lines of the dependencies behind their label, and the
marked lines of the body. -/
theorem lines_effectComment (effect : EffectBlock) :
    ∃ heading first, isCommentLine heading ∧ isCommentLine first ∧
      lines (effectComment effect) =
        heading :: first ::
          ((effect.dependencies?.map fun list => (lines (list ++ "]".toList)).tail).getD []
          ++ (lines effect.body).map fun line => trimEnd ("// ".toList ++ line)) := by
  refine ⟨"// TODO: Move this useEffect logic into the appropriate lifecycle method".toList, ?_⟩
  have heading : lines
      "// TODO: Move this useEffect logic into the appropriate lifecycle method".toList =
      ["// TODO: Move this useEffect logic into the appropriate lifecycle method".toList] :=
    splitOn_eq_singleton (by decide)
  rw [effectComment, lines_unlines (by simp), List.flatMap_cons, List.flatMap_cons,
    lines_effectBody, heading]
  cases effect.dependencies? with
  | none =>
    have label :
        lines ("// Original useEffect dependencies: ".toList ++
          "none (ran after every render)".toList) =
        ["// Original useEffect dependencies: ".toList ++ "none (ran after every render)".toList] :=
      splitOn_eq_singleton (by decide)
    exact ⟨_, by decide, isCommentLine_append _, by rw [label]; rfl⟩
  | some list =>
    obtain ⟨first, rest, hl⟩ :=
      List.exists_cons_of_ne_nil (splitOn_ne_nil '\n' (list ++ "]".toList))
    have opened : "// Original useEffect dependencies: ".toList ++
        ("[".toList ++ list ++ "]".toList) =
        "// Original useEffect dependencies: [".toList ++ (list ++ "]".toList) := by
      rw [← List.append_assoc, ← List.append_assoc]
      rfl
    have label : lines ("// Original useEffect dependencies: [".toList ++ (list ++ "]".toList)) =
        ("// Original useEffect dependencies: [".toList ++ first) :: rest :=
      splitOn_append_first hl (by decide)
    have tail : (lines (list ++ "]".toList)).tail = rest := by rw [lines, hl, List.tail_cons]
    refine ⟨"// Original useEffect dependencies: [".toList ++ first,
      by decide, isCommentLine_append _, ?_⟩
    rw [Option.map_some, Option.getD_some, tail]
    dsimp only
    rw [opened, label]
    rfl

/-- What is left of a block as code is what its dependency list exposes. -/
theorem liveLines_effectComment (effect : EffectBlock) :
    liveLines (effectComment effect) = effect.exposed := by
  obtain ⟨heading, first, hh, hf, hl⟩ := lines_effectComment effect
  have body : ((lines effect.body).map fun line => trimEnd ("// ".toList ++ line)).filter
      (fun line => !isCommentLine line) = [] := by
    rw [List.filter_eq_nil_iff]
    intro line hm
    obtain ⟨written, -, rfl⟩ := List.mem_map.1 hm
    rw [isCommentLine_trimEnd]
    decide
  rw [liveLines, hl, List.filter_cons_of_neg (by simp [hh]), List.filter_cons_of_neg (by simp [hf]),
    List.filter_append, body, List.append_nil, EffectBlock.exposed]
  cases effect.dependencies? with
  | none => rfl
  | some list => rfl

/-- The closing bracket behind a list decides about no line of it. -/
theorem exposed_eq_nil_iff (effect : EffectBlock) :
    effect.exposed = [] ↔ ∀ list ∈ effect.dependencies?, ∀ line ∈ (lines list).tail,
      isCommentLine line := by
  rw [EffectBlock.exposed]
  cases effect.dependencies? with
  | none => simp
  | some list =>
    obtain ⟨front, last, hl⟩ :=
      (List.eq_nil_or_concat (lines list)).resolve_left (splitOn_ne_nil '\n' list)
    rw [List.concat_eq_append] at hl
    have closed : lines (list ++ "]".toList) = front ++ [last ++ "]".toList] :=
      splitOn_append_last (by decide) hl
    simp only [Option.mem_def, Option.some.injEq, forall_eq', List.filter_eq_nil_iff,
      Bool.not_eq_true, Bool.not_eq_false', closed, hl]
    cases front with
    | nil => simp
    | cons first front =>
      simp only [List.cons_append, List.tail_cons, List.mem_append, List.mem_singleton, or_imp,
        forall_and, forall_eq, isCommentLine_append_bracket]

/-! ## Every effect of a body -/

/-- Each effect of a body is a block whose lines are comments, but for what its dependency list
exposes: all of them are comments just if every line of the list behind the first is one. -/
theorem liveLines_lifecycle (options : Options) (body : Text) :
    ∃ extraction, (extractHooks options body).result = .ok extraction ∧
      List.Forall₂ (fun (effect : EffectBlock) block =>
        liveLines block = effect.exposed ∧
          ((∀ line ∈ lines block, isCommentLine line) ↔
            ∀ list ∈ effect.dependencies?, ∀ line ∈ (lines list).tail, isCommentLine line))
        extraction.effects extraction.lifecycle := by
  obtain ⟨replaced, result⟩ := extractHooks_result options body
  refine ⟨_, result, ?_⟩
  rw [List.forall₂_map_left_iff, List.forall₂_map_right_iff, List.forall₂_same]
  intro found _
  have live := liveLines_effectComment found.1
  refine ⟨live, ?_⟩
  rw [← exposed_eq_nil_iff, ← live, liveLines, List.filter_eq_nil_iff]
  simp

/-- The second line of a dependency list on two lines is code. -/
theorem liveLines_twoLineList :
    ((findEffects "useEffect(() => \x7b run(); \x7d, [a,\n  b]);".toList).map fun (effect, _) =>
      liveLines (effectComment effect)) = [["  b]".toList]] := by
  decide +kernel

end Recast
