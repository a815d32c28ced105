import Recast.Proofs.Component.HeadSearch
import Recast.Proofs.Source.ImportStripping
import Recast.Proofs.Stack.Components

/-!
# Sources that overflow

A template literal may hold another one in a substitution, and that one the next. The scan of a
literal calls the scan of its substitutions, which calls the scan of the literals in them
(`mem_inner_literal`, `mem_inner_bracket`), so the calls nest as the text does
(`failure?_templates`). A component that returns enough literals inside one another is therefore not
even found (`convertComponentsWithin_nestedTemplates`), whatever the limit is.
-/

namespace Recast

/-- Openings of template literals, each in a substitution of the one before. -/
def openedTemplates : Nat → Text
  | 0 => []
  | depth + 1 => '`' :: '$' :: '{' :: openedTemplates depth

/-- The ends of template literals, each with the end of its substitution. -/
def closedTemplates : Nat → Text
  | 0 => []
  | depth + 1 => '}' :: '`' :: closedTemplates depth

/-- The body of a component that returns `depth` template literals inside one another. -/
def nestedBody (depth : Nat) : Text :=
  '{' :: ("\n  return ".toList ++
    (openedTemplates depth ++ '1' :: (closedTemplates depth ++ ";\n\x7d\n".toList)))

/-- A component that returns `depth` template literals inside one another. -/
def nestedTemplates (depth : Nat) : Text :=
  "function App".toList ++ ("() ".toList ++ nestedBody depth)

/-! ## Calls inside calls -/

/-- A scan fails if one of its scans does. -/
theorem Scan.failure?_of_inner {scan inner : Scan} {limit : Nat} (mem : inner ∈ scan.inner)
    (failed : inner.failure? limit ≠ none) : scan.failure? (limit + 1) ≠ none := by
  rw [Scan.failure?]
  split
  · exact Option.some_ne_none _
  · intro none
    exact failed (List.findSome?_eq_none_iff.1 none inner mem)

section Loops

variable {σ : Type} {look : Look σ} {state : σ} {t cs : Text} {pos : Nat} {c : Char}

/-- The scans at the first character of a loop are among its scans. -/
theorem mem_scansAt {scan : Scan} (here : t.drop pos = c :: cs)
    (mem : scan ∈ (look state (t.take pos).reverse pos c cs).1) :
    scan ∈ scansAt look state t pos := by
  rw [scansAt, here, scansFrom, if_neg (Nat.not_lt_zero _)]
  split
  next looked =>
    rw [looked] at mem
    exact mem
  next looked =>
    rw [looked] at mem
    exact List.mem_append_left _ mem

theorem scansFrom_of_le {behind t : Text} {resume : Nat} (le : resume ≤ pos) :
    scansFrom look state behind pos resume t = scansFrom look state behind pos 0 t := by
  cases t with
  | nil => rfl
  | cons c cs => rw [scansFrom, scansFrom, if_neg (by omega), if_neg (Nat.not_lt_zero _)]

/-- A character at which nothing is called is passed over. -/
theorem scansAt_next {after : σ} (here : t.drop pos = c :: cs)
    (looked : look state (t.take pos).reverse pos c cs = ([], some (pos + 1, after))) :
    scansAt look state t pos = scansAt look after t (pos + 1) := by
  have next : t.drop (pos + 1) = cs := by rw [← List.drop_drop, here]; rfl
  have behind : (t.take (pos + 1)).reverse = c :: (t.take pos).reverse := by
    rw [List.take_add_one, ← List.head?_drop, here]
    simp
  rw [scansAt, here, scansFrom, if_neg (Nat.not_lt_zero _), looked, scansAt, next, behind]
  exact scansFrom_of_le (Nat.le_refl _)

end Loops

/-- A substitution at the start of a template literal is scanned. -/
theorem mem_inner_literal {t rest : Text} {pos : Nat}
    (here : t.drop pos = '`' :: '$' :: '{' :: rest) :
    .bracket t (pos + 2) ∈ (Scan.literal t pos).inner := by
  have next : t.drop (pos + 1) = '$' :: '{' :: rest := by rw [← List.drop_drop, here]; rfl
  rw [Scan.inner, here]
  exact mem_scansAt next (List.mem_singleton_self _)

/-- A literal in a bracket is scanned; before it stand plain characters that do not close the
bracket. -/
theorem mem_bracketScans {t rest : Text} {kind : Bracket} : ∀ {run : Text} {pos depth : Nat},
    (∀ c ∈ run, isPlainCode c ∧ c ≠ kind.closer) → t.drop pos = run ++ '`' :: rest →
      .literal t (pos + run.length) ∈ scansAt (bracketLook t kind) depth t pos
  | [], pos, depth, _, here => mem_scansAt here (List.mem_singleton_self _)
  | c :: run, pos, depth, plain, here => by
    obtain ⟨⟨code, open_⟩, later⟩ := List.forall_mem_cons.1 plain
    simp only [isPlainCode, Bool.and_eq_true, Bool.not_eq_true', bne_iff_ne] at code
    obtain ⟨⟨quote, slash⟩, markup⟩ := code
    have next : t.drop (pos + 1) = run ++ '`' :: rest := by rw [← List.drop_drop, here]; rfl
    have looked : ∃ after, bracketLook t kind depth (t.take pos).reverse pos c
        (run ++ '`' :: rest) = ([], some (pos + 1, after)) := by
      simp only [bracketLook, quote, markup, slash, open_, commentEnd?, if_false, decide_false,
        Bool.false_and, Bool.false_eq_true]
      split <;> exact ⟨_, rfl⟩
    obtain ⟨after, looked⟩ := looked
    rw [scansAt_next here looked, List.length_cons, ← Nat.add_assoc, Nat.add_right_comm]
    exact mem_bracketScans later next

theorem mem_inner_bracket {t rest : Text} {pos : Nat} (run : Text)
    (plain : ∀ c ∈ run, isPlainCode c ∧ c ≠ '}') (here : t.drop pos = '{' :: (run ++ '`' :: rest)) :
    .literal t (pos + 1 + run.length) ∈ (Scan.bracket t pos).inner := by
  have mem : .literal t (pos + ('{' :: run).length) ∈ scansAt (bracketLook t .curly) 0 t pos :=
    mem_bracketScans (List.forall_mem_cons.2 ⟨by decide, plain⟩) here
  rw [Scan.inner, here]
  rw [List.length_cons, ← Nat.add_assoc, Nat.add_right_comm] at mem
  exact mem

/-- Template literals inside one another need a call for each literal and each substitution. -/
theorem failure?_templates {t rest : Text} : ∀ (depth : Nat) {limit pos : Nat},
    t.drop pos = openedTemplates depth ++ rest → limit < 2 * depth →
      (Scan.literal t pos).failure? limit ≠ none
  | _, 0, _, _, _ => Option.some_ne_none _
  | _ + 1, 1, pos, here, _ =>
    Scan.failure?_of_inner (mem_inner_literal here) (Option.some_ne_none _)
  | 1, limit + 2, _, _, room => by omega
  | depth + 2, limit + 2, pos, here, room => by
    have inner : t.drop (pos + 2) = '{' :: (openedTemplates (depth + 1) ++ rest) := by
      rw [← List.drop_drop, here]
      rfl
    have next : t.drop (pos + 3) = openedTemplates (depth + 1) ++ rest := by
      rw [← List.drop_drop, here]
      rfl
    refine Scan.failure?_of_inner (mem_inner_literal here) ?_
    refine Scan.failure?_of_inner (mem_inner_bracket [] (List.forall_mem_nil _) inner) ?_
    exact failure?_templates (depth + 1) next (by omega)

/-! ## A component -/

theorem nestedTemplates_eq (depth : Nat) :
    nestedTemplates depth = "function App".toList ++ ("() ".toList ++ nestedBody depth) := rfl

theorem nestedBody_eq (depth : Nat) : nestedBody depth =
    '{' :: ("\n  return ".toList ++
      (openedTemplates depth ++ '1' :: (closedTemplates depth ++ ";\n\x7d\n".toList))) := rfl

theorem not_mem_openedTemplates {mark : Char} (absent : mark ∉ ['`', '$', '{']) :
    ∀ depth, mark ∉ openedTemplates depth
  | 0 => List.not_mem_nil
  | depth + 1 => by
    have rest := not_mem_openedTemplates absent depth
    simp_all [openedTemplates]

theorem not_mem_closedTemplates {mark : Char} (absent : mark ∉ ['}', '`']) :
    ∀ depth, mark ∉ closedTemplates depth
  | 0 => List.not_mem_nil
  | depth + 1 => by
    have rest := not_mem_closedTemplates absent depth
    simp_all [closedTemplates]

theorem not_mem_nestedTemplates {mark : Char}
    (front : mark ∉ "function App".toList ∧ mark ∉ "() ".toList ∧ mark ∉ "\n  return ".toList)
    (inside : mark ∉ ['`', '$', '{'] ∧ mark ≠ '1' ∧ mark ∉ ['}', '`'])
    (back : mark ∉ ";\n\x7d\n".toList) (depth : Nat) : mark ∉ nestedTemplates depth := by
  have opened := not_mem_openedTemplates inside.1 depth
  have closed := not_mem_closedTemplates inside.2.2 depth
  have brace : mark ≠ '{' := by
    rintro rfl
    exact inside.1 (by decide)
  rw [nestedTemplates_eq, nestedBody_eq]
  simp only [List.mem_append, List.mem_cons, not_or]
  exact ⟨front.1, front.2.1, brace, front.2.2, opened, inside.2.1, closed, back⟩

theorem stripImports_nestedTemplates (depth : Nat) :
    stripImports (nestedTemplates depth) = nestedTemplates depth := by
  refine (stripImports_eq_self_iff _).2 fun found mem => ?_
  obtain ⟨passed, ahead, size, split, here, -⟩ := exists_of_mem_occurrencesFrom mem
  obtain ⟨-, clauses, quote, inner, rest, word, -⟩ := importStatement_eq_some here
  have keyword : 'm' ∈ ahead.dropWhile isIndent := by
    rw [eq_append_of_dropHead? word]
    exact List.mem_append_left _ (by decide)
  have mem : 'm' ∈ nestedTemplates depth := by
    rw [split]
    exact List.mem_append_right passed ((List.dropWhile_suffix isIndent).subset keyword)
  exact absurd mem (not_mem_nestedTemplates (by decide) (by decide) (by decide) depth)

theorem occurrences_arrowComponent_nestedTemplates (depth : Nat) :
    occurrences arrowComponent (nestedTemplates depth) = [] := by
  refine List.eq_nil_iff_forall_not_mem.2 fun found mem => ?_
  obtain ⟨passed, ahead, size, split, here, -⟩ := exists_of_mem_occurrencesFrom mem
  obtain ⟨rest, reads, -⟩ := arrowComponent_needs here
  obtain ⟨front, gap, cut, -⟩ := exists_of_initialiser? reads
  have mem : '=' ∈ nestedTemplates depth := by
    rw [split, cut]
    simp
  exact absurd mem (not_mem_nestedTemplates (by decide) (by decide) (by decide) depth)

/-- The component is found by its head. -/
theorem mem_occurrences_nestedTemplates (depth : Nat) :
    ⟨0, 12, ⟨[], "App".toList, none⟩⟩ ∈ occurrences functionComponent (nestedTemplates depth) := by
  have found : functionComponent [] ("function App".toList ++ ("() ".toList ++ nestedBody depth)) =
      some (⟨[], "App".toList, none⟩, "function App".toList.length) := by
    refine functionComponent_eq_some.2 ⟨rfl, "App() ".toList ++ nestedBody depth, "App".toList,
      "() ".toList ++ nestedBody depth, rfl, rfl, rfl, ?_⟩
    have plain : ∀ ahead : Text, textBefore ahead ahead = [] := fun ahead => by
      rw [textBefore, Nat.sub_self, List.take_zero]
    refine Prod.ext (congrArg (DefinitionHead.mk · _ _) (plain _)) ?_
    exact (congrArg (· - _) List.length_append).trans (Nat.add_sub_cancel _ _)
  rw [nestedTemplates_eq, occurrences, occurrencesFrom_found 0 (by decide) found]
  exact List.mem_cons_self

theorem bracketEndAt?_nestedTemplates (depth : Nat) :
    bracketEndAt? (nestedTemplates depth) 12 = some 14 :=
  bracketEndAt?_nested (t := []) rfl (List.forall_mem_nil _) .round "function App".toList
    (' ' :: nestedBody depth)

theorem fromBrace?_nestedTemplates (depth : Nat) :
    fromBrace? ((nestedTemplates depth).drop 14) = some (nestedBody depth) := rfl

/-- The brace of the component's body is scanned to find the component. -/
theorem mem_definitionScans_nestedTemplates (depth : Nat) :
    .bracket (nestedTemplates depth) 15 ∈ definitionScans (nestedTemplates depth) := by
  have size : (nestedTemplates depth).length - (nestedBody depth).length = 15 := by
    rw [nestedTemplates_eq, List.length_append, List.length_append, ← Nat.add_assoc]
    exact Nat.add_sub_cancel _ _
  rw [definitionScans, occurrences_arrowComponent_nestedTemplates]
  refine List.mem_append_right _ (List.mem_flatMap.2
    ⟨_, mem_occurrences_nestedTemplates depth, List.mem_cons_of_mem _ ?_⟩)
  simp only [bracketEndAt?_nestedTemplates, Option.bind_some, fromBrace?_nestedTemplates, size]
  exact List.mem_singleton_self _

/-- Calls nest too deeply for the limit while the component is searched for. -/
theorem convertComponentsWithin_nestedTemplates {limit depth : Nat} (room : limit ≤ 2 * depth)
    (options : Options) :
    convertComponentsWithin limit options (nestedTemplates depth) = Attempt.fail .overflow := by
  have literal : (Scan.bracket (nestedTemplates depth) 15).failure? limit ≠ none := by
    cases limit with
    | zero => exact Option.some_ne_none _
    | succ limit =>
      cases depth with
      | zero => omega
      | succ depth =>
        refine Scan.failure?_of_inner (mem_inner_bracket "\n  return ".toList
          (by decide) rfl) ?_
        exact failure?_templates (depth + 1) rfl (by omega)
  have scans := allDefined_definitionScans (nestedTemplates depth)
  have overflow : (definitionScans (nestedTemplates depth)).findSome? (Scan.failure? limit) =
      some .overflow := by
    rcases findSome?_failure? scans limit with fine | overflow
    · exact absurd (List.findSome?_eq_none_iff.1 fine _ (mem_definitionScans_nestedTemplates depth))
        literal
    · exact overflow
  rw [convertComponentsWithin, convertFunctionalsWithin, Attempt.ask, overflow]
  rfl

end Recast
