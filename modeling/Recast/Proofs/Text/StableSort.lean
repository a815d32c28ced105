import Mathlib.Data.List.Sort

/-!
# Sorting by a key

`List.mergeSort` by a key is stable: the elements of one key stay in their order
(`filter_mergeSort_key`). A list in the order of its keys is determined by the elements of each key
(`eq_of_filter_key`), so a stable sort is known as soon as these are (`mergeSort_eq_of_filter`).
-/

namespace Recast

variable {α : Type} (key : α → Nat)

theorem pairwise_mergeSort_key (l : List α) :
    (l.mergeSort fun a b => decide (key a ≤ key b)).Pairwise fun a b => key a ≤ key b := by
  have sorted := @List.pairwise_mergeSort _ (fun a b => decide (key a ≤ key b))
    (fun a b c => by simp only [decide_eq_true_eq]; omega)
    (fun a b => by simp only [Bool.or_eq_true, decide_eq_true_eq]; omega) l
  exact sorted.imp fun h => of_decide_eq_true h

/-- The elements of one key stay in their order. -/
theorem filter_mergeSort_key (l : List α) (k : Nat) :
    (l.mergeSort fun a b => decide (key a ≤ key b)).filter (key · = k) = l.filter (key · = k) := by
  have level : (l.filter (key · = k)).Pairwise fun a b => decide (key a ≤ key b) := by
    refine List.pairwise_of_forall_mem_list fun a ha b hb => ?_
    simp only [List.mem_filter, decide_eq_true_eq] at ha hb ⊢
    omega
  have kept : (l.filter (key · = k)).Sublist (l.mergeSort fun a b => decide (key a ≤ key b)) :=
    List.sublist_mergeSort (fun a b c => by simp only [decide_eq_true_eq]; omega)
      (fun a b => by simp only [Bool.or_eq_true, decide_eq_true_eq]; omega) level
        List.filter_sublist
  have same := (List.mergeSort_perm l fun a b => decide (key a ≤ key b)).filter (key · = k)
  refine (List.Sublist.eq_of_length ?_ same.length_eq.symm).symm
  simpa using kept.filter (key · = k)

variable {key}

/-- Lists in the order of their keys are the same if they have the same elements of each key, in the
same order. -/
theorem eq_of_filter_key : ∀ {l l' : List α}, l.Pairwise (fun a b => key a ≤ key b) →
    l'.Pairwise (fun a b => key a ≤ key b) → (∀ k, l.filter (key · = k) = l'.filter (key · = k)) →
      l = l'
  | [], [], _, _, _ => rfl
  | [], b :: l', _, _, same => by simpa using same (key b)
  | a :: l, [], _, _, same => by simpa using same (key a)
  | a :: l, b :: l', sorted, sorted', same => by
    obtain ⟨first, rest⟩ := List.pairwise_cons.1 sorted
    obtain ⟨first', rest'⟩ := List.pairwise_cons.1 sorted'
    have least : ∀ {c : α} {cs : List α} {d : α}, (∀ e ∈ cs, key c ≤ key e) →
        d ∈ (c :: cs).filter (key · = key d) →
        key c ≤ key d := by
      intro c cs d smallest mem
      rcases List.mem_cons.1 (List.mem_of_mem_filter mem) with rfl | mem
      · exact Nat.le_refl _
      · exact smallest d mem
    have here : key a = key b :=
      Nat.le_antisymm (least first (by rw [same]; simp)) (least first' (by rw [← same]; simp))
    have heads := same (key b)
    rw [List.filter_cons_of_pos (by simp [here]), List.filter_cons_of_pos (by simp)] at heads
    obtain ⟨rfl, -⟩ := List.cons.inj heads
    refine congrArg _ (eq_of_filter_key rest rest' fun k => ?_)
    have tails := same k
    rw [List.filter_cons, List.filter_cons] at tails
    split at tails
    · exact (List.cons.inj tails).2
    · exact tails

/-- A list in the order of its keys is the stable sort of every list with the same elements of each
key. -/
theorem mergeSort_eq_of_filter {l l' : List α} (sorted : l'.Pairwise fun a b => key a ≤ key b)
    (same : ∀ k, l.filter (key · = k) = l'.filter (key · = k)) :
    (l.mergeSort fun a b => decide (key a ≤ key b)) = l' :=
  eq_of_filter_key (pairwise_mergeSort_key key l) sorted fun k =>
    (filter_mergeSort_key key l k).trans (same k)

/-- An element with the smallest key that comes first stays there. -/
theorem mergeSort_cons_of_le {a : α} {l : List α} (h : ∀ b ∈ l, key a ≤ key b) :
    (a :: l).mergeSort (fun a b => decide (key a ≤ key b)) = a :: l.mergeSort fun a b =>
      decide (key a ≤ key b) := by
  refine mergeSort_eq_of_filter ?_ fun k => ?_
  · exact List.pairwise_cons.2 ⟨fun b hb => h b (List.mem_mergeSort.1 hb),
      pairwise_mergeSort_key key l⟩
  · rw [List.filter_cons, List.filter_cons, filter_mergeSort_key]

/-- Elements with smaller keys are sorted on their own, and come first. -/
theorem mergeSort_of_lt {n : Nat} {small small' large large' : List α}
    (hs : ∀ a ∈ small ++ small', key a < n) (hl : ∀ a ∈ large ++ large', n ≤ key a) :
    ((small ++ large) ++ (small' ++ large')).mergeSort (fun a b => decide (key a ≤ key b)) =
      (small ++ small').mergeSort (fun a b => decide (key a ≤ key b)) ++
        (large ++ large').mergeSort (fun a b => decide (key a ≤ key b)) := by
  refine mergeSort_eq_of_filter ?_ fun k => ?_
  · refine List.pairwise_append.2 ⟨pairwise_mergeSort_key key _, pairwise_mergeSort_key key _,
      fun a ha b hb => ?_⟩
    have := hs a (List.mem_mergeSort.1 ha)
    have := hl b (List.mem_mergeSort.1 hb)
    omega
  · have none : ∀ {l : List α}, (∀ a ∈ l, key a ≠ k) → l.filter (key · = k) = [] := by
      intro l h
      simpa using h
    simp only [List.filter_append, filter_mergeSort_key]
    by_cases hk : k < n
    · rw [none (l := large) fun a ha => by have := hl a (by simp [ha]); omega,
        none (l := large') fun a ha => by have := hl a (by simp [ha]); omega]
      simp
    · rw [none (l := small) fun a ha => by have := hs a (by simp [ha]); omega,
        none (l := small') fun a ha => by have := hs a (by simp [ha]); omega]
      simp

end Recast
