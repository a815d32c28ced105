import Recast.Text.Basic

/-!
# Lengths

No part of a text is longer than the text: the bounds that recursion on parts of a text rests on.
-/

namespace Recast

theorem length_slice_le (t : Text) (start stop : Nat) : (slice t start stop).length ≤ t.length := by
  simp only [slice, List.length_drop, List.length_take]
  omega

theorem length_trimStart_le (t : Text) : (trimStart t).length ≤ t.length :=
  (List.dropWhile_sublist _).length_le

theorem length_trim_le (t : Text) : (trim t).length ≤ t.length := by
  have inner := (List.dropWhile_sublist isBlank (l := (trimStart t).reverse)).length_le
  simp only [List.length_reverse] at inner
  simp only [trim, trimEnd, dropEndWhile, List.length_reverse]
  exact Nat.le_trans inner (length_trimStart_le t)

theorem length_dropHead?_le {head t rest : Text} (h : dropHead? head t = some rest) :
    rest.length ≤ t.length := by
  fun_induction dropHead? head t with
  | case1 => simp_all
  | case2 => simp at h
  | case3 _ _ _ ih =>
    have := ih h
    simp only [List.length_cons]
    omega
  | case4 => simp at h

theorem length_cutAt?_le {mark : Char} {t before after : Text}
    (h : cutAt? mark t = some (before, after)) : after.length ≤ t.length := by
  fun_induction cutAt? mark t generalizing before with
  | case1 => simp at h
  | case2 cs => simp_all
  | case3 c cs hc ih =>
    obtain ⟨⟨b, a⟩, hb, he⟩ := Option.map_eq_some_iff.1 h
    obtain ⟨rfl, rfl⟩ := Prod.mk.inj he
    have := ih hb
    simp only [List.length_cons]
    omega

end Recast
