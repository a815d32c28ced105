import Mathlib.Tactic.Common
import Recast.Proofs.Text.Part
import Recast.Text.Edit

/-!
# Gaps between spans

Spans that stand in order (`OrderedFrom`) cut a text into gaps and pieces: `gapsFrom` gives the
texts between them, and `weave` puts pieces between gaps. A text is woven from its own gaps and
pieces (`weave_gapsFrom`), and replacing spans weaves the same gaps with the new texts
(`replaceSpans_eq_weave`).

Edits without overlap have spans in order (`orderedFrom_dropOverlaps`), and a piece that none of
them touches is copied (`replaceFrom_untouched`).
-/

namespace Recast

/-- Spans from `last` up to `size` in order: none is empty, and none starts before the end of an
earlier one. -/
def OrderedFrom (size last : Nat) : List Span → Prop
  | [] => last ≤ size
  | span :: spans => last ≤ span.start ∧ span.start < span.stop ∧ OrderedFrom size span.stop spans

/-- The texts from `last` on that no span covers: before each span, and behind the last one. -/
def gapsFrom (t : Text) (last : Nat) : List Span → List Text
  | [] => [t.drop last]
  | span :: spans => slice t last span.start :: gapsFrom t span.stop spans

/-- Gaps with the pieces between them, in turn. -/
def weave : List Text → List Text → Text
  | gap :: gaps, piece :: pieces => gap ++ piece ++ weave gaps pieces
  | gaps, _ => gaps.flatten

theorem weave_singleton (gap : Text) : weave [gap] [] = gap :=
  List.append_nil gap

theorem slice_append_drop (t : Text) {start stop : Nat} (h : start ≤ stop) :
    slice t start stop ++ t.drop stop = t.drop start := by
  have split : stop = start + (stop - start) := by omega
  rw [slice, List.drop_take, split, ← List.drop_drop, Nat.add_sub_cancel_left,
    List.take_append_drop]

/-- Weaving the gaps of a text with what the spans cover gives the text back. -/
theorem weave_gapsFrom {t : Text} :
    ∀ {spans : List Span} {last : Nat}, OrderedFrom t.length last spans →
    weave (gapsFrom t last spans) (spans.map (·.of t)) = t.drop last
  | [], last, _ => weave_singleton (t.drop last)
  | span :: spans, last, ⟨before, inside, rest⟩ => by
    rw [gapsFrom, List.map_cons, weave, weave_gapsFrom rest, List.append_assoc, Span.of,
      slice_append_drop t inside.le, slice_append_drop t before]

theorem replaceFrom_eq_weave (t : Text) : ∀ (edits : List Edit) (last : Nat),
    replaceFrom t last edits = weave (gapsFrom t last (edits.map (·.span))) (edits.map (·.text))
  | [], last => (weave_singleton (t.drop last)).symm
  | edit :: edits, last => by
    rw [replaceFrom, replaceFrom_eq_weave t edits]
    rfl

/-- Replacing spans keeps the gaps between them. -/
theorem replaceSpans_eq_weave (t : Text) (edits : List Edit) :
    replaceSpans t edits = weave (gapsFrom t 0 (edits.map (·.span))) (edits.map (·.text)) :=
  replaceFrom_eq_weave t edits 0

/-! ## Edits without overlap -/

theorem mem_of_mem_dropOverlaps {edit : Edit} : ∀ {edits : List Edit} {last : Nat},
    edit ∈ dropOverlaps last edits → edit ∈ edits
  | [], _, h => h
  | first :: edits, last, h => by
    rw [dropOverlaps] at h
    split at h
    · exact List.mem_cons_of_mem _ (mem_of_mem_dropOverlaps h)
    · rcases List.mem_cons.1 h with rfl | h
      · exact List.mem_cons_self
      · exact List.mem_cons_of_mem _ (mem_of_mem_dropOverlaps h)

/-- Of edits inside a text, those that are made are in order. -/
theorem orderedFrom_dropOverlaps {size : Nat} : ∀ {edits : List Edit} {last : Nat}, last ≤ size →
    (∀ edit ∈ edits, edit.span.start < edit.span.stop ∧ edit.span.stop ≤ size) →
      OrderedFrom size last ((dropOverlaps last edits).map (·.span))
  | [], _, fits, _ => fits
  | edit :: edits, last, fits, h => by
    have rest : ∀ edit ∈ edits, edit.span.start < edit.span.stop ∧ edit.span.stop ≤ size :=
      fun edit hm => h edit (List.mem_cons_of_mem _ hm)
    obtain ⟨inside, stops⟩ := h edit List.mem_cons_self
    rw [dropOverlaps]
    split
    · exact orderedFrom_dropOverlaps fits rest
    · rename_i after
      exact ⟨Nat.not_lt.1 after, inside, orderedFrom_dropOverlaps stops rest⟩

theorem slice_append_slice (t : Text) {start middle stop : Nat} (before : start ≤ middle)
    (after : middle ≤ stop) : slice t start middle ++ slice t middle stop = slice t start stop := by
  have cut : slice t start middle = slice (t.take stop) start middle := by
    rw [slice, slice, List.take_take, Nat.min_eq_left after]
  rw [cut]
  exact slice_append_drop (t.take stop) before

/-- A piece that no edit touches is copied between what becomes of the text before it and behind
it. -/
theorem replaceFrom_untouched {t : Text} {start stop : Nat} (order : start ≤ stop) :
    ∀ {edits : List Edit} {last : Nat},
    last ≤ start → OrderedFrom t.length last (edits.map (·.span)) →
    (∀ edit ∈ edits, edit.span.stop ≤ start ∨ stop ≤ edit.span.start) →
      ∃ first second, edits = first ++ second ∧
        replaceFrom t last edits =
          replaceFrom (t.take start) last first ++ slice t start stop ++ replaceFrom t stop second
  | [], last, before, _, _ => by
    refine ⟨[], [], rfl, ?_⟩
    rw [replaceFrom, replaceFrom, replaceFrom, List.append_assoc, slice_append_drop t order]
    exact (slice_append_drop t before).symm
  | edit :: edits, last, before, ⟨after, inside, ordered⟩, h => by
    rcases h edit List.mem_cons_self with early | late
    · obtain ⟨first, second, rfl, split⟩ :=
        replaceFrom_untouched order early ordered fun edit hm => h edit (List.mem_cons_of_mem _ hm)
      refine ⟨edit :: first, second, rfl, ?_⟩
      have gap : slice (t.take start) last edit.span.start = slice t last edit.span.start := by
        rw [slice, slice, List.take_take, Nat.min_eq_left (inside.le.trans early)]
      rw [replaceFrom, replaceFrom, split, gap]
      simp only [List.append_assoc]
    · refine ⟨[], edit :: edits, rfl, ?_⟩
      have gap : slice t last edit.span.start =
          slice t last start ++ (slice t start stop ++ slice t stop edit.span.start) := by
        rw [slice_append_slice t order late, slice_append_slice t before (order.trans late)]
      rw [replaceFrom, replaceFrom, replaceFrom, gap]
      simp only [slice, List.append_assoc]

end Recast
