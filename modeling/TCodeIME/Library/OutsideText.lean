import TCodeIME.Library.MarkedText

/-!
What a text has outside one of its spans, and which edits leave all of that in it.
-/

namespace Span

def IsCaret (r : Span) : Prop := r.start = r.stop

instance (r : Span) : Decidable r.IsCaret := inferInstanceAs (Decidable (r.start = r.stop))

theorem isCaret_caret (p : ℕ) : (caret p).IsCaret := rfl

theorem leftEdge_caret (p n q : ℕ) : (caret p).leftEdge n q = if q ≤ p then q else q + n := by
  change (if q ≤ p then q else if q < p then p else q - (p - p) + n) = _
  split_ifs
  · rfl
  · omega
  · omega

theorem rightEdge_caret (p n q : ℕ) : (caret p).rightEdge n q = if q < p then q else q + n := by
  change (if q < p then q else if q ≤ p then p + n else q - (p - p) + n) = _
  split_ifs
  · rfl
  · omega
  · omega

theorem IsCaret.eq {r : Span} (h : r.IsCaret) : r = caret r.start := Span.ext rfl h.symm

theorem IsCaret.follow {m : Span} (h : m.IsCaret) (r : Span) (n : ℕ) : (r.follow n m).IsCaret :=
  congrArg (r.rightEdge n) h

theorem IsCaret.clip {m : Span} (h : m.IsCaret) (n : ℕ) : (m.clip n).IsCaret := congrArg (min · n) h

end Span

theorem splice_caret_nil {α : Type} (text : List α) {r : Span} (h : r.IsCaret) :
    splice text r [] = text := by
  have hstop : r.stop = r.start := h.symm
  rw [splice, List.append_nil, hstop, List.take_append_drop]

theorem splice_nil_sublist {α : Type} (text : List α) (r : Span) : (splice text r []).Sublist text := by
  have hdrop : (text.drop r.stop).Sublist (text.drop r.start) :=
    List.drop_sublist_drop_left text r.ordered
  have happend := (List.Sublist.refl (text.take r.start)).append hdrop
  rwa [List.take_append_drop, ← List.append_nil (text.take r.start)] at happend

section Edges

variable {α : Type} (before after xs : List α) (q : ℕ)

theorem take_sublist_leftEdge : ((before ++ after).take q).Sublist
    ((before ++ xs ++ after).take ((Span.caret before.length).leftEdge xs.length q)) := by
  rw [Span.leftEdge_caret]
  split_ifs with hq
  · rw [List.append_assoc, List.take_append_of_le_length hq, List.take_append_of_le_length hq]
  · obtain ⟨k, rfl⟩ := Nat.exists_eq_add_of_le (Nat.le_of_not_le hq)
    have hedge : before.length + k + xs.length = (before ++ xs).length + k := by
      rw [List.length_append]
      omega
    rw [hedge, List.take_length_add_append, List.take_length_add_append]
    exact (List.sublist_append_left before xs).append_right _

theorem drop_sublist_rightEdge : ((before ++ after).drop q).Sublist
    ((before ++ xs ++ after).drop ((Span.caret before.length).rightEdge xs.length q)) := by
  rw [Span.rightEdge_caret]
  split_ifs with hq
  · have hle : q ≤ before.length := Nat.le_of_lt hq
    rw [List.append_assoc, List.drop_append_of_le_length hle, List.drop_append_of_le_length hle]
    exact (List.sublist_append_right xs after).append_left _
  · obtain ⟨k, rfl⟩ := Nat.exists_eq_add_of_le (Nat.le_of_not_lt hq)
    have hedge : before.length + k + xs.length = (before ++ xs).length + k := by
      rw [List.length_append]
      omega
    rw [hedge, List.drop_length_add_append, List.drop_length_add_append]

end Edges

namespace MarkedText

variable {α ι : Type}

/-- Nothing is selected, and no foreign edit is going to leave anything selected. -/
def AtCaret (d : MarkedText α ι) : Prop := d.selection.IsCaret ∧ ∀ n, (d.placements n).IsCaret

section AtCaret

variable {d : MarkedText α ι}

theorem AtCaret.replace (h : d.AtCaret) (r : Span) (xs : List α) : (d.replace r xs).AtCaret := by
  unfold MarkedText.replace
  split_ifs
  · exact ⟨h.1.follow r xs.length, h.2⟩
  · exact h

theorem AtCaret.write (h : d.AtCaret) (r : Span) (xs : List α) : (d.write r xs).AtCaret := by
  have hreplaced := h.replace r xs
  unfold MarkedText.write
  split_ifs
  · exact hreplaced
  · exact ⟨(hreplaced.2 0).clip _, fun n => hreplaced.2 (n + 1)⟩

theorem AtCaret.select (h : d.AtCaret) {r : Span} (hr : r.IsCaret) : (d.select r).AtCaret := by
  unfold MarkedText.select
  split_ifs
  · exact ⟨hr, h.2⟩
  · exact h

end AtCaret

def outside (d : MarkedText α ι) (m : Option Span) : List α := m.elim d.text (splice d.text · [])

theorem outside_sublist (d : MarkedText α ι) (m : Option Span) : (d.outside m).Sublist d.text := by
  cases m with
  | none => exact List.Sublist.refl _
  | some r => exact splice_nil_sublist d.text r

theorem outside_replace_self {d : MarkedText α ι} {r : Span} (hr : r.stop ≤ d.text.length) (xs : List α) :
    (d.replace r xs).outside (some (r.shift xs.length r)) = d.outside (some r) := by
  have hlen : (d.text.take r.start).length = r.start := by
    have := r.ordered
    rw [List.length_take]
    omega
  have hmiddle := splice_middle (d.text.take r.start) xs (d.text.drop r.stop) []
  rw [hlen] at hmiddle
  simp only [outside, Option.elim, text_replace hr, Span.shift_self]
  exact hmiddle

theorem outside_sublist_replace {d : MarkedText α ι} {r : Span} (hr : r.stop ≤ d.text.length)
    (hcaret : r.IsCaret) (xs : List α) (m : Option Span) :
    (d.outside m).Sublist ((d.replace r xs).outside (m.map (r.shift xs.length))) := by
  have hlen : (d.text.take r.start).length = r.start := by
    rw [List.length_take, Nat.min_eq_left (Nat.le_trans r.ordered hr)]
  have hr' : r = .caret (d.text.take r.start).length := by
    rw [hlen]
    exact hcaret.eq
  have htext : d.text = d.text.take r.start ++ d.text.drop r.start := (List.take_append_drop _ _).symm
  have hreplaced : (d.replace r xs).text = d.text.take r.start ++ xs ++ d.text.drop r.start := by
    rw [text_replace hr, splice, show r.stop = r.start from hcaret.symm]
  cases m with
  | none =>
    simp only [outside, Option.elim, Option.map, hreplaced]
    conv_lhs => rw [htext]
    exact (List.sublist_append_left _ xs).append_right _
  | some m =>
    simp only [outside, Option.elim, Option.map, hreplaced, splice, Span.shift, List.append_nil]
    have htake := take_sublist_leftEdge (d.text.take r.start) (d.text.drop r.start) xs m.start
    have hdrop := drop_sublist_rightEdge (d.text.take r.start) (d.text.drop r.start) xs m.stop
    rw [← htext, ← hr'] at htake hdrop
    exact htake.append hdrop

end MarkedText
