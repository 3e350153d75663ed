import Mathlib.Data.List.Basic

/-!
A text with a selection and named marks, as text stores keep it: every edit replaces one span,
and the edges of all other spans move with the text around them. A mark on the edited span keeps
covering what is put there. The owner of the text, who edits it where the selection is, then has the
selection behind what is put there; nothing says where a foreign edit that puts text in leaves it.
-/

structure Span where
  start : ℕ
  stop : ℕ
  ordered : start ≤ stop
deriving DecidableEq

namespace Span

@[ext] theorem ext {r m : Span} (hs : r.start = m.start) (ht : r.stop = m.stop) : r = m := by
  cases r
  cases m
  simp_all

def length (r : Span) : ℕ := r.stop - r.start

theorem start_add_length (r : Span) : r.start + r.length = r.stop := by
  have := r.ordered
  rw [length]
  omega

def caret (p : ℕ) : Span := ⟨p, p, Nat.le_refl p⟩

def collapseEnd (r : Span) : Span := caret r.stop

def clip (n : ℕ) (r : Span) : Span :=
  ⟨min r.start n, min r.stop n, by have := r.ordered; omega⟩

def leftEdge (r : Span) (n p : ℕ) : ℕ :=
  if p ≤ r.start then p else if p < r.stop then r.start else p - r.length + n

def rightEdge (r : Span) (n p : ℕ) : ℕ :=
  if p < r.start then p else if p ≤ r.stop then r.start + n else p - r.length + n

theorem leftEdge_le_rightEdge (r : Span) (n : ℕ) {p q : ℕ} (h : p ≤ q) :
    r.leftEdge n p ≤ r.rightEdge n q := by
  have := r.ordered
  unfold leftEdge rightEdge length
  split_ifs <;> omega

theorem rightEdge_mono (r : Span) (n : ℕ) {p q : ℕ} (h : p ≤ q) :
    r.rightEdge n p ≤ r.rightEdge n q := by
  have := r.ordered
  unfold rightEdge length
  split_ifs <;> omega

/-- Where a mark goes when `n` symbols replace the span `r`. -/
def shift (r : Span) (n : ℕ) (m : Span) : Span :=
  ⟨r.leftEdge n m.start, r.rightEdge n m.stop, r.leftEdge_le_rightEdge n m.ordered⟩

/-- Where the selection goes when `n` symbols replace the span `r`. -/
def follow (r : Span) (n : ℕ) (m : Span) : Span :=
  ⟨r.rightEdge n m.start, r.rightEdge n m.stop, r.rightEdge_mono n m.ordered⟩

def written (r : Span) (n : ℕ) : Span := ⟨r.start, r.start + n, Nat.le_add_right _ _⟩

@[simp] theorem shift_self (r : Span) (n : ℕ) : r.shift n r = r.written n := by
  have := r.ordered
  ext <;> simp only [shift, written, leftEdge, rightEdge] <;> split_ifs <;> omega

theorem rightEdge_stop (r : Span) (n : ℕ) : r.rightEdge n r.stop = r.start + n := by
  have := r.ordered
  rw [rightEdge, if_neg (by omega), if_pos (Nat.le_refl _)]

@[simp] theorem follow_collapseEnd (r : Span) (n : ℕ) :
    r.follow n r.collapseEnd = (r.written n).collapseEnd := by
  apply Span.ext
  · exact r.rightEdge_stop n
  · exact r.rightEdge_stop n

theorem written_zero (p : ℕ) : (caret p).written 0 = caret p := rfl

theorem follow_self (r : Span) (n : ℕ) : r.follow n r = caret (r.start + n) := by
  have := r.ordered
  ext <;> simp only [follow, caret, rightEdge] <;> split_ifs <;> omega

end Span

def splice {α : Type} (text : List α) (r : Span) (xs : List α) : List α :=
  text.take r.start ++ xs ++ text.drop r.stop

theorem length_splice {α : Type} {text : List α} {r : Span} (h : r.stop ≤ text.length)
    (xs : List α) : (splice text r xs).length = text.length - r.length + xs.length := by
  have := r.ordered
  simp only [splice, Span.length, List.length_append, List.length_take, List.length_drop]
  omega

theorem splice_middle {α : Type} (before mid after xs : List α) :
    splice (before ++ mid ++ after) ((Span.caret before.length).written mid.length) xs =
      before ++ xs ++ after := by
  have htake : (before ++ mid ++ after).take before.length = before := by simp
  have hdrop : (before ++ mid ++ after).drop (before.length + mid.length) = after := by
    rw [← List.length_append]
    exact List.drop_left
  simp only [splice, Span.written, Span.caret, htake, hdrop]

/-- The `placements` are the selections that foreign edits are going to leave, one after the other. -/
structure MarkedText (α ι : Type) where
  text : List α
  selection : Span
  marks : ι → Option Span
  placements : ℕ → Span
  selection_le : selection.stop ≤ text.length
  marks_le : ∀ i m, marks i = some m → m.stop ≤ text.length

namespace MarkedText

variable {α ι : Type}

def covered (d : MarkedText α ι) (m : Span) : List α := (d.text.drop m.start).take m.length

theorem rightEdge_le {r : Span} {text xs : List α} (hr : r.stop ≤ text.length) {p : ℕ}
    (hp : p ≤ text.length) : r.rightEdge xs.length p ≤ (splice text r xs).length := by
  have := r.ordered
  rw [length_splice hr]
  unfold Span.rightEdge Span.length
  split_ifs <;> omega

/-- Put `xs` in the place of the span `r`; a span outside the text changes nothing. -/
def replace (d : MarkedText α ι) (r : Span) (xs : List α) : MarkedText α ι :=
  if hr : r.stop ≤ d.text.length then
    { text := splice d.text r xs
      selection := r.follow xs.length d.selection
      marks := fun i => (d.marks i).map (r.shift xs.length)
      placements := d.placements
      selection_le := rightEdge_le hr d.selection_le
      marks_le := by
        intro i m hm
        obtain ⟨m', hm', rfl⟩ := Option.map_eq_some_iff.mp hm
        exact rightEdge_le hr (d.marks_le i m' hm') }
  else d

def place (d : MarkedText α ι) : MarkedText α ι :=
  { d with
    selection := (d.placements 0).clip d.text.length
    placements := fun n => d.placements (n + 1)
    selection_le := Nat.min_le_right _ _ }

/-- A foreign edit. With nothing to put in, the selection can only close up around the gap. -/
def write (d : MarkedText α ι) (r : Span) (xs : List α) : MarkedText α ι :=
  if xs.isEmpty then d.replace r xs else (d.replace r xs).place

def select (d : MarkedText α ι) (r : Span) : MarkedText α ι :=
  if hr : r.stop ≤ d.text.length then { d with selection := r, selection_le := hr } else d

variable [DecidableEq ι]

def mark (d : MarkedText α ι) (i : ι) : MarkedText α ι :=
  { d with
    marks := Function.update d.marks i (some d.selection)
    marks_le := by
      intro j m hm
      by_cases hj : j = i
      · subst hj
        simp only [Function.update_self, Option.some.injEq] at hm
        exact hm ▸ d.selection_le
      · exact d.marks_le j m (by simpa [hj] using hm) }

def unmark (d : MarkedText α ι) (i : ι) : MarkedText α ι :=
  { d with
    marks := Function.update d.marks i none
    marks_le := by
      intro j m hm
      by_cases hj : j = i
      · simp [hj] at hm
      · exact d.marks_le j m (by simpa [hj] using hm) }

omit [DecidableEq ι]

theorem text_replace {d : MarkedText α ι} {r : Span} (hr : r.stop ≤ d.text.length) (xs : List α) :
    (d.replace r xs).text = splice d.text r xs := by
  simp [replace, hr]

theorem selection_replace {d : MarkedText α ι} {r : Span} (hr : r.stop ≤ d.text.length)
    (xs : List α) : (d.replace r xs).selection = r.follow xs.length d.selection := by
  simp [replace, hr]

theorem selection_select {d : MarkedText α ι} {r : Span} (hr : r.stop ≤ d.text.length) :
    (d.select r).selection = r := by
  simp [select, hr]

theorem marks_replace {d : MarkedText α ι} {r : Span} (hr : r.stop ≤ d.text.length) (xs : List α)
    (i : ι) : (d.replace r xs).marks i = (d.marks i).map (r.shift xs.length) := by
  simp [replace, hr]

@[simp] theorem isSome_marks_replace (d : MarkedText α ι) (r : Span) (xs : List α) (i : ι) :
    ((d.replace r xs).marks i).isSome = (d.marks i).isSome := by
  unfold replace
  split_ifs <;> simp

@[simp] theorem text_write (d : MarkedText α ι) (r : Span) (xs : List α) :
    (d.write r xs).text = (d.replace r xs).text := by
  unfold write
  split_ifs <;> rfl

@[simp] theorem marks_write (d : MarkedText α ι) (r : Span) (xs : List α) :
    (d.write r xs).marks = (d.replace r xs).marks := by
  unfold write
  split_ifs <;> rfl

theorem write_nil (d : MarkedText α ι) (r : Span) : d.write r [] = d.replace r [] := rfl

@[simp] theorem marks_select (d : MarkedText α ι) (r : Span) : (d.select r).marks = d.marks := by
  unfold select
  split_ifs <;> rfl

@[simp] theorem text_select (d : MarkedText α ι) (r : Span) : (d.select r).text = d.text := by
  unfold select
  split_ifs <;> rfl

theorem covered_write {d : MarkedText α ι} {r : Span} (hr : r.stop ≤ d.text.length)
    (xs : List α) : (d.write r xs).covered (r.written xs.length) = xs := by
  have := r.ordered
  have hlen : (d.text.take r.start).length = r.start := by simp; omega
  simp only [covered, text_write, text_replace hr, splice, Span.written, Span.length, List.append_assoc]
  rw [List.drop_append_of_le_length (by omega), List.drop_of_length_le (by omega)]
  simp

end MarkedText
