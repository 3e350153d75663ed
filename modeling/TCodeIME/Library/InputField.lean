import TCodeIME.Library.MarkedText

/-!
A text field as its user sees it: a text, and either a selection in it or a preedit, at whose end
the caret then stands. An input method puts its strings in the place of that region.
-/

structure InputField (α : Type) where
  text : List α
  region : Span
  composing : Bool
  region_le : region.stop ≤ text.length

namespace InputField

variable {α : Type}

@[ext] theorem ext {f g : InputField α} (ht : f.text = g.text) (hr : f.region = g.region)
    (hc : f.composing = g.composing) : f = g := by
  cases f
  cases g
  simp_all

def selection (f : InputField α) : Span := if f.composing then f.region.collapseEnd else f.region

def replace (r : Span) (xs : List α) (f : InputField α) : InputField α :=
  if hr : r.stop ≤ f.text.length then
    { text := splice f.text r xs
      region := if f.composing then r.shift xs.length f.region else r.follow xs.length f.region
      composing := f.composing
      region_le := by
        split_ifs
        · exact MarkedText.rightEdge_le hr f.region_le
        · exact MarkedText.rightEdge_le hr f.region_le }
  else f

def select (r : Span) (f : InputField α) : InputField α :=
  if hr : f.composing = false ∧ r.stop ≤ f.text.length then { f with region := r, region_le := hr.2 }
  else f

def settle (f : InputField α) : InputField α :=
  if f.composing then { f with region := f.region.collapseEnd, composing := false } else f

theorem written_le_splice (committed composition : List α) (f : InputField α) :
    ((Span.caret (f.region.start + committed.length)).written composition.length).stop ≤
      (splice f.text f.region (committed ++ composition)).length := by
  have := f.region.ordered
  have := f.region_le
  rw [length_splice f.region_le]
  simp only [Span.written, Span.caret, Span.length, List.length_append]
  omega

def write (committed composition : List α) (f : InputField α) : InputField α where
  text := splice f.text f.region (committed ++ composition)
  region := (Span.caret (f.region.start + committed.length)).written composition.length
  composing := !composition.isEmpty
  region_le := written_le_splice committed composition f

def input (committed composition : List α) (f : InputField α) : InputField α :=
  if f.composing = false ∧ committed = [] ∧ composition = [] then f else f.write committed composition

@[simp] theorem settle_composing (f : InputField α) : f.settle.composing = false := by
  unfold settle
  split_ifs with h
  · rfl
  · simpa using h

@[simp] theorem settle_text (f : InputField α) : f.settle.text = f.text := by
  unfold settle
  split_ifs <;> rfl

@[simp] theorem settle_region (f : InputField α) : f.settle.region = f.selection := by
  unfold settle selection
  split_ifs <;> rfl

theorem settle_selection (f : InputField α) : f.settle.selection = f.selection := by
  rw [selection, if_neg (by simp), settle_region]

theorem selection_le (f : InputField α) : f.selection.stop ≤ f.text.length := by
  unfold selection
  split_ifs
  · exact f.region_le
  · exact f.region_le

theorem settle_of_not_composing {f : InputField α} (h : f.composing = false) : f.settle = f := by
  rw [settle, if_neg (by simp [h])]

theorem replace_of_le {f : InputField α} {r : Span} (hr : r.stop ≤ f.text.length) (xs : List α) :
    (f.replace r xs).text = splice f.text r xs ∧
      (f.replace r xs).region =
        (if f.composing then r.shift xs.length f.region else r.follow xs.length f.region) ∧
      (f.replace r xs).composing = f.composing := by
  rw [replace, dif_pos hr]
  exact ⟨rfl, rfl, rfl⟩

theorem replace_selection {f : InputField α} {r : Span} (hr : r.stop ≤ f.text.length) (xs : List α) :
    (f.replace r xs).selection = r.follow xs.length f.selection := by
  obtain ⟨-, hregion, hcomposing⟩ := replace_of_le hr xs
  unfold selection
  rw [hregion, hcomposing]
  split_ifs
  · rfl
  · rfl

theorem replace_region_settle (f : InputField α) (xs : List α) :
    (f.replace f.region xs).settle.text = splice f.text f.region xs ∧
      (f.replace f.region xs).settle.region = .caret (f.region.start + xs.length) := by
  obtain ⟨htext, -, -⟩ := replace_of_le f.region_le xs
  rw [settle_text, settle_region, replace_selection f.region_le]
  refine ⟨htext, ?_⟩
  unfold selection
  split_ifs
  · rw [Span.follow_collapseEnd]
    rfl
  · exact Span.follow_self _ _

theorem splice_splice {text : List α} {r : Span} (hr : r.stop ≤ text.length) (xs ys : List α) :
    splice (splice text r xs) (.caret (r.start + xs.length)) ys = splice text r (xs ++ ys) := by
  have hlen : (text.take r.start).length = r.start := by
    have := r.ordered
    rw [List.length_take]
    omega
  have hmiddle := splice_middle (text.take r.start ++ xs) [] (text.drop r.stop) ys
  rw [List.length_append, hlen, List.append_nil, List.length_nil, Span.written_zero] at hmiddle
  simpa only [splice, List.append_assoc] using hmiddle

theorem settle_replace_region (f : InputField α) (xs : List α) :
    (f.replace f.region xs).settle = f.write xs [] := by
  obtain ⟨htext, hregion⟩ := f.replace_region_settle xs
  apply InputField.ext
  · simp only [htext, write, List.append_nil]
  · exact hregion
  · exact settle_composing _

theorem write_write (f : InputField α) (xs ys : List α) : (f.write xs []).write [] ys = f.write xs ys := by
  apply InputField.ext
  · simp only [write, List.append_nil, List.nil_append]
    exact splice_splice f.region_le xs ys
  · rfl
  · rfl

theorem input_eq (committed composition : List α) (f : InputField α) :
    let g := if f.composing = false ∧ committed = [] then f else f.write committed []
    f.input committed composition = if composition = [] then g else g.write [] composition := by
  intro g
  by_cases hkept : f.composing = false ∧ committed = []
  · have hg : g = f := if_pos hkept
    rw [hg]
    by_cases hempty : composition = []
    · rw [if_pos hempty, input, if_pos ⟨hkept.1, hkept.2, hempty⟩]
    · rw [if_neg hempty, input, if_neg (by simp [hempty]), hkept.2]
  · have hg : g = f.write committed [] := if_neg hkept
    rw [hg, input, if_neg (fun h => hkept ⟨h.1, h.2.1⟩)]
    by_cases hempty : composition = []
    · rw [if_pos hempty, hempty]
    · rw [if_neg hempty, write_write]

section Splits

variable {P : List α → Prop}

structure Splits (P : List α → Prop) (f : InputField α) : Prop where
  before : P (f.text.take f.region.start)
  middle : P ((f.text.drop f.region.start).take f.region.length)
  after : P (f.text.drop f.region.stop)

theorem splits_iff {f : InputField α} : f.Splits P ↔ P (f.text.take f.region.start) ∧
    P ((f.text.drop f.region.start).take f.region.length) ∧ P (f.text.drop f.region.stop) :=
  ⟨fun h => ⟨h.before, h.middle, h.after⟩, fun h => ⟨h.1, h.2.1, h.2.2⟩⟩

instance [DecidablePred P] (f : InputField α) : Decidable (f.Splits P) := decidable_of_iff _ splits_iff.symm

theorem text_eq (f : InputField α) : f.text =
    f.text.take f.region.start ++ (f.text.drop f.region.start).take f.region.length ++
      f.text.drop f.region.stop := by
  rw [List.append_assoc, ← f.region.start_add_length, ← List.drop_drop, List.take_append_drop, List.take_append_drop]

theorem splits_of_parts {before middle after : List α} {f : InputField α}
    (htext : f.text = before ++ middle ++ after)
    (hregion : f.region = (Span.caret before.length).written middle.length)
    (hbefore : P before) (hmiddle : P middle) (hafter : P after) : f.Splits P := by
  have hdrop : (before ++ (middle ++ after)).drop before.length = middle ++ after := List.drop_left
  refine ⟨?_, ?_, ?_⟩
  · simpa [htext, hregion, Span.written, Span.caret] using hbefore
  · simpa [htext, hregion, Span.written, Span.caret, Span.length] using hmiddle
  · simpa [htext, hregion, Span.written, Span.caret, ← List.drop_drop] using hafter

theorem length_take_start (f : InputField α) : (f.text.take f.region.start).length = f.region.start := by
  have := f.region.ordered
  have := f.region_le
  rw [List.length_take]
  omega

theorem Splits.write {f : InputField α} (h : f.Splits P) {committed composition : List α}
    (hbefore : P (f.text.take f.region.start ++ committed)) (hmiddle : P composition) :
    (f.write committed composition).Splits P := by
  refine splits_of_parts ?_ ?_ hbefore hmiddle h.after
  · simp only [InputField.write, splice, List.append_assoc]
  · rw [List.length_append, length_take_start]
    rfl

theorem Splits.settle {f : InputField α} (happend : ∀ xs ys, P xs → P ys → P (xs ++ ys)) (hnil : P [])
    (h : f.Splits P) : f.settle.Splits P := by
  by_cases hf : f.composing = true
  · have htext := f.text_eq
    have hbefore := happend _ _ h.before h.middle
    refine splits_of_parts ?_ ?_ hbefore hnil h.after
    · rw [settle_text, List.append_nil]
      exact htext
    · have hlen : ((f.text.drop f.region.start).take f.region.length).length = f.region.length := by
        have := f.region.ordered
        have := f.region_le
        rw [List.length_take, List.length_drop, Span.length]
        omega
      rw [List.length_append, length_take_start, hlen, Span.start_add_length, settle_region, selection, if_pos hf]
      rfl
  · rw [settle_of_not_composing (by simpa using hf)]
    exact h

end Splits

end InputField
