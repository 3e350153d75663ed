import Mathlib.Data.List.Basic

/-!
Positions in a filtered list against positions in the list itself.
-/

namespace FilteredPositions

variable {α β : Type} (p : α → Bool)

theorem getElem?_filter_iff (l : List α) (i : ℕ) (a : α) :
    (l.filter p)[i]? = some a ↔ ∃ j, l[j]? = some a ∧ p a = true ∧ (l.take j).countP p = i := by
  induction l generalizing i with
  | nil => simp
  | cons b l ih =>
    -- position 0 apart, the positions of `b :: l` are those of `l`
    have hsplit : (∃ j, (b :: l)[j]? = some a ∧ p a = true ∧ ((b :: l).take j).countP p = i) ↔
        (b = a ∧ p a = true ∧ 0 = i) ∨
          ∃ j, l[j]? = some a ∧ p a = true ∧ (l.take j).countP p + (if p b then 1 else 0) = i := by
      constructor
      · rintro ⟨j, hj, ha, hcount⟩
        cases j with
        | zero => exact .inl ⟨by simpa using hj, ha, by simpa using hcount⟩
        | succ j => exact .inr ⟨j, by simpa using hj, ha, by simpa [List.countP_cons] using hcount⟩
      · rintro (⟨rfl, ha, rfl⟩ | ⟨j, hj, ha, hcount⟩)
        · exact ⟨0, by simp, ha, by simp⟩
        · exact ⟨j + 1, by simpa using hj, ha, by simpa [List.countP_cons] using hcount⟩
    rw [hsplit]
    cases hb : p b with
    | false =>
      rw [List.filter_cons_of_neg (by simp [hb]), ih]
      constructor
      · rintro ⟨j, hj⟩
        exact .inr ⟨j, by simpa using hj⟩
      · rintro (⟨rfl, ha, -⟩ | ⟨j, hj⟩)
        · rw [hb] at ha
          cases ha
        · exact ⟨j, by simpa using hj⟩
    | true =>
      rw [List.filter_cons_of_pos hb]
      cases i with
      | zero =>
        have hlate (j : ℕ) : (l.take j).countP p + (if true = true then 1 else 0) ≠ 0 := by simp
        constructor
        · intro h
          have hba : b = a := by simpa using h
          exact .inl ⟨hba, hba ▸ hb, rfl⟩
        · rintro (⟨rfl, -, -⟩ | ⟨j, -, -, hcount⟩)
          · simp
          · exact absurd hcount (hlate j)
      | succ i =>
        rw [List.getElem?_cons_succ, ih]
        simp

theorem getElem?_map_filter_iff (f : α → β) {l : List α} {i : ℕ} (hi : i < l.length) :
    ((l.filter p).map f)[i]? = some (f (l.get ⟨i, hi⟩)) ↔
      (∀ a ∈ l.take (i + 1), p a = true) ∨
        ∃ j a, i < j ∧ l[j]? = some a ∧ p a = true ∧ (l.take j).countP p = i ∧
          f a = f (l.get ⟨i, hi⟩) := by
  have hget : l[i]? = some (l.get ⟨i, hi⟩) := List.getElem?_eq_getElem hi
  have htake : l.take (i + 1) = l.take i ++ [l.get ⟨i, hi⟩] := by
    rw [List.take_add_one, hget]
    rfl
  have hlength : (l.take i).length = i := List.length_take_of_le (Nat.le_of_lt hi)
  have hall : (l.take i).countP p = i ↔ ∀ a ∈ l.take i, p a = true := by
    have : (l.take i).countP p = (l.take i).length ↔ ∀ a ∈ l.take i, p a = true :=
      List.countP_eq_length
    rwa [hlength] at this
  simp only [List.getElem?_map, Option.map_eq_some_iff, getElem?_filter_iff]
  constructor
  · rintro ⟨a, ⟨j, hj, ha, hcount⟩, hf⟩
    have hle : i ≤ j := by
      rw [← hcount]
      exact Nat.le_trans List.countP_le_length (List.length_take_le j l)
    rcases Nat.eq_or_lt_of_le hle with rfl | hlt
    · left
      rw [hget] at hj
      rw [htake]
      intro b hb
      rcases List.mem_append.mp hb with hb | hb
      · exact hall.mp hcount b hb
      · rw [List.mem_singleton.mp hb, Option.some.inj hj]
        exact ha
    · exact .inr ⟨j, a, hlt, hj, ha, hcount, hf⟩
  · rintro (h | ⟨j, a, -, hj, ha, hcount, hf⟩)
    · rw [htake] at h
      have hself : p (l.get ⟨i, hi⟩) = true :=
        h _ (List.mem_append_right _ (List.mem_singleton_self _))
      exact ⟨_, ⟨i, hget, hself, hall.mpr fun a ha => h a (List.mem_append_left _ ha)⟩, rfl⟩
    · exact ⟨a, ⟨j, hj, ha, hcount⟩, hf⟩

end FilteredPositions
