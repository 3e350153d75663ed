import Mathlib.Data.List.Basic
import Mathlib.Data.List.Infix

/-!
Paths as texts with separators in them: the last separator of a text, the ancestors of a directory
and the nearest one with a property.
-/

namespace SeparatedPath

variable {α : Type} {sep : α → Bool} {s dir D : List α} {c : α} {i : ℕ}

def findLastOf (sep : α → Bool) : List α → Option ℕ
  | [] => none
  | c :: rest =>
    match findLastOf sep rest with
    | some i => some (i + 1)
    | none => if sep c then some 0 else none

theorem findLastOf_eq_none : findLastOf sep s = none ↔ ∀ c ∈ s, sep c = false := by
  induction s with
  | nil => simp [findLastOf]
  | cons c rest ih =>
    cases hrest : findLastOf sep rest with
    | some i =>
      have hsome : ¬ ∀ c ∈ rest, sep c = false := by
        rw [← ih, hrest]
        simp
      simp only [findLastOf, hrest, reduceCtorEq, List.forall_mem_cons, false_iff, not_and]
      intro _
      exact hsome
    | none =>
      have hnone := ih.mp hrest
      simpa [findLastOf, hrest] using fun _ => hnone

theorem findLastOf_append_cons (hc : sep c = true) {rest : List α} (hrest : ∀ x ∈ rest, sep x = false) :
    findLastOf sep (dir ++ c :: rest) = some dir.length := by
  induction dir with
  | nil => simp [findLastOf, findLastOf_eq_none.mpr hrest, hc]
  | cons d dir ih => simp [findLastOf, ih]

theorem findLastOf_split (h : findLastOf sep s = some i) :
    ∃ c name, s = s.take i ++ c :: name ∧ sep c = true ∧ ∀ x ∈ name, sep x = false := by
  induction s generalizing i with
  | nil => simp [findLastOf] at h
  | cons d rest ih =>
    cases hrest : findLastOf sep rest with
    | some j =>
      simp only [findLastOf, hrest, Option.some.injEq] at h
      obtain ⟨c, name, hsplit, hc, hname⟩ := ih hrest
      refine ⟨c, name, ?_, hc, hname⟩
      rw [← h, List.take_succ_cons, List.cons_append, ← hsplit]
    | none =>
      simp only [findLastOf, hrest, Option.ite_none_right_eq_some, Option.some.injEq] at h
      obtain ⟨hd, rfl⟩ := h
      exact ⟨d, rest, rfl, hd, findLastOf_eq_none.mp hrest⟩

def Directory (sep : α → Bool) (s dir : List α) : Prop :=
  (∃ c name, s = dir ++ c :: name ∧ sep c = true ∧ ∀ x ∈ name, sep x = false) ∨
    (∀ x ∈ s, sep x = false) ∧ dir = []

theorem directory_take (h : findLastOf sep s = some i) : Directory sep s (s.take i) :=
  .inl (findLastOf_split h)

theorem directory_nil (h : findLastOf sep s = none) : Directory sep s [] :=
  .inr ⟨findLastOf_eq_none.mp h, rfl⟩

theorem countP_take_findLastOf (h : findLastOf sep s = some i) :
    s.countP sep = (s.take i).countP sep + 1 := by
  obtain ⟨c, name, hsplit, hc, hname⟩ := findLastOf_split h
  have hzero : name.countP sep = 0 := by
    apply List.countP_eq_zero.mpr
    intro x hx
    simp [hname x hx]
  calc s.countP sep = (s.take i ++ c :: name).countP sep := by rw [← hsplit]
    _ = (s.take i).countP sep + 1 := by
      rw [List.countP_append, List.countP_cons_of_pos hc, hzero]

theorem cut_induction (sep : α → Bool) {motive : List α → Prop}
    (last : ∀ s, findLastOf sep s = none → motive s)
    (cut : ∀ s i, findLastOf sep s = some i → motive (s.take i) → motive s) (s : List α) : motive s := by
  induction hn : s.countP sep generalizing s with
  | zero =>
    apply last
    apply findLastOf_eq_none.mpr
    intro c hc
    simpa using List.countP_eq_zero.mp hn c hc
  | succ n ih =>
    cases h : findLastOf sep s with
    | none => exact last s h
    | some i =>
      have hcount := countP_take_findLastOf h
      exact cut s i h (ih _ (by omega))

def Ancestor (sep : α → Bool) (dir D : List α) : Prop :=
  D ≠ [] ∧ (D = dir ∨ ∃ c rest, sep c = true ∧ dir = D ++ c :: rest)

theorem Ancestor.isPrefix (h : Ancestor sep dir D) : D <+: dir := by
  obtain ⟨-, rfl | ⟨c, rest, -, rfl⟩⟩ := h
  · exact List.prefix_refl _
  · exact List.prefix_append _ _

theorem Ancestor.self (h : dir ≠ []) : Ancestor sep dir dir := ⟨h, .inl rfl⟩

theorem not_ancestor_nil : ¬ Ancestor sep [] D := by
  intro h
  exact h.1 (List.prefix_nil.mp h.isPrefix)

theorem Ancestor.eq_of_findLastOf_eq_none (hdir : findLastOf sep dir = none) (h : Ancestor sep dir D) :
    D = dir := by
  obtain ⟨-, rfl | ⟨c, rest, hc, rfl⟩⟩ := h
  · rfl
  · have hfalse := findLastOf_eq_none.mp hdir c (by simp)
    rw [hc] at hfalse
    contradiction

theorem ancestor_cut (hdir : findLastOf sep dir = some i) :
    Ancestor sep dir D ↔ (dir ≠ [] ∧ D = dir) ∨ Ancestor sep (dir.take i) D := by
  obtain ⟨last, name, hsplit, hlast, hname⟩ := findLastOf_split hdir
  constructor
  · rintro ⟨hD, rfl | ⟨c, rest, hc, hcut⟩⟩
    · exact .inl ⟨hD, rfl⟩
    · refine .inr ⟨hD, ?_⟩
      rcases List.append_eq_append_iff.mp (hsplit.symm.trans hcut) with
        ⟨_ | ⟨d, between⟩, hbetween, heq⟩ | ⟨_ | ⟨d, between⟩, hbetween, heq⟩
      · exact .inl (by simpa using hbetween)
      · -- the cut would be at a separator after the last one
        have hmem : c ∈ name := by
          rw [(List.cons_eq_cons.mp heq).2]
          simp
        rw [hname c hmem] at hc
        contradiction
      · exact .inl (by simpa using hbetween.symm)
      · obtain ⟨rfl, -⟩ := List.cons_eq_cons.mp heq
        exact .inr ⟨c, between, hc, hbetween⟩
  · rintro (⟨hne, rfl⟩ | ⟨hD, rfl | ⟨c, rest, hc, hcut⟩⟩)
    · exact .self hne
    · exact ⟨hD, .inr ⟨last, name, hlast, hsplit⟩⟩
    · refine ⟨hD, .inr ⟨c, rest ++ last :: name, hc, ?_⟩⟩
      calc dir = dir.take i ++ last :: name := hsplit
        _ = D ++ c :: (rest ++ last :: name) := by rw [hcut, List.append_assoc, List.cons_append]

structure Nearest (sep : α → Bool) (holds : List α → Prop) (dir D : List α) : Prop where
  ancestor : Ancestor sep dir D
  found : holds D
  longest : ∀ D', Ancestor sep dir D' → holds D' → D'.length ≤ D.length

variable {holds : List α → Prop}

theorem Nearest.self (hdir : dir ≠ []) (h : holds dir) : Nearest sep holds dir dir where
  ancestor := .self hdir
  found := h
  longest := fun _ hD' _ => hD'.isPrefix.length_le

theorem Nearest.of_cut (hdir : findLastOf sep dir = some i) (hnot : ¬ holds dir)
    (h : Nearest sep holds (dir.take i) D) : Nearest sep holds dir D where
  ancestor := (ancestor_cut hdir).mpr (.inr h.ancestor)
  found := h.found
  longest := by
    intro D' hD' hholds
    rcases (ancestor_cut hdir).mp hD' with ⟨-, rfl⟩ | hbelow
    · exact absurd hholds hnot
    · exact h.longest D' hbelow hholds

end SeparatedPath
