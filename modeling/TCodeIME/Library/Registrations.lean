import Mathlib.Data.Finset.Basic

namespace Registrations

/-- The registrations that are live, and the calls to undo one, each with whether it was live then. -/
structure Registry (R : Type) where
  live : Finset R := ∅
  calls : List (R × Bool) := []

namespace Registry

variable {R : Type}

def Sound (r : Registry R) : Prop := ∀ call ∈ r.calls, call.2 = true

instance (r : Registry R) : Decidable r.Sound :=
  inferInstanceAs (Decidable (∀ call ∈ r.calls, call.2 = true))

theorem notMem_live {r : Registry R} (h : r.live = ∅) (x : R) : x ∉ r.live := by
  rw [h]
  exact Finset.notMem_empty x

variable [DecidableEq R]

def register (x : R) (r : Registry R) : Registry R := { r with live := insert x r.live }

def undo (x : R) (r : Registry R) : Registry R :=
  ⟨r.live.erase x, r.calls ++ [(x, decide (x ∈ r.live))]⟩

def withdraw (x : R) (r : Registry R) : Registry R := { r with live := r.live.erase x }

def undoAll (xs : List R) (r : Registry R) : Registry R := xs.foldl (fun r x => r.undo x) r

@[simp] theorem mem_live_register (x y : R) (r : Registry R) :
    y ∈ (r.register x).live ↔ y = x ∨ y ∈ r.live := Finset.mem_insert

@[simp] theorem mem_live_undo (x y : R) (r : Registry R) :
    y ∈ (r.undo x).live ↔ y ≠ x ∧ y ∈ r.live := Finset.mem_erase

@[simp] theorem mem_live_withdraw (x y : R) (r : Registry R) :
    y ∈ (r.withdraw x).live ↔ y ≠ x ∧ y ∈ r.live := Finset.mem_erase

theorem sound_undo_iff (x : R) (r : Registry R) : (r.undo x).Sound ↔ r.Sound ∧ x ∈ r.live := by
  simp only [Sound, undo, List.forall_mem_append, List.forall_mem_singleton, decide_eq_true_eq]

theorem undoAll_append (xs ys : List R) (r : Registry R) :
    r.undoAll (xs ++ ys) = (r.undoAll xs).undoAll ys := List.foldl_append

theorem mem_live_undoAll (xs : List R) (r : Registry R) (y : R) :
    y ∈ (r.undoAll xs).live ↔ y ∉ xs ∧ y ∈ r.live := by
  induction xs generalizing r with
  | nil => simp [undoAll]
  | cons x xs ih =>
    have hrest : r.undoAll (x :: xs) = (r.undo x).undoAll xs := rfl
    rw [hrest, ih, mem_live_undo, List.mem_cons, not_or]
    constructor
    · rintro ⟨hxs, hx, hy⟩
      exact ⟨⟨hx, hxs⟩, hy⟩
    · rintro ⟨⟨hx, hxs⟩, hy⟩
      exact ⟨hxs, hx, hy⟩

theorem sound_undoAll_iff {xs : List R} (hxs : xs.Nodup) (r : Registry R) :
    (r.undoAll xs).Sound ↔ r.Sound ∧ ∀ x ∈ xs, x ∈ r.live := by
  induction xs generalizing r with
  | nil => simp [undoAll]
  | cons x xs ih =>
    obtain ⟨hx, hrest⟩ := List.nodup_cons.mp hxs
    have hundo : r.undoAll (x :: xs) = (r.undo x).undoAll xs := rfl
    rw [hundo, ih hrest, sound_undo_iff, List.forall_mem_cons, and_assoc]
    apply and_congr_right'
    apply and_congr_right'
    apply forall₂_congr
    intro y hy
    rw [mem_live_undo]
    exact and_iff_right fun heq => hx (heq ▸ hy)

end Registry

end Registrations
