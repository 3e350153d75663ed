import Mathlib.Data.Int.Notation
import Mathlib.Data.List.Basic
import Mathlib.Logic.Function.Basic

/-!
Windows by their handles. A handle is never given out twice, so a window that is gone stays gone.
-/

/-- `moved` says whether the window has left the place it was created at. -/
structure Window where
  left : ℤ
  top : ℤ
  width : ℤ
  height : ℤ
  visible : Bool := false
  moved : Bool := false
deriving DecidableEq

structure Desktop where
  windows : ℕ → Option Window
  next : ℕ
  fresh : ∀ h, next ≤ h → windows h = none

namespace Desktop

def empty : Desktop where
  windows _ := none
  next := 0
  fresh _ _ := rfl

def create (w : Window) (d : Desktop) : Desktop where
  windows := Function.update d.windows d.next (some w)
  next := d.next + 1
  fresh := by
    intro h hh
    have hne : h ≠ d.next := Nat.ne_of_gt hh
    rw [Function.update_of_ne hne]
    exact d.fresh h (Nat.le_of_succ_le hh)

/-- A call on a window that is gone fails. -/
def adjust (h : ℕ) (f : Window → Window) (d : Desktop) : Desktop where
  windows := Function.update d.windows h ((d.windows h).map f)
  next := d.next
  fresh := by
    intro k hk
    by_cases hkh : k = h
    · subst hkh
      rw [Function.update_self, d.fresh k hk]
      rfl
    · rw [Function.update_of_ne hkh]
      exact d.fresh k hk

def destroy (h : ℕ) (d : Desktop) : Desktop where
  windows := Function.update d.windows h none
  next := d.next
  fresh := by
    intro k hk
    by_cases hkh : k = h
    · rw [hkh, Function.update_self]
    · rw [Function.update_of_ne hkh]
      exact d.fresh k hk

theorem create_eq_some {w v : Window} {d : Desktop} {h : ℕ} :
    (d.create w).windows h = some v ↔ (h = d.next ∧ v = w) ∨ d.windows h = some v := by
  by_cases hh : h = d.next
  · subst hh
    simp [create, d.fresh d.next (Nat.le_refl _), eq_comm]
  · simp [create, hh]

theorem adjust_eq_some {f : Window → Window} {d : Desktop} {h k : ℕ} {v : Window} :
    (d.adjust h f).windows k = some v ↔
      (k = h ∧ ∃ w, d.windows h = some w ∧ f w = v) ∨ (k ≠ h ∧ d.windows k = some v) := by
  by_cases hk : k = h
  · subst hk
    simp [adjust]
  · simp [adjust, hk]

theorem destroy_eq_some {d : Desktop} {h k : ℕ} {v : Window} :
    (d.destroy h).windows k = some v ↔ k ≠ h ∧ d.windows k = some v := by
  by_cases hk : k = h
  · subst hk
    simp [destroy]
  · simp [destroy, hk]

end Desktop
