import Mathlib.Data.Set.Card
import Mathlib.Logic.Relation

/-!
Descents along a relation from parents to children: what lies below a root, and when every descent
from it ends.
-/

namespace Descent

open Relation

variable {α : Type} {R R' : α → α → Prop} {a b c root : α}

def Acyclic (R : α → α → Prop) (root : α) : Prop := ∀ a, ReflTransGen R root a → ¬ TransGen R a a

def Ends (R : α → α → Prop) (root : α) : Prop := Acc (fun child parent => R parent child) root

theorem Ends.below (h : Ends R a) (hab : ReflTransGen R a b) : Ends R b := by
  induction hab with
  | refl => exact h
  | tail _ hbc ih => exact ih.inv hbc

theorem Ends.mono (hsub : ∀ x y, R' x y → R x y) (h : Ends R a) : Ends R' a :=
  Subrelation.accessible (fun {x y} hxy => hsub y x hxy) h

theorem Ends.irrefl (h : Ends R a) : ¬ TransGen R a a := by
  induction h with
  | intro a _ ih =>
    intro hcycle
    obtain ⟨b, hab, hba⟩ := TransGen.head'_iff.mp hcycle
    exact ih b hab (TransGen.tail' hba hab)

theorem Ends.acyclic (h : Ends R root) : Acyclic R root := fun _ ha => (h.below ha).irrefl

theorem ends_of_acyclic {s : Set α} (hs : s.Finite) (hchild : ∀ x y, R x y → y ∈ s)
    (h : Acyclic R root) : Ends R root := by
  have hsub (x : α) : {y | TransGen R x y} ⊆ s := by
    intro y hy
    obtain ⟨z, -, hzy⟩ := TransGen.tail'_iff.mp hy
    exact hchild z y hzy
  -- a child has fewer descendants, as it is not one of its own
  induction hn : {y | TransGen R root y}.ncard using Nat.strong_induction_on generalizing root with
  | _ n ih =>
    constructor
    intro child hchild
    have hbelow : ∀ y, ReflTransGen R child y → ReflTransGen R root y := by
      intro y hy
      exact ReflTransGen.head hchild hy
    have hfewer : {y | TransGen R child y}.ncard < n := by
      rw [← hn]
      apply Set.ncard_lt_ncard _ (hs.subset (hsub root))
      refine ⟨fun y hy => TransGen.head hchild hy, fun hall => ?_⟩
      exact h child (ReflTransGen.single hchild) (hall (TransGen.single hchild))
    exact ih _ hfewer (fun y hy => h y (hbelow y hy)) rfl

theorem Ends.of_cut (ha : Ends R a) (hcut : ∀ x y, R x y → R' x y ∨ ReflTransGen R a y)
    (hb : Ends R' b) : Ends R b := by
  induction hb with
  | intro b _ ih =>
    constructor
    intro child hchild
    rcases hcut b child hchild with hkept | hbelow
    · exact ih child hkept
    · exact ha.below hbelow

theorem reflTransGen_of_kept (hkept : ∀ x y, ReflTransGen R a x → R x y → R' x y)
    (hab : ReflTransGen R a b) : ReflTransGen R' a b := by
  induction hab with
  | refl => exact ReflTransGen.refl
  | tail hax hxy ih => exact ih.tail (hkept _ _ hax hxy)

theorem transGen_of_kept (hkept : ∀ x y, ReflTransGen R a x → R x y → R' x y)
    (hab : ReflTransGen R a b) (hbc : TransGen R b c) : TransGen R' b c := by
  induction hbc with
  | single hbc => exact TransGen.single (hkept _ _ hab hbc)
  | tail hbx hxc ih => exact ih.tail (hkept _ _ (hab.trans hbx.to_reflTransGen) hxc)

theorem Ends.siblings_disjoint (hunique : ∀ x y z, R x z → R y z → x = y) (h : Ends R root)
    (hb : R root b) (hc : R root c) (hne : b ≠ c) {x : α} (hbx : ReflTransGen R b x) :
    ¬ ReflTransGen R c x := by
  have hcycle {u v : α} (hu : R root u) (hv : R root v) (huv : ReflTransGen R u v) : u = v := by
    rcases ReflTransGen.cases_tail huv with rfl | ⟨w, huw, hwv⟩
    · rfl
    · have hw : w = root := hunique w root v hwv hv
      rw [hw] at huw
      exact absurd (TransGen.head' hu huw) h.irrefl
  intro hcx
  have htotal := ReflTransGen.total_of_right_unique (r := Function.swap R)
    (fun x y z hxy hxz => hunique y z x hxy hxz) (reflTransGen_swap.mpr hbx) (reflTransGen_swap.mpr hcx)
  rcases htotal with hbc | hcb
  · exact hne (hcycle hc hb (reflTransGen_swap.mp hbc)).symm
  · exact hne (hcycle hb hc (reflTransGen_swap.mp hcb))

end Descent
