import Mathlib.Logic.Relation
import Mathlib.Tactic.Common

/-!
A search through a graph that changes meanwhile. A node is seen when its edges are read, so what is still to be found
lies behind edges of nodes that are not seen.
-/

namespace Frontier

open Relation

variable {α : Type} {edge edge' : α → α → Prop} {seen : α → Prop} {p q x y : α}

def Ahead (edge : α → α → Prop) (seen : α → Prop) (x y : α) : Prop := edge x y ∧ ¬seen x

def Finds (edge : α → α → Prop) (seen : α → Prop) (y x : α) : Prop := ReflTransGen (Ahead edge seen) y x

def Without (q : α) (edge : α → α → Prop) (x y : α) : Prop := edge x y ∧ y ≠ q

theorem Finds.mono (hsub : ∀ x y, edge x y → edge' x y) (h : Finds edge seen y x) : Finds edge' seen y x :=
  ReflTransGen.mono (fun _ _ ha => ⟨hsub _ _ ha.1, ha.2⟩) _ _ h

theorem Finds.eq_of_seen (h : Finds edge seen y x) (hy : seen y) : x = y := by
  rcases ReflTransGen.cases_head h with heq | ⟨z, hz, -⟩
  · exact heq.symm
  · exact absurd hy hz.2

theorem Finds.closed {S : α → Prop} (hS : ∀ x y, S x → edge x y → S y) (h : Finds edge seen y x) (hy : S y) : S x := by
  induction h with
  | refl => exact hy
  | tail _ hz ih => exact hS _ _ ih hz.1

theorem Finds.see (p : α) (h : Finds edge seen y x) :
    x = p ∨ Finds edge (fun z => z = p ∨ seen z) y x ∨
      ∃ c, edge p c ∧ Finds edge (fun z => z = p ∨ seen z) c x := by
  induction h using ReflTransGen.head_induction_on with
  | refl => exact .inr (.inl .refl)
  | @head y z hz _ ih =>
    rcases ih with heq | hfinds | hbehind
    · exact .inl heq
    · by_cases hy : y = p
      · exact .inr (.inr ⟨z, hy ▸ hz.1, hfinds⟩)
      · have hnot : ¬(y = p ∨ seen y) := fun h => h.elim hy hz.2
        exact .inr (.inl (.head ⟨hz.1, hnot⟩ hfinds))
    · exact .inr (.inr hbehind)

theorem Finds.without (hx : x ≠ q) (h : Finds edge seen y x) :
    Finds (Without q edge) seen y x ∨
      ¬seen q ∧ Finds edge seen y q ∧ ∃ c, edge q c ∧ c ≠ q ∧ Finds (Without q edge) seen c x := by
  induction h using ReflTransGen.head_induction_on with
  | refl => exact .inl .refl
  | @head y z hz _ ih =>
    rcases ih with hfinds | ⟨hseen, hq, c, hbehind⟩
    · by_cases hzq : z = q
      · rw [hzq] at hfinds hz
        rcases ReflTransGen.cases_head hfinds with heq | ⟨c, hc, hrest⟩
        · exact absurd heq.symm hx
        · exact .inr ⟨hc.2, .single hz, c, hc.1.1, hc.1.2, hrest⟩
      · exact .inl (.head ⟨⟨hz.1, hzq⟩, hz.2⟩ hfinds)
    · exact .inr ⟨hseen, .head hz hq, c, hbehind⟩

theorem Finds.without_seen (hx : x ≠ q) (hq : seen q) (h : Finds edge seen y x) :
    Finds (Without q edge) seen y x :=
  (h.without hx).resolve_right fun hbehind => hbehind.1 hq

end Frontier
