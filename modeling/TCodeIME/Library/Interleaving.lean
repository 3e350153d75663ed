import TCodeIME.Library.Runs
import Mathlib.Logic.Function.Basic

/-!
Parties that take turns on one resource. Each keeps the resource as its own last access has left it,
and its run alone is the run on that.
-/

namespace Interleaving

variable {ι ρ σ α : Type} [DecidableEq ι]

structure World (ι ρ σ : Type) where
  resource : ρ
  party : ι → σ

structure Actor (ρ σ α : Type) where
  act : σ → α → σ
  view : σ → ρ
  load : ρ → σ → σ
  accesses : σ → α → Bool

namespace Actor

variable (actor : Actor ρ σ α)

def step (w : World ι ρ σ) (x : ι × α) : World ι ρ σ :=
  if actor.accesses (w.party x.1) x.2 then
    let s := actor.act (actor.load w.resource (w.party x.1)) x.2
    ⟨actor.view s, Function.update w.party x.1 s⟩
  else ⟨w.resource, Function.update w.party x.1 (actor.act (w.party x.1) x.2)⟩

def alone (i : ι) (s : σ) (xs : List (ι × α)) : σ :=
  ((xs.filter fun x => x.1 = i).map Prod.snd).foldl actor.act s

def Undisturbed (alike : ρ → ρ → Prop) (i : ι) (w : World ι ρ σ) (x : ι × α) : Prop :=
  x.1 = i → actor.accesses (w.party i) x.2 = true → alike w.resource (actor.view (w.party i))

variable {actor} {alike : ρ → ρ → Prop} {twin : σ → σ → Prop}

theorem step_party_of_ne {w : World ι ρ σ} {x : ι × α} {i : ι} (h : x.1 ≠ i) :
    (actor.step w x).party i = w.party i := by
  unfold step
  split_ifs
  · exact Function.update_of_ne (Ne.symm h) _ _
  · exact Function.update_of_ne (Ne.symm h) _ _

theorem twin_step (hload : ∀ r s t, alike r (actor.view s) → twin s t → twin (actor.load r s) t)
    (hact : ∀ s t a, twin s t → twin (actor.act s a) (actor.act t a)) {w : World ι ρ σ} {i : ι} {a : α}
    {t : σ} (h : twin (w.party i) t) (hfinds : actor.Undisturbed alike i w (i, a)) :
    twin ((actor.step w (i, a)).party i) (actor.act t a) := by
  unfold step
  split_ifs with haccess
  · simp only [Function.update_self]
    apply hact
    apply hload _ _ _ (hfinds rfl haccess) h
  · simp only [Function.update_self]
    exact hact _ _ _ h

theorem twin_run (hload : ∀ r s t, alike r (actor.view s) → twin s t → twin (actor.load r s) t)
    (hact : ∀ s t a, twin s t → twin (actor.act s a) (actor.act t a)) {i : ι} {xs : List (ι × α)}
    {w : World ι ρ σ} {t : σ} (h : twin (w.party i) t)
    (hfinds : Runs.Along actor.step (actor.Undisturbed alike i) w xs) :
    twin ((Runs.run actor.step w xs).party i) (actor.alone i t xs) := by
  induction xs generalizing w t with
  | nil => exact h
  | cons x xs ih =>
    obtain ⟨j, a⟩ := x
    by_cases hj : j = i
    · subst hj
      have hstep := twin_step hload hact h hfinds.1
      have halone : actor.alone j t ((j, a) :: xs) = actor.alone j (actor.act t a) xs := by
        simp [alone]
      rw [halone]
      exact ih hstep hfinds.2
    · have hparty : (actor.step w (j, a)).party i = w.party i := step_party_of_ne hj
      have halone : actor.alone i t ((j, a) :: xs) = actor.alone i t xs := by
        simp [alone, hj]
      rw [halone]
      exact ih (by rwa [hparty]) hfinds.2

end Actor

end Interleaving
