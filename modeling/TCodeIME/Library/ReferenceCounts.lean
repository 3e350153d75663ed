import Mathlib.Algebra.BigOperators.Group.Finset.Basic
import Mathlib.Algebra.Order.BigOperators.Group.Finset
import Mathlib.Algebra.Order.BigOperators.Group.Multiset
import Mathlib.Data.Multiset.Bind
import Mathlib.Tactic.Abel
import Mathlib.Tactic.Common

/-!
Objects that count the references to them, hold references to each other, and destroy themselves
when their last reference is released.
-/

namespace ReferenceCounts

/-- `moduleCount` counts the objects of the module that are alive, each by its weight. -/
structure Heap (ι : Type) where
  created : Finset ι := ∅
  destroyed : List ι := []
  count : ι → ℤ := fun _ => 0
  owned : ι → List ι := fun _ => []
  moduleCount : ℤ

variable {ι : Type}

namespace Heap

def Live (h : Heap ι) (o : ι) : Prop := o ∈ h.created ∧ o ∉ h.destroyed

def references (h : Heap ι) : Multiset ι := ∑ p ∈ h.created, (h.owned p : Multiset ι)

theorem mem_references {h : Heap ι} {o : ι} :
    o ∈ h.references ↔ ∃ p ∈ h.created, o ∈ h.owned p := by
  simp [references, Multiset.mem_sum]

variable [DecidableEq ι]

instance (h : Heap ι) (o : ι) : Decidable (h.Live o) :=
  inferInstanceAs (Decidable (o ∈ h.created ∧ o ∉ h.destroyed))

def create (weight : ι → ℤ) (o : ι) (h : Heap ι) : Heap ι :=
  { h with
    created := insert o h.created
    count := Function.update h.count o 1
    moduleCount := h.moduleCount + weight o }

def addRef (o : ι) (h : Heap ι) : Heap ι :=
  { h with count := Function.update h.count o (h.count o + 1) }

def setOwned (p : ι) (l : List ι) (h : Heap ι) : Heap ι :=
  { h with owned := Function.update h.owned p l }

def setCount (o : ι) (c : ℤ) (h : Heap ι) : Heap ι :=
  { h with count := Function.update h.count o c }

def destroy (weight : ι → ℤ) (o : ι) (h : Heap ι) : Heap ι :=
  { h with
    destroyed := o :: h.destroyed
    count := Function.update h.count o 0
    owned := Function.update h.owned o []
    moduleCount := h.moduleCount - weight o }

/-- Releases the pending references from the first on. An object whose count reaches 0 is destroyed
before the next one is released, and with it go the references that it holds. -/
def drain (weight : ι → ℤ) : ℕ → Heap ι → List ι → Heap ι
  | _, h, [] => h
  | 0, h, _ => h
  | fuel + 1, h, o :: pending =>
    if h.count o - 1 = 0 then drain weight fuel (h.destroy weight o) (h.owned o ++ pending)
    else drain weight fuel (h.setCount o (h.count o - 1)) pending

def release (weight : ι → ℤ) (l : List ι) (h : Heap ι) : Heap ι :=
  drain weight (l.length + h.references.card) h l

end Heap

open Heap

variable [DecidableEq ι] {weight : ι → ℤ} {base : ℤ} {h : Heap ι} {out : Multiset ι}

structure Accounted (weight : ι → ℤ) (base : ℤ) (h : Heap ι) (out : Multiset ι) : Prop where
  count_eq : ∀ o, h.count o = (out + h.references).count o
  live_iff : ∀ o, h.count o ≠ 0 ↔ h.Live o
  destroyed_created : ∀ o ∈ h.destroyed, o ∈ h.created
  nodup : h.destroyed.Nodup
  owned_live : ∀ p, h.owned p ≠ [] → h.Live p
  module_eq : h.moduleCount + (h.destroyed.map weight).sum = base + ∑ o ∈ h.created, weight o

theorem live_create (weight : ι → ℤ) {o : ι} (hfresh : o ∉ h.destroyed) (q : ι) :
    (h.create weight o).Live q ↔ q = o ∨ h.Live q := by
  by_cases hq : q = o
  · subst hq
    simp [Live, create, hfresh]
  · simp [Live, create, hq]

theorem live_destroy (o q : ι) : (h.destroy weight o).Live q ↔ q ≠ o ∧ h.Live q := by
  simp only [Live, destroy, List.mem_cons]
  tauto

theorem references_setOwned {p : ι} (hp : p ∈ h.created) (l : List ι) :
    (h.setOwned p l).references + (h.owned p : Multiset ι) = h.references + (l : Multiset ι) := by
  have hsplit := Finset.add_sum_erase h.created (fun q => (h.owned q : Multiset ι)) hp
  have hsplit' := Finset.add_sum_erase h.created
    (fun q => (Function.update h.owned p l q : Multiset ι)) hp
  have hrest : ∑ q ∈ h.created.erase p, (Function.update h.owned p l q : Multiset ι) =
      ∑ q ∈ h.created.erase p, (h.owned q : Multiset ι) := by
    apply Finset.sum_congr rfl
    intro q hq
    rw [Function.update_of_ne (Finset.ne_of_mem_erase hq)]
  simp only [Function.update_self] at hsplit'
  rw [hrest] at hsplit'
  change (∑ q ∈ h.created, (Function.update h.owned p l q : Multiset ι)) + _ = _
  rw [← hsplit', references, ← hsplit]
  abel

theorem references_destroy (weight : ι → ℤ) {o : ι} (ho : h.Live o) :
    (h.destroy weight o).references + (h.owned o : Multiset ι) = h.references := by
  have hset := references_setOwned ho.1 []
  rw [Multiset.coe_nil, add_zero] at hset
  exact hset

theorem references_create (weight : ι → ℤ) {o : ι} (hfresh : o ∉ h.created)
    (hown : h.owned o = []) : (h.create weight o).references = h.references := by
  simp [references, create, Finset.sum_insert hfresh, hown]

namespace Accounted

theorem loaded (weight : ι → ℤ) (base : ℤ) :
    Accounted weight base ({ moduleCount := base } : Heap ι) 0 where
  count_eq o := by simp [references]
  live_iff o := by simp [Live]
  destroyed_created o ho := by simp at ho
  nodup := List.nodup_nil
  owned_live p hp := by simp at hp
  module_eq := by simp

theorem owned_eq_nil {p : ι} (ha : Accounted weight base h out) (hp : h.count p = 0) :
    h.owned p = [] := by
  by_contra hne
  exact (ha.live_iff p).mpr (ha.owned_live p hne) hp

theorem count_eq_zero {o : ι} (ha : Accounted weight base h out) (ho : o ∉ h.created) :
    h.count o = 0 := by
  by_contra hne
  exact ho ((ha.live_iff o).mp hne).1

theorem count_pos_of_mem {o : ι} (ha : Accounted weight base h out) (ho : o ∈ out + h.references) :
    0 < h.count o := by
  have hpos := Multiset.count_pos.mpr ho
  have heq := ha.count_eq o
  omega

theorem mem_of_count_ne_zero {o : ι} (ha : Accounted weight base h out) (ho : h.count o ≠ 0) :
    o ∈ out ∨ ∃ p, o ∈ h.owned p := by
  have heq := ha.count_eq o
  have hmem : o ∈ out + h.references := Multiset.count_pos.mp (by omega)
  rcases Multiset.mem_add.mp hmem with hout | href
  · exact .inl hout
  · obtain ⟨p, -, hp⟩ := mem_references.mp href
    exact .inr ⟨p, hp⟩

theorem mem_references_of_owned {o p : ι} (ha : Accounted weight base h out) (ho : o ∈ h.owned p) :
    o ∈ h.references := by
  have hp := ha.owned_live p (List.ne_nil_of_mem ho)
  exact mem_references.mpr ⟨p, hp.1, ho⟩

theorem count_pos_of_owned {o p : ι} (ha : Accounted weight base h out) (ho : o ∈ h.owned p) :
    0 < h.count o :=
  ha.count_pos_of_mem (Multiset.mem_add.mpr (.inr (ha.mem_references_of_owned ho)))

theorem create {o : ι} (ha : Accounted weight base h out) (hfresh : o ∉ h.created) :
    Accounted weight base (h.create weight o) (o ::ₘ out) := by
  have hzero := ha.count_eq_zero hfresh
  have hrefs := references_create weight hfresh (ha.owned_eq_nil hzero)
  have hnot : o ∉ h.destroyed := fun hd => hfresh (ha.destroyed_created o hd)
  refine ⟨?_, ?_, ?_, ha.nodup, ?_, ?_⟩
  · intro q
    rw [hrefs, Multiset.cons_add, Multiset.count_cons]
    have hq := ha.count_eq q
    by_cases hqo : q = o
    · subst hqo
      simp only [Heap.create, Function.update_self, if_pos]
      omega
    · simp [Heap.create, hqo, hq]
  · intro q
    rw [live_create weight hnot]
    by_cases hqo : q = o
    · subst hqo
      simp [Heap.create]
    · simpa [Heap.create, hqo] using ha.live_iff q
  · intro q hq
    exact Finset.mem_insert_of_mem (ha.destroyed_created q hq)
  · intro p hp
    exact (live_create weight hnot p).mpr (.inr (ha.owned_live p hp))
  · have hm := ha.module_eq
    simp only [Heap.create, Finset.sum_insert hfresh]
    omega

theorem addRef {o : ι} (ha : Accounted weight base h out) (ho : h.Live o) :
    Accounted weight base (h.addRef o) (o ::ₘ out) := by
  have hcount := ha.count_eq o
  have hpos := (ha.live_iff o).mpr ho
  have hrefs : (h.addRef o).references = h.references := rfl
  have hne : ∀ q, (h.addRef o).count q ≠ 0 ↔ h.count q ≠ 0 := by
    intro q
    by_cases hq : q = o
    · subst hq
      simp only [Heap.addRef, Function.update_self]
      omega
    · simp [Heap.addRef, hq]
  refine ⟨?_, fun q => (hne q).trans (ha.live_iff q), ha.destroyed_created, ha.nodup,
    ha.owned_live, ha.module_eq⟩
  intro q
  rw [hrefs, Multiset.cons_add, Multiset.count_cons]
  by_cases hq : q = o
  · subst hq
    simp only [Heap.addRef, Function.update_self, if_pos]
    omega
  · simp [Heap.addRef, hq, ha.count_eq q]

theorem setOwned {p : ι} {l : List ι} {out' : Multiset ι} (ha : Accounted weight base h out)
    (hp : h.Live p) (hmove : out + (h.owned p : Multiset ι) = out' + (l : Multiset ι)) :
    Accounted weight base (h.setOwned p l) out' := by
  have hrefs := references_setOwned hp.1 l
  have htotal : out' + (h.setOwned p l).references = out + h.references := by
    apply add_right_cancel (b := (h.owned p : Multiset ι))
    rw [add_assoc, hrefs, add_assoc, add_comm h.references (h.owned p : Multiset ι), ← add_assoc out,
      hmove]
    abel
  refine ⟨fun o => by rw [htotal]; exact ha.count_eq o, ha.live_iff, ha.destroyed_created, ha.nodup,
    ?_, ha.module_eq⟩
  intro q hq
  by_cases hqp : q = p
  · subst hqp
    exact hp
  · apply ha.owned_live q
    simpa [Heap.setOwned, hqp] using hq

theorem lock (ha : Accounted weight base h out) (c : ℤ) :
    Accounted weight (base + c) { h with moduleCount := h.moduleCount + c } out := by
  refine ⟨ha.count_eq, ha.live_iff, ha.destroyed_created, ha.nodup, ha.owned_live, ?_⟩
  have hm := ha.module_eq
  change h.moduleCount + c + (h.destroyed.map weight).sum = base + c + ∑ o ∈ h.created, weight o
  omega

theorem decrement {o : ι} (ha : Accounted weight base h (o ::ₘ out)) (ho : h.count o ≠ 1) :
    Accounted weight base (h.setCount o (h.count o - 1)) out := by
  have hcount := ha.count_eq o
  have hpos : 0 < h.count o := ha.count_pos_of_mem (by simp)
  have hne : ∀ q, (h.setCount o (h.count o - 1)).count q ≠ 0 ↔ h.count q ≠ 0 := by
    intro q
    by_cases hq : q = o
    · subst hq
      simp only [Heap.setCount, Function.update_self]
      omega
    · simp [Heap.setCount, hq]
  refine ⟨?_, fun q => (hne q).trans (ha.live_iff q), ha.destroyed_created, ha.nodup,
    ha.owned_live, ha.module_eq⟩
  intro q
  change (h.setCount o (h.count o - 1)).count q = (out + h.references).count q
  have hq := ha.count_eq q
  rw [Multiset.cons_add, Multiset.count_cons] at hq hcount
  by_cases hqo : q = o
  · subst hqo
    simp only [Heap.setCount, Function.update_self]
    rw [if_pos rfl] at hcount
    omega
  · rw [if_neg hqo] at hq
    simpa [Heap.setCount, hqo] using hq

theorem destroy {o : ι} (ha : Accounted weight base h (o ::ₘ out)) (ho : h.count o = 1) :
    Accounted weight base (h.destroy weight o) ((h.owned o : Multiset ι) + out) := by
  have hlive := (ha.live_iff o).mp (by omega)
  have hrefs := references_destroy weight hlive
  have htotal : (h.owned o : Multiset ι) + out + (h.destroy weight o).references =
      out + h.references := by
    rw [← hrefs, add_comm (h.owned o : Multiset ι) out, add_assoc,
      add_comm (h.owned o : Multiset ι)]
  have hcount := ha.count_eq
  refine ⟨?_, ?_, ?_, List.nodup_cons.mpr ⟨hlive.2, ha.nodup⟩, ?_, ?_⟩
  · intro q
    rw [htotal]
    have hq := hcount q
    rw [Multiset.cons_add, Multiset.count_cons] at hq
    by_cases hqo : q = o
    · subst hqo
      rw [if_pos rfl] at hq
      simp only [Heap.destroy, Function.update_self]
      omega
    · rw [if_neg hqo] at hq
      simpa [Heap.destroy, hqo] using hq
  · intro q
    rw [live_destroy]
    by_cases hqo : q = o
    · subst hqo
      simp [Heap.destroy]
    · simpa [Heap.destroy, hqo] using ha.live_iff q
  · intro q hq
    rcases List.mem_cons.mp hq with rfl | hq
    · exact hlive.1
    · exact ha.destroyed_created q hq
  · intro p hp
    by_cases hpo : p = o
    · subst hpo
      simp [Heap.destroy] at hp
    · simp only [Heap.destroy, Function.update_of_ne hpo] at hp
      exact (live_destroy o p).mpr ⟨hpo, ha.owned_live p hp⟩
  · have hm := ha.module_eq
    simp only [Heap.destroy, List.map_cons, List.sum_cons]
    omega

theorem drain {fuel : ℕ} {pending : List ι}
    (ha : Accounted weight base h ((pending : Multiset ι) + out))
    (hfuel : pending.length + h.references.card ≤ fuel) :
    Accounted weight base (h.drain weight fuel pending) out := by
  induction fuel generalizing h pending with
  | zero =>
    have hnil : pending = [] := List.eq_nil_of_length_eq_zero (by omega)
    subst hnil
    simpa [Heap.drain] using ha
  | succ fuel ih =>
    cases pending with
    | nil => simpa [Heap.drain] using ha
    | cons o pending =>
      rw [← Multiset.cons_coe, Multiset.cons_add] at ha
      rw [List.length_cons] at hfuel
      rw [Heap.drain]
      split_ifs with hzero
      · apply ih
        · have hd := ha.destroy (by omega)
          rwa [← add_assoc, Multiset.coe_add] at hd
        · have hcard := congrArg Multiset.card
            (references_destroy weight ((ha.live_iff o).mp (by omega)))
          rw [Multiset.card_add, Multiset.coe_card] at hcard
          rw [List.length_append]
          omega
      · apply ih
        · exact ha.decrement (by omega)
        · change pending.length + h.references.card ≤ fuel
          omega

theorem release {l : List ι} (ha : Accounted weight base h ((l : Multiset ι) + out)) :
    Accounted weight base (h.release weight l) out :=
  ha.drain (le_refl _)

end Accounted

/-! What a release leaves as it was. -/

theorem drain_created (weight : ι → ℤ) (fuel : ℕ) (h : Heap ι) (pending : List ι) :
    (h.drain weight fuel pending).created = h.created := by
  induction fuel generalizing h pending with
  | zero => cases pending <;> rfl
  | succ fuel ih =>
    cases pending with
    | nil => rfl
    | cons o pending =>
      rw [Heap.drain]
      split_ifs
      · exact ih _ _
      · exact ih _ _

theorem drain_destroyed {fuel : ℕ} {pending : List ι} {o : ι} (ho : o ∈ h.destroyed) :
    o ∈ (h.drain weight fuel pending).destroyed := by
  induction fuel generalizing h pending with
  | zero => cases pending <;> exact ho
  | succ fuel ih =>
    cases pending with
    | nil => exact ho
    | cons q pending =>
      rw [Heap.drain]
      split_ifs
      · exact ih (List.mem_cons_of_mem q ho)
      · exact ih ho

theorem drain_owned (weight : ι → ℤ) (fuel : ℕ) (h : Heap ι) (pending : List ι) (p : ι) :
    (h.drain weight fuel pending).owned p = h.owned p ∨
      (h.drain weight fuel pending).owned p = [] ∧ p ∈ (h.drain weight fuel pending).destroyed := by
  induction fuel generalizing h pending with
  | zero => cases pending <;> exact .inl rfl
  | succ fuel ih =>
    cases pending with
    | nil => exact .inl rfl
    | cons o pending =>
      rw [Heap.drain]
      split_ifs
      · rcases ih (h.destroy weight o) (h.owned o ++ pending) with heq | hnil
        · rw [heq]
          by_cases hp : p = o
          · subst hp
            exact .inr ⟨by simp [destroy], drain_destroyed (List.mem_cons_self ..)⟩
          · exact .inl (by simp [destroy, hp])
        · exact .inr hnil
      · exact ih _ _

def SelfOwned (h : Heap ι) (S : Set ι) : Prop := ∀ o ∈ S, ∃ p ∈ S, o ∈ h.owned p

theorem drain_selfOwned {fuel : ℕ} {pending : List ι} {S : Set ι}
    (ha : Accounted weight base h ((pending : Multiset ι) + out)) (hS : SelfOwned h S)
    {p : ι} (hp : p ∈ S) : (h.drain weight fuel pending).owned p = h.owned p := by
  induction fuel generalizing h pending with
  | zero => cases pending <;> rfl
  | succ fuel ih =>
    cases pending with
    | nil => rfl
    | cons o pending =>
      rw [← Multiset.cons_coe, Multiset.cons_add] at ha
      rw [Heap.drain]
      split_ifs with hzero
      · -- an object of `S` has the pending reference and a second one
        have hout : o ∉ S := by
          intro ho
          obtain ⟨q, -, hq⟩ := hS o ho
          have hpos := Multiset.count_pos.mpr (ha.mem_references_of_owned hq)
          have hcount := ha.count_eq o
          rw [Multiset.cons_add, Multiset.count_cons_self, Multiset.count_add] at hcount
          omega
        have hsame : ∀ q ∈ S, (h.destroy weight o).owned q = h.owned q := by
          intro q hq
          have hne : q ≠ o := fun heq => hout (heq ▸ hq)
          simp [destroy, hne]
        have hd := ha.destroy (by omega)
        rw [← add_assoc, Multiset.coe_add] at hd
        rw [ih hd ?_, hsame p hp]
        intro q hq
        obtain ⟨r, hr, hqr⟩ := hS q hq
        exact ⟨r, hr, (hsame r hr).symm ▸ hqr⟩
      · exact ih (ha.decrement (by omega)) hS

theorem live_of_release {l : List ι} {p : ι} (hp : (h.release weight l).Live p) : h.Live p :=
  ⟨drain_created weight _ h l ▸ hp.1, fun hd => hp.2 (drain_destroyed hd)⟩

theorem release_owned_of_live {l : List ι} {p : ι} (hp : (h.release weight l).Live p) :
    (h.release weight l).owned p = h.owned p := by
  rcases drain_owned weight _ h l p with heq | hdead
  · exact heq
  · exact absurd hdead.2 hp.2

namespace Accounted

theorem all_destroyed (ha : Accounted weight base h out) (hdead : ∀ o, h.count o = 0) :
    (∀ o ∈ h.created, h.destroyed.count o = 1) ∧ h.moduleCount = base := by
  have hmem : ∀ o ∈ h.created, o ∈ h.destroyed := by
    intro o ho
    by_contra hnot
    exact (ha.live_iff o).mpr ⟨ho, hnot⟩ (hdead o)
  have hset : h.destroyed.toFinset = h.created := by
    ext o
    rw [List.mem_toFinset]
    exact ⟨ha.destroyed_created o, hmem o⟩
  refine ⟨fun o ho => List.count_eq_one_of_mem ha.nodup (hmem o ho), ?_⟩
  have hm := ha.module_eq
  rw [← hset, List.sum_toFinset weight ha.nodup] at hm
  omega

theorem moduleCount_eq (ha : Accounted weight base h out) :
    h.moduleCount = base + ∑ o ∈ h.created \ h.destroyed.toFinset, weight o := by
  have hsubset : h.destroyed.toFinset ⊆ h.created := by
    intro o ho
    exact ha.destroyed_created o (List.mem_toFinset.mp ho)
  have hsum := Finset.sum_sdiff (f := weight) hsubset
  have hm := ha.module_eq
  rw [← hsum, List.sum_toFinset weight ha.nodup] at hm
  omega

theorem moduleCount_eq_zero_iff (ha : Accounted weight base h out) (hweight : ∀ o, 0 ≤ weight o)
    (hbase : 0 ≤ base) : h.moduleCount = 0 ↔ base = 0 ∧ ∀ o, h.Live o → weight o = 0 := by
  have hnonneg : 0 ≤ ∑ o ∈ h.created \ h.destroyed.toFinset, weight o :=
    Finset.sum_nonneg fun o _ => hweight o
  have hlive (o : ι) : o ∈ h.created \ h.destroyed.toFinset ↔ h.Live o := by
    rw [Finset.mem_sdiff, List.mem_toFinset]
    rfl
  have hzero := Finset.sum_eq_zero_iff_of_nonneg
    (s := h.created \ h.destroyed.toFinset) fun o _ => hweight o
  simp only [hlive] at hzero
  rw [moduleCount_eq ha, ← hzero]
  omega

end Accounted

end ReferenceCounts
