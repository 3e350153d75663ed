import Mathlib.Data.List.Nodup
import Mathlib.Data.List.Pairwise
import Mathlib.Logic.Relation

/-!
Members of a population that go by names. A name is free again once its bearer is gone, unless it is
held; the number of a birth is never given out twice.
-/

namespace ReusedNames

open Relation

variable {N : Type}

structure Member (N : Type) where
  birth : ℕ
  name : N
  parent : ℕ
  parentName : N
deriving DecidableEq

/-- `held` are the births whose names stay taken, whether or not they are still members. -/
structure Population (N : Type) where
  members : List (Member N)
  held : List (ℕ × N)
  next : ℕ
  births_lt : ∀ m ∈ members, m.birth < next
  parents_lt : ∀ m ∈ members, m.parent < m.birth
  births_inj : ∀ m ∈ members, ∀ m' ∈ members, m.birth = m'.birth → m = m'
  names_nodup : (members.map Member.name).Nodup
  parent_named : ∀ c ∈ members, ∀ m ∈ members, c.parent = m.birth → c.parentName = m.name
  held_lt : ∀ r ∈ held, r.1 < next
  held_bears : ∀ r ∈ held, ∀ m ∈ members, m.birth = r.1 ↔ m.name = r.2
  held_named : ∀ r ∈ held, ∀ c ∈ members, c.parent = r.1 → c.parentName = r.2

namespace Population

theorem name_inj (p : Population N) {m m' : Member N} (hm : m ∈ p.members) (hm' : m' ∈ p.members)
    (h : m.name = m'.name) : m = m' := List.inj_on_of_nodup_map p.names_nodup hm hm' h

def Owns (p : Population N) (a : ℕ) (n : N) : Prop :=
  (∃ m ∈ p.members, m.birth = a ∧ m.name = n) ∨ (a, n) ∈ p.held

def Names (p : Population N) (n n' : N) : Prop := ∃ c ∈ p.members, c.parentName = n ∧ c.name = n'

def Bore (p : Population N) (a b : ℕ) : Prop := ∃ c ∈ p.members, c.parent = a ∧ c.birth = b

def Faithful (p : Population N) : Prop :=
  ∀ c ∈ p.members, ∀ a, p.Owns a c.parentName → c.parent = a

section Owns

variable {p : Population N} {a : ℕ} {n : N}

theorem owns_of_mem {m : Member N} (hm : m ∈ p.members) : p.Owns m.birth m.name := Or.inl ⟨m, hm, rfl, rfl⟩

theorem Owns.birth_iff (h : p.Owns a n) {m : Member N} (hm : m ∈ p.members) : m.birth = a ↔ m.name = n := by
  rcases h with ⟨m', hm', rfl, rfl⟩ | h
  · constructor
    · intro hbirth
      rw [p.births_inj m hm m' hm' hbirth]
    · intro hname
      rw [p.name_inj hm hm' hname]
  · exact p.held_bears _ h m hm

theorem Owns.parentName (h : p.Owns a n) {c : Member N} (hc : c ∈ p.members) (hparent : c.parent = a) :
    c.parentName = n := by
  rcases h with ⟨m, hm, rfl, rfl⟩ | h
  · exact p.parent_named c hc m hm hparent
  · exact p.held_named _ h c hc hparent

end Owns

section Descent

variable {p : Population N} {a : ℕ} {n : N}

theorem names_of_bore (h : p.Owns a n) {b : ℕ} (hb : ReflTransGen p.Bore a b) {m : Member N}
    (hm : m ∈ p.members) (hmb : m.birth = b) : ReflTransGen p.Names n m.name := by
  induction hb generalizing m with
  | refl => rw [(h.birth_iff hm).mp hmb]
  | tail hab hbore ih =>
    obtain ⟨c, hc, hparent, hcb⟩ := hbore
    have hcm : c = m := p.births_inj c hc m hm (hcb.trans hmb.symm)
    rw [← hcm]
    rcases ReflTransGen.cases_tail hab with heq | ⟨x, -, q, hq, -, hqb⟩
    · rw [heq] at hparent
      exact ReflTransGen.single ⟨c, hc, h.parentName hc hparent, rfl⟩
    · have hname := p.parent_named c hc q hq (hparent.trans hqb.symm)
      exact (ih hq hqb).tail ⟨c, hc, hname, rfl⟩

theorem bore_of_names (hp : p.Faithful) (h : p.Owns a n) {x : N} (hx : ReflTransGen p.Names n x)
    {m : Member N} (hm : m ∈ p.members) (hmx : m.name = x) : ReflTransGen p.Bore a m.birth := by
  induction hx generalizing m with
  | refl => rw [(h.birth_iff hm).mpr hmx]
  | tail hny hnames ih =>
    obtain ⟨c, hc, hparent, hcx⟩ := hnames
    have hcm : c = m := p.name_inj hc hm (hcx.trans hmx.symm)
    rw [← hcm]
    rcases ReflTransGen.cases_tail hny with heq | ⟨x, -, q, hq, -, hqy⟩
    · rw [heq] at hparent
      have howns : p.Owns a c.parentName := by rwa [hparent]
      exact ReflTransGen.single ⟨c, hc, hp c hc a howns, rfl⟩
    · have howns : p.Owns q.birth c.parentName := by
        rw [hparent, ← hqy]
        exact owns_of_mem hq
      exact (ih hq hqy).tail ⟨c, hc, hp c hc q.birth howns, rfl⟩

theorem names_lt (hp : p.Faithful) {m m' : Member N} (hm : m ∈ p.members) (hm' : m' ∈ p.members)
    (h : TransGen p.Names m.name m'.name) : m.birth < m'.birth := by
  have hall : ∀ x, TransGen p.Names m.name x → ∀ q ∈ p.members, q.name = x → m.birth < q.birth := by
    intro x hx
    induction hx with
    | single hnames =>
      intro q hq hqx
      obtain ⟨c, hc, hparent, hcx⟩ := hnames
      rw [← p.name_inj hc hq (hcx.trans hqx.symm)]
      have howns : p.Owns m.birth c.parentName := by
        rw [hparent]
        exact owns_of_mem hm
      rw [← hp c hc m.birth howns]
      exact p.parents_lt c hc
    | tail hbefore hnames ih =>
      intro q hq hqx
      obtain ⟨c, hc, hparent, hcx⟩ := hnames
      rw [← p.name_inj hc hq (hcx.trans hqx.symm)]
      obtain ⟨y, -, d, hd, -, hdy⟩ := TransGen.tail'_iff.mp hbefore
      have howns : p.Owns d.birth c.parentName := by
        rw [hparent, ← hdy]
        exact owns_of_mem hd
      have hlt := p.parents_lt c hc
      rw [hp c hc d.birth howns] at hlt
      exact Nat.lt_trans (ih d hd hdy) hlt
  exact hall m'.name h m' hm' rfl

end Descent

def restrict (keep : Member N → Bool) (p : Population N) : Population N where
  members := p.members.filter keep
  held := p.held
  next := p.next
  births_lt m hm := p.births_lt m (List.mem_filter.mp hm).1
  parents_lt m hm := p.parents_lt m (List.mem_filter.mp hm).1
  births_inj m hm m' hm' := p.births_inj m (List.mem_filter.mp hm).1 m' (List.mem_filter.mp hm').1
  names_nodup := List.Nodup.sublist (List.filter_sublist.map _) p.names_nodup
  parent_named c hc m hm := p.parent_named c (List.mem_filter.mp hc).1 m (List.mem_filter.mp hm).1
  held_lt := p.held_lt
  held_bears r hr m hm := p.held_bears r hr m (List.mem_filter.mp hm).1
  held_named r hr c hc := p.held_named r hr c (List.mem_filter.mp hc).1

def hold (m : Member N) (p : Population N) (hm : m ∈ p.members) : Population N where
  members := p.members
  held := (m.birth, m.name) :: p.held
  next := p.next
  births_lt := p.births_lt
  parents_lt := p.parents_lt
  births_inj := p.births_inj
  names_nodup := p.names_nodup
  parent_named := p.parent_named
  held_lt r hr := by
    rcases List.mem_cons.mp hr with rfl | hr
    · exact p.births_lt m hm
    · exact p.held_lt r hr
  held_bears r hr m' hm' := by
    rcases List.mem_cons.mp hr with rfl | hr
    · exact (owns_of_mem hm).birth_iff hm'
    · exact p.held_bears r hr m' hm'
  held_named r hr c hc h := by
    rcases List.mem_cons.mp hr with rfl | hr
    · exact p.parent_named c hc m hm h
    · exact p.held_named r hr c hc h

def release (birth : ℕ) (p : Population N) : Population N where
  members := p.members
  held := p.held.filter (·.1 ≠ birth)
  next := p.next
  births_lt := p.births_lt
  parents_lt := p.parents_lt
  births_inj := p.births_inj
  names_nodup := p.names_nodup
  parent_named := p.parent_named
  held_lt r hr := p.held_lt r (List.mem_filter.mp hr).1
  held_bears r hr := p.held_bears r (List.mem_filter.mp hr).1
  held_named r hr := p.held_named r (List.mem_filter.mp hr).1

section Operations

variable {p : Population N}

theorem faithful_restrict (hp : p.Faithful) (keep : Member N → Bool) : (p.restrict keep).Faithful := by
  intro c hc a ha
  apply hp c (List.mem_filter.mp hc).1 a
  rcases ha with ⟨m, hm, hbirth, hname⟩ | ha
  · exact Or.inl ⟨m, (List.mem_filter.mp hm).1, hbirth, hname⟩
  · exact Or.inr ha

theorem faithful_hold (hp : p.Faithful) {m : Member N} (hm : m ∈ p.members) : (p.hold m hm).Faithful := by
  intro c hc a ha
  apply hp c hc a
  rcases ha with ha | ha
  · exact Or.inl ha
  · rcases List.mem_cons.mp ha with heq | ha
    · have hbirth : a = m.birth := congrArg Prod.fst heq
      have hname : c.parentName = m.name := congrArg Prod.snd heq
      rw [hbirth, hname]
      exact owns_of_mem hm
    · exact Or.inr ha

theorem faithful_release (hp : p.Faithful) (birth : ℕ) : (p.release birth).Faithful := by
  intro c hc a ha
  apply hp c hc a
  rcases ha with ha | ha
  · exact Or.inl ha
  · exact Or.inr (List.mem_filter.mp ha).1

end Operations

section Bear

variable [DecidableEq N]

def isFree (name : N) (p : Population N) : Bool :=
  p.members.all (·.name ≠ name) && p.held.all (·.2 ≠ name)

theorem isFree_iff {name : N} {p : Population N} :
    p.isFree name = true ↔ (∀ m ∈ p.members, m.name ≠ name) ∧ ∀ r ∈ p.held, r.2 ≠ name := by
  simp [isFree]

def bear (parent : Member N) (name : N) (p : Population N) (hparent : parent ∈ p.members)
    (hfree : p.isFree name = true) : Population N where
  members := p.members ++ [⟨p.next, name, parent.birth, parent.name⟩]
  held := p.held
  next := p.next + 1
  births_lt m hm := by
    rcases List.mem_append.mp hm with hm | hm
    · exact Nat.lt_succ_of_lt (p.births_lt m hm)
    · rw [List.mem_singleton.mp hm]
      exact Nat.lt_succ_self _
  parents_lt m hm := by
    rcases List.mem_append.mp hm with hm | hm
    · exact p.parents_lt m hm
    · rw [List.mem_singleton.mp hm]
      exact p.births_lt parent hparent
  births_inj m hm m' hm' h := by
    rcases List.mem_append.mp hm with hold | hnew <;> rcases List.mem_append.mp hm' with hold' | hnew'
    · exact p.births_inj m hold m' hold' h
    · have hlt := p.births_lt m hold
      rw [h, List.mem_singleton.mp hnew'] at hlt
      exact absurd hlt (Nat.lt_irrefl _)
    · have hlt := p.births_lt m' hold'
      rw [← h, List.mem_singleton.mp hnew] at hlt
      exact absurd hlt (Nat.lt_irrefl _)
    · rw [List.mem_singleton.mp hnew, List.mem_singleton.mp hnew']
  names_nodup := by
    rw [List.map_append, List.nodup_append']
    refine ⟨p.names_nodup, List.nodup_singleton _, ?_⟩
    intro x hx hx'
    obtain ⟨m, hm, rfl⟩ := List.mem_map.mp hx
    exact (isFree_iff.mp hfree).1 m hm (List.mem_singleton.mp hx')
  parent_named c hc m hm h := by
    rcases List.mem_append.mp hc with hc | hc <;> rcases List.mem_append.mp hm with hm | hm
    · exact p.parent_named c hc m hm h
    · have hlt := Nat.lt_trans (p.parents_lt c hc) (p.births_lt c hc)
      rw [h, List.mem_singleton.mp hm] at hlt
      exact absurd hlt (Nat.lt_irrefl _)
    · rw [List.mem_singleton.mp hc] at h ⊢
      exact congrArg Member.name (p.births_inj parent hparent m hm h)
    · rw [List.mem_singleton.mp hc, List.mem_singleton.mp hm] at h
      exact absurd h (Nat.ne_of_lt (p.births_lt parent hparent))
  held_lt r hr := Nat.lt_succ_of_lt (p.held_lt r hr)
  held_bears r hr m hm := by
    rcases List.mem_append.mp hm with hm | hm
    · exact p.held_bears r hr m hm
    · rw [List.mem_singleton.mp hm]
      exact iff_of_false (Nat.ne_of_gt (p.held_lt r hr)) (fun h => (isFree_iff.mp hfree).2 r hr h.symm)
  held_named r hr c hc h := by
    rcases List.mem_append.mp hc with hc | hc
    · exact p.held_named r hr c hc h
    · rw [List.mem_singleton.mp hc] at h ⊢
      exact (p.held_bears r hr parent hparent).mp h

variable {p : Population N}

theorem faithful_bear_iff (hp : p.Faithful) {parent : Member N} {name : N} (hparent : parent ∈ p.members)
    (hfree : p.isFree name = true) :
    (p.bear parent name hparent hfree).Faithful ↔ ∀ c ∈ p.members, c.parentName ≠ name := by
  obtain ⟨hbearers, hheld⟩ := isFree_iff.mp hfree
  have howns {a : ℕ} {n : N} : (p.bear parent name hparent hfree).Owns a n ↔
      p.Owns a n ∨ (a = p.next ∧ n = name) := by
    simp only [Owns, bear, List.mem_append, List.mem_singleton]
    constructor
    · rintro (⟨m, hm | rfl, rfl, rfl⟩ | h)
      · exact Or.inl (Or.inl ⟨m, hm, rfl, rfl⟩)
      · exact Or.inr ⟨rfl, rfl⟩
      · exact Or.inl (Or.inr h)
    · rintro ((⟨m, hm, rfl, rfl⟩ | h) | ⟨rfl, rfl⟩)
      · exact Or.inl ⟨m, Or.inl hm, rfl, rfl⟩
      · exact Or.inr h
      · exact Or.inl ⟨_, Or.inr rfl, rfl, rfl⟩
  constructor
  · intro h c hc hname
    have hmem : c ∈ (p.bear parent name hparent hfree).members := List.mem_append_left _ hc
    have hparent' := h c hmem p.next (howns.mpr (Or.inr ⟨rfl, hname⟩))
    have hlt := Nat.lt_trans (p.parents_lt c hc) (p.births_lt c hc)
    rw [hparent'] at hlt
    exact Nat.lt_irrefl _ hlt
  · intro h c hc a ha
    rcases howns.mp ha with ha | ⟨rfl, hname⟩ <;> rcases List.mem_append.mp hc with hold | hnew
    · exact hp c hold a ha
    · rw [List.mem_singleton.mp hnew] at ha ⊢
      exact (ha.birth_iff hparent).mpr rfl
    · exact absurd hname (h c hold)
    · rw [List.mem_singleton.mp hnew] at hname
      exact absurd hname (hbearers parent hparent)

end Bear

end Population

end ReusedNames
