import TCodeIME.ObjectLifetimes

/-!
Which objects of the DLL outlive the clients' references to them.
-/

open ReferenceCounts Runs

namespace TCodeIME

open ComObject Dll

variable {d base : ℤ} {h : Heap ComObject} {out : Multiset ComObject}

def HoldsButton (h : Heap ComObject) (k b : ℕ) : Prop :=
  h.owned (.ime k) = [.candidateList k, .modeButton b] ∧ h.owned (.modeButton b) = [.ime k]

structure Shape (next : ℕ) (pThreadMgr : ℕ → Bool) (h : Heap ComObject) : Prop where
  number : ∀ o ∈ h.created, o.number < next
  ime : ∀ k, h.Live (.ime k) →
    h.owned (.ime k) = [.candidateList k] ∨ ∃ b, HoldsButton h k b
  active : ∀ k, pThreadMgr k = true → ∃ b, HoldsButton h k b
  modeButton : ∀ b, h.Live (.modeButton b) → ∃ k, h.owned (.modeButton b) = [.ime k]
  candidateList : ∀ n, h.owned (.candidateList n) = []
  classFactory : ∀ n, h.owned (.classFactory n) = []

/-- `loc` are the references in local variables of the running call. -/
structure Inv (d : ℤ) (loc : List ComObject) (s : Dll) : Prop where
  accounted : Accounted weight (d + s.locks) s.heap ((loc : Multiset ComObject) + s.held)
  shape : Shape s.next s.pThreadMgr s.heap

def Unactivated (s : Dll) (k : ℕ) : Prop := s.pThreadMgr k = false ∧ ∃ b, HoldsButton s.heap k b

theorem HoldsButton.selfOwned {k b : ℕ} (hb : HoldsButton h k b) :
    SelfOwned h {.ime k, .modeButton b} := by
  rintro o (rfl | rfl)
  · exact ⟨.modeButton b, by simp, by simp [hb.2]⟩
  · exact ⟨.ime k, by simp, by simp [hb.1]⟩

theorem HoldsButton.pModeButton {s : Dll} {k b : ℕ} (hb : HoldsButton s.heap k b) :
    s.pModeButton k = some b := by
  rw [Dll.pModeButton, hb.1]
  rfl

theorem holdsButton_release {l : List ComObject} {k b : ℕ}
    (ha : Accounted weight base h ((l : Multiset ComObject) + out)) :
    HoldsButton (h.release weight l) k b ↔ HoldsButton h k b := by
  constructor
  · intro hb
    have hlive : ∀ p, (h.release weight l).owned p ≠ [] → h.owned p = (h.release weight l).owned p :=
      fun p hp => (release_owned_of_live (ha.release.owned_live p hp)).symm
    have hime := hlive (.ime k) (by simp [hb.1])
    have hbutton := hlive (.modeButton b) (by simp [hb.2])
    exact ⟨hime.trans hb.1, hbutton.trans hb.2⟩
  · intro hb
    have hkeep : ∀ p ∈ ({.ime k, .modeButton b} : Set ComObject),
        (h.release weight l).owned p = h.owned p := fun p hp => drain_selfOwned ha hb.selfOwned hp
    exact ⟨(hkeep _ (by simp)).trans hb.1, (hkeep _ (by simp)).trans hb.2⟩

theorem Shape.release {next : ℕ} {pThreadMgr : ℕ → Bool} {l : List ComObject}
    (ha : Accounted weight base h ((l : Multiset ComObject) + out))
    (hs : Shape next pThreadMgr h) : Shape next pThreadMgr (h.release weight l) where
  number o ho := hs.number o (drain_created weight _ h l ▸ ho)
  ime k hk := by
    rw [release_owned_of_live hk]
    rcases hs.ime k (live_of_release hk) with hlist | ⟨b, hb⟩
    · exact .inl hlist
    · exact .inr ⟨b, (holdsButton_release ha).mpr hb⟩
  active k hk := by
    obtain ⟨b, hb⟩ := hs.active k hk
    exact ⟨b, (holdsButton_release ha).mpr hb⟩
  modeButton b hb := by
    rw [release_owned_of_live hb]
    exact hs.modeButton b (live_of_release hb)
  candidateList n := by
    rcases drain_owned weight _ h l (.candidateList n) with heq | hnil
    · exact heq.trans (hs.candidateList n)
    · exact hnil.1
  classFactory n := by
    rcases drain_owned weight _ h l (.classFactory n) with heq | hnil
    · exact heq.trans (hs.classFactory n)
    · exact hnil.1

/-! What the constructors do to the heap. -/

theorem owned_attachModeButton (b k : ℕ) (h : Heap ComObject) (o : ComObject) :
    (attachModeButton b k h).owned o =
      if o = .ime k then h.owned (.ime k) ++ [.modeButton b]
      else if o = .modeButton b then [.ime k] else h.owned o := by
  simp only [attachModeButton, constructModeButton, Heap.setOwned, Heap.addRef, Heap.create,
    Function.update_apply]

theorem live_attachModeButton {b k : ℕ} (hb : .modeButton b ∉ h.destroyed) (o : ComObject) :
    (attachModeButton b k h).Live o ↔ o = .modeButton b ∨ h.Live o := live_create weight hb o

theorem owned_attachCandidateList (n : ℕ) (h : Heap ComObject) (o : ComObject) :
    (attachCandidateList n h).owned o =
      if o = .ime n then .candidateList n :: h.owned (.ime n) else h.owned o := by
  simp only [attachCandidateList, Heap.setOwned, Heap.create, Function.update_apply]

theorem live_attachCandidateList {n : ℕ} (hn : .candidateList n ∉ h.destroyed) (o : ComObject) :
    (attachCandidateList n h).Live o ↔ o = .candidateList n ∨ h.Live o := live_create weight hn o

theorem accounted_constructModeButton {b k : ℕ} (ha : Accounted weight base h out)
    (hb : .modeButton b ∉ h.created) (hk : h.Live (.ime k)) :
    Accounted weight base (constructModeButton b k h) (.modeButton b ::ₘ out) := by
  have hnot : .modeButton b ∉ h.destroyed := fun hd => hb (ha.destroyed_created _ hd)
  have hnil : h.owned (.modeButton b) = [] := ha.owned_eq_nil (ha.count_eq_zero hb)
  have hcounted := (ha.create hb).addRef ((live_create weight hnot (.ime k)).mpr (.inr hk))
  apply hcounted.setOwned ((live_create weight hnot (.modeButton b)).mpr (.inl rfl))
  change (.ime k ::ₘ .modeButton b ::ₘ out) + (h.owned (.modeButton b) : Multiset ComObject) = _
  rw [hnil, Multiset.coe_nil, add_zero, Multiset.coe_singleton, ← Multiset.singleton_add, add_comm]

theorem accounted_attachModeButton {b k : ℕ} (ha : Accounted weight base h out)
    (hb : .modeButton b ∉ h.created) (hk : h.Live (.ime k)) :
    Accounted weight base (attachModeButton b k h) out := by
  have hnot : .modeButton b ∉ h.destroyed := fun hd => hb (ha.destroyed_created _ hd)
  have hime : (constructModeButton b k h).owned (.ime k) = h.owned (.ime k) := by
    simp [constructModeButton, Heap.setOwned, Heap.addRef, Heap.create]
  apply (accounted_constructModeButton ha hb hk).setOwned
  · exact (live_create weight hnot (.ime k)).mpr (.inr hk)
  · rw [hime, ← Multiset.coe_add, Multiset.coe_singleton, ← Multiset.singleton_add, add_assoc,
      add_comm, add_assoc]

theorem accounted_attachCandidateList {n : ℕ} (ha : Accounted weight base h out)
    (hn : .candidateList n ∉ h.created) (hlive : h.Live (.ime n)) :
    Accounted weight base (attachCandidateList n h) out := by
  have hnot : .candidateList n ∉ h.destroyed := fun hd => hn (ha.destroyed_created _ hd)
  apply (ha.create hn).setOwned ((live_create weight hnot (.ime n)).mpr (.inr hlive))
  change (.candidateList n ::ₘ out) + (h.owned (.ime n) : Multiset ComObject) = _
  rw [← Multiset.cons_coe, Multiset.cons_add, Multiset.add_cons]

structure Attached (k b : ℕ) (h h' : Heap ComObject) : Prop where
  owned : ∀ o, h'.owned o =
    if o = .ime k then [.candidateList k, .modeButton b]
    else if o = .modeButton b then [.ime k] else h.owned o
  live : ∀ o, h'.Live o → o = .modeButton b ∨ o = .ime k ∨ o = .candidateList k ∨ h.Live o
  number : ∀ o ∈ h'.created, o ∈ h.created ∨ o.number = b
  fresh : h.owned (.modeButton b) = []
  without : ∀ b', ¬HoldsButton h k b'

theorem Attached.holdsButton_iff {h' : Heap ComObject} {k b : ℕ} (hat : Attached k b h h')
    (k' b' : ℕ) : HoldsButton h' k' b' ↔ k' = k ∧ b' = b ∨ HoldsButton h k' b' := by
  simp only [HoldsButton, hat.owned, ComObject.ime.injEq, ComObject.modeButton.injEq, if_false,
    reduceCtorEq]
  by_cases hk : k' = k
  · subst hk
    have hwithout := hat.without b'
    by_cases hb : b' = b
    · simp [hb]
    · have hne : b ≠ b' := fun heq => hb heq.symm
      simp only [HoldsButton] at hwithout
      simp [hb, hne, hwithout]
  · by_cases hb : b' = b
    · subst hb
      have hne : k ≠ k' := fun heq => hk heq.symm
      simp [hk, hne, hat.fresh]
    · simp [hk, hb]

theorem Attached.shape {h' : Heap ComObject} {k next : ℕ} {pThreadMgr pThreadMgr' : ℕ → Bool}
    (hat : Attached k next h h') (hs : Shape next pThreadMgr h)
    (hp : ∀ k', pThreadMgr' k' = true → k' = k ∨ pThreadMgr k' = true) :
    Shape (next + 1) pThreadMgr' h' where
  number o ho := by
    rcases hat.number o ho with hold | hnew
    · exact Nat.lt_succ_of_lt (hs.number o hold)
    · omega
  ime k' hk' := by
    by_cases heq : k' = k
    · exact .inr ⟨next, (hat.holdsButton_iff k' next).mpr (.inl ⟨heq, rfl⟩)⟩
    · have hlive : h.Live (.ime k') := by simpa [heq] using hat.live _ hk'
      rcases hs.ime k' hlive with hlist | ⟨b, hb⟩
      · left
        simpa [hat.owned, heq] using hlist
      · exact .inr ⟨b, (hat.holdsButton_iff k' b).mpr (.inr hb)⟩
  active k' hk' := by
    rcases hp k' hk' with heq | hold
    · exact ⟨next, (hat.holdsButton_iff k' next).mpr (.inl ⟨heq, rfl⟩)⟩
    · obtain ⟨b, hb⟩ := hs.active k' hold
      exact ⟨b, (hat.holdsButton_iff k' b).mpr (.inr hb)⟩
  modeButton b hb := by
    by_cases heq : b = next
    · exact ⟨k, by simp [hat.owned, heq]⟩
    · have hlive : h.Live (.modeButton b) := by simpa [heq] using hat.live _ hb
      obtain ⟨k', hk'⟩ := hs.modeButton b hlive
      exact ⟨k', by simpa [hat.owned, heq] using hk'⟩
  candidateList n := by simpa [hat.owned] using hs.candidateList n
  classFactory n := by simpa [hat.owned] using hs.classFactory n

theorem Shape.not_mem_created {next : ℕ} {pThreadMgr : ℕ → Bool} (hs : Shape next pThreadMgr h)
    {o : ComObject} (ho : o.number = next) : o ∉ h.created := by
  intro hmem
  have hlt := hs.number o hmem
  omega

theorem attached_constructTCodeIME {next : ℕ} {pThreadMgr : ℕ → Bool}
    (ha : Accounted weight base h out) (hs : Shape next pThreadMgr h) :
    Attached next next h (constructTCodeIME next h) := by
  have hnil : ∀ o : ComObject, o.number = next → h.owned o = [] := fun o ho =>
    ha.owned_eq_nil (ha.count_eq_zero (hs.not_mem_created ho))
  have hnot : ∀ o : ComObject, o.number = next → o ∉ h.destroyed := fun o ho hd =>
    hs.not_mem_created ho (ha.destroyed_created o hd)
  refine ⟨?_, ?_, ?_, hnil _ rfl, ?_⟩
  · intro o
    rw [constructTCodeIME, owned_attachCandidateList, owned_attachModeButton,
      owned_attachModeButton]
    have hime : (h.create weight (.ime next)).owned (.ime next) = [] := hnil _ rfl
    rw [if_pos rfl, hime]
    split_ifs
    · rfl
    · rfl
    · rfl
  · intro o ho
    have hbutton : .modeButton next ∉ (h.create weight (.ime next)).destroyed := hnot _ rfl
    have hlist : .candidateList next ∉
        (attachModeButton next next (h.create weight (.ime next))).destroyed := hnot _ rfl
    rw [constructTCodeIME, live_attachCandidateList hlist, live_attachModeButton hbutton,
      live_create weight (hnot _ rfl)] at ho
    tauto
  · intro o ho
    simp only [constructTCodeIME, attachCandidateList, attachModeButton, constructModeButton,
      Heap.setOwned, Heap.addRef, Heap.create, Finset.mem_insert] at ho
    rcases ho with rfl | rfl | rfl | hold
    · exact .inr rfl
    · exact .inr rfl
    · exact .inr rfl
    · exact .inl hold
  · intro b hb
    have hime := hnil (.ime next) rfl
    rw [hb.1] at hime
    cases hime

theorem attached_attachModeButton {k next : ℕ} {pThreadMgr : ℕ → Bool}
    (ha : Accounted weight base h out) (hs : Shape next pThreadMgr h)
    (hk : h.owned (.ime k) = [.candidateList k]) : Attached k next h (attachModeButton next k h) := by
  have hfresh : .modeButton next ∉ h.created := hs.not_mem_created rfl
  refine ⟨?_, ?_, ?_, ha.owned_eq_nil (ha.count_eq_zero hfresh), ?_⟩
  · intro o
    rw [owned_attachModeButton, hk]
    rfl
  · intro o ho
    rw [live_attachModeButton (fun hd => hfresh (ha.destroyed_created _ hd))] at ho
    tauto
  · intro o ho
    simp only [attachModeButton, constructModeButton, Heap.setOwned, Heap.addRef, Heap.create,
      Finset.mem_insert] at ho
    rcases ho with rfl | hold
    · exact .inr rfl
    · exact .inl hold
  · intro b hb
    have hime := hb.1
    rw [hk] at hime
    simp at hime

theorem accounted_constructTCodeIME {next : ℕ} {pThreadMgr : ℕ → Bool}
    (ha : Accounted weight base h out) (hs : Shape next pThreadMgr h) :
    Accounted weight base (constructTCodeIME next h) (.ime next ::ₘ out) := by
  have hfresh : ∀ o : ComObject, o.number = next → o ∉ h.created :=
    fun o ho => hs.not_mem_created ho
  have hime := ha.create (hfresh (.ime next) rfl)
  have hlive : (h.create weight (.ime next)).Live (.ime next) :=
    (hime.live_iff _).mp (by simp [Heap.create])
  have hbutton : .modeButton next ∉ (h.create weight (.ime next)).created := by
    simp [Heap.create, hfresh (.modeButton next) rfl]
  have hnot : .modeButton next ∉ (h.create weight (.ime next)).destroyed :=
    fun hd => hfresh (.modeButton next) rfl (ha.destroyed_created _ hd)
  apply accounted_attachCandidateList (accounted_attachModeButton hime hbutton hlive)
  · simp [attachModeButton, constructModeButton, Heap.setOwned, Heap.addRef, Heap.create,
      hfresh (.candidateList next) rfl]
  · exact (live_attachModeButton hnot _).mpr (.inr hlive)

/-! The instance gives its button up. -/

def dropped (k : ℕ) (h : Heap ComObject) : Heap ComObject :=
  h.setOwned (.ime k) [.candidateList k]

theorem holdsButton_dropped {k k' b : ℕ} :
    HoldsButton (dropped k h) k' b ↔ k' ≠ k ∧ HoldsButton h k' b := by
  by_cases hk : k' = k
  · simp [HoldsButton, dropped, Heap.setOwned, hk]
  · simp [HoldsButton, dropped, Heap.setOwned, hk]

theorem Shape.dropped {k next : ℕ} {pThreadMgr : ℕ → Bool} (hs : Shape next pThreadMgr h) :
    Shape next (Function.update pThreadMgr k false) (dropped k h) where
  number := hs.number
  ime k' hk' := by
    by_cases heq : k' = k
    · subst heq
      exact .inl (by simp [TCodeIME.dropped, Heap.setOwned])
    · rcases hs.ime k' hk' with hlist | ⟨b, hb⟩
      · left
        simpa [TCodeIME.dropped, Heap.setOwned, heq] using hlist
      · exact .inr ⟨b, holdsButton_dropped.mpr ⟨heq, hb⟩⟩
  active k' hk' := by
    by_cases heq : k' = k
    · simp [heq] at hk'
    · rw [Function.update_of_ne heq] at hk'
      obtain ⟨b, hb⟩ := hs.active k' hk'
      exact ⟨b, holdsButton_dropped.mpr ⟨heq, hb⟩⟩
  modeButton b hb := by simpa [TCodeIME.dropped, Heap.setOwned] using hs.modeButton b hb
  candidateList n := by simpa [TCodeIME.dropped, Heap.setOwned] using hs.candidateList n
  classFactory n := by simpa [TCodeIME.dropped, Heap.setOwned] using hs.classFactory n

theorem accounted_dropped {k b : ℕ} (ha : Accounted weight base h out) (hb : HoldsButton h k b) :
    Accounted weight base (dropped k h) (([.modeButton b] : List ComObject) + out) := by
  apply ha.setOwned (ha.owned_live _ (by simp [hb.1]))
  rw [hb.1, add_comm out, add_right_comm, Multiset.coe_add]
  exact congrArg (· + out) (Multiset.coe_eq_coe.mpr (List.Perm.swap _ _ _))

/-! What one call does. -/

theorem Inv.addRef {loc : List ComObject} {s : Dll} (hi : Inv d loc s) {o : ComObject}
    (ho : s.heap.Live o) : Inv d loc (s.addRef o) := by
  have hs := hi.shape
  refine ⟨?_, hs.number, hs.ime, hs.active, hs.modeButton, hs.candidateList, hs.classFactory⟩
  have ha := hi.accounted.addRef ho
  rwa [← Multiset.add_cons] at ha

theorem Inv.queryInterface {loc : List ComObject} {s : Dll} (hi : Inv d loc s) {o : ComObject}
    (ho : s.heap.Live o) (riid : InterfaceId) (ppvObj : Bool) :
    Inv d loc (s.queryInterface o riid ppvObj).2 := by
  rw [Dll.queryInterface]
  split_ifs
  · exact hi
  · exact hi.addRef ho
  · exact hi

theorem Inv.pending {loc : List ComObject} {s : Dll} {o : ComObject} (hi : Inv d (o :: loc) s) :
    Accounted weight (d + s.locks) s.heap
      (([o] : List ComObject) + ((loc : Multiset ComObject) + s.held)) := by
  have ha := hi.accounted
  rwa [← Multiset.cons_coe, Multiset.cons_add, ← Multiset.singleton_add, ← Multiset.coe_singleton]
    at ha

theorem Inv.releaseLocal {loc : List ComObject} {s : Dll} {o : ComObject}
    (hi : Inv d (o :: loc) s) : Inv d loc (s.releaseLocal o) :=
  ⟨hi.pending.release, hi.shape.release hi.pending⟩

theorem Inv.give {loc : List ComObject} {s : Dll} {o : ComObject} (hi : Inv d loc s)
    (ho : o ∈ s.held) : Inv d (o :: loc) { s with held := s.held.erase o } := by
  refine ⟨?_, hi.shape⟩
  have ha := hi.accounted
  rwa [← Multiset.cons_erase ho, Multiset.add_cons, ← Multiset.cons_add, Multiset.cons_coe] at ha

theorem Inv.release {loc : List ComObject} {s : Dll} {o : ComObject} (hi : Inv d loc s)
    (ho : o ∈ s.held) : Inv d loc (s.release o) := (hi.give ho).releaseLocal

theorem Inv.live_of_mem {loc : List ComObject} {s : Dll} {o : ComObject} (hi : Inv d loc s)
    (ho : o ∈ (loc : Multiset ComObject) + s.held) : s.heap.Live o := by
  have hpos := hi.accounted.count_pos_of_mem (Multiset.mem_add.mpr (.inl ho))
  exact (hi.accounted.live_iff o).mp (by omega)

theorem Inv.live_of_held {loc : List ComObject} {s : Dll} {o : ComObject} (hi : Inv d loc s)
    (ho : o ∈ s.held) : s.heap.Live o := hi.live_of_mem (Multiset.mem_add.mpr (.inr ho))

theorem unactivated_releaseLocal {loc : List ComObject} {s : Dll} {o : ComObject}
    (hi : Inv d (o :: loc) s) (k : ℕ) : Unactivated (s.releaseLocal o) k ↔ Unactivated s k :=
  and_congr_right fun _ => exists_congr fun _ => holdsButton_release hi.pending

theorem unactivated_queryInterface (s : Dll) (o : ComObject) (riid : InterfaceId) (ppvObj : Bool)
    (k : ℕ) : Unactivated (s.queryInterface o riid ppvObj).2 k ↔ Unactivated s k := by
  rw [Dll.queryInterface]
  split_ifs
  · exact Iff.rfl
  · exact Iff.rfl
  · exact Iff.rfl

theorem unactivated_release {loc : List ComObject} {s : Dll} {o : ComObject} (hi : Inv d loc s)
    (ho : o ∈ s.held) (k : ℕ) : Unactivated (s.release o) k ↔ Unactivated s k :=
  unactivated_releaseLocal (hi.give ho) k

theorem Inv.handOut {s : Dll} {o : ComObject} (hi : Inv d [o] s) (riid : InterfaceId) :
    Inv d [] ((s.queryInterface o riid true).2.releaseLocal o) ∧
      ∀ k, Unactivated ((s.queryInterface o riid true).2.releaseLocal o) k ↔ Unactivated s k := by
  have hlive : s.heap.Live o := hi.live_of_mem (by simp)
  have hquery := hi.queryInterface hlive riid true
  refine ⟨hquery.releaseLocal, fun k => ?_⟩
  rw [unactivated_releaseLocal hquery, unactivated_queryInterface]

end TCodeIME
