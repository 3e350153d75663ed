import TCodeIME.ReleasedObjects

/-!
The instances of the text service that are never activated stay in memory, and the DLL with them.
-/

open ReferenceCounts Runs

namespace TCodeIME

open ComObject Dll

variable {d : ℤ} {s : Dll}

theorem inv_loaded (d : ℤ) : Inv d [] (loaded d) where
  accounted := by
    have ha := Accounted.loaded weight d
    simpa [loaded] using ha
  shape :=
    { number := fun o ho => by simp [loaded] at ho
      ime := fun k hk => by simp [loaded, Heap.Live] at hk
      active := fun k hk => by simp [loaded] at hk
      modeButton := fun b hb => by simp [loaded, Heap.Live] at hb
      candidateList := fun _ => rfl
      classFactory := fun _ => rfl }

/-! `DllGetClassObject` and `CreateInstance` release the reference of the constructor in the end,
whether or not the caller gets one. -/

theorem inv_constructClassFactory (hi : Inv d [] s) :
    Inv d [.classFactory s.next]
      { s with heap := constructClassFactory s.next s.heap, next := s.next + 1 } := by
  have hs := hi.shape
  have hfresh : .classFactory s.next ∉ s.heap.created := hs.not_mem_created rfl
  have hnot : .classFactory s.next ∉ s.heap.destroyed :=
    fun hd => hfresh (hi.accounted.destroyed_created _ hd)
  have hlive : ∀ o : ComObject, (constructClassFactory s.next s.heap).Live o →
      o = .classFactory s.next ∨ s.heap.Live o := fun o => (live_create weight hnot o).mp
  refine ⟨?_, ?_, ?_, hs.active, ?_, hs.candidateList, hs.classFactory⟩
  · have ha := hi.accounted.create hfresh
    rwa [← Multiset.cons_add, Multiset.cons_coe] at ha
  · intro o ho
    rcases Finset.mem_insert.mp ho with rfl | hold
    · exact Nat.lt_succ_self _
    · exact Nat.lt_succ_of_lt (hs.number o hold)
  · intro k hk
    exact hs.ime k (by simpa using hlive _ hk)
  · intro b hb
    exact hs.modeButton b (by simpa using hlive _ hb)

theorem inv_dllGetClassObject (hi : Inv d [] s) (rclsid : Bool) (riid : InterfaceId) (ppv : Bool) :
    Inv d [] (s.dllGetClassObject rclsid riid ppv).2 := by
  unfold dllGetClassObject
  split_ifs
  · exact hi
  · exact hi
  · exact ((inv_constructClassFactory hi).handOut riid).1

theorem unactivated_dllGetClassObject (hi : Inv d [] s) (rclsid : Bool) (riid : InterfaceId)
    (ppv : Bool) (k : ℕ) :
    Unactivated (s.dllGetClassObject rclsid riid ppv).2 k ↔ Unactivated s k := by
  unfold dllGetClassObject
  split_ifs
  · exact Iff.rfl
  · exact Iff.rfl
  · exact ((inv_constructClassFactory hi).handOut riid).2 k

theorem inv_constructTCodeIME (hi : Inv d [] s) :
    Inv d [.ime s.next]
      { s with heap := constructTCodeIME s.next s.heap, next := s.next + 1 } := by
  refine ⟨?_, (attached_constructTCodeIME hi.accounted hi.shape).shape hi.shape fun k hk => .inr hk⟩
  have ha := accounted_constructTCodeIME hi.accounted hi.shape
  rwa [← Multiset.cons_add, Multiset.cons_coe] at ha

theorem unactivated_constructTCodeIME (hi : Inv d [] s) (k : ℕ) :
    Unactivated { s with heap := constructTCodeIME s.next s.heap, next := s.next + 1 } k ↔
      Unactivated s k ∨ k = s.next := by
  have hat := attached_constructTCodeIME hi.accounted hi.shape
  have hinactive : s.pThreadMgr s.next = false := by
    by_contra hactive
    obtain ⟨b, hb⟩ := hi.shape.active s.next (by simpa using hactive)
    exact hat.without b hb
  simp only [Unactivated, hat.holdsButton_iff]
  constructor
  · rintro ⟨hp, b, ⟨hk, -⟩ | hb⟩
    · exact .inr hk
    · exact .inl ⟨hp, b, hb⟩
  · rintro (⟨hp, b, hb⟩ | hk)
    · exact ⟨hp, b, .inr hb⟩
    · exact ⟨hk ▸ hinactive, s.next, .inl ⟨hk, rfl⟩⟩

theorem inv_createInstance (hi : Inv d [] s) (pUnkOuter : Bool) (riid : InterfaceId) (ppvObj : Bool) :
    Inv d [] (s.createInstance pUnkOuter riid ppvObj).2 := by
  unfold createInstance
  split_ifs
  · exact hi
  · exact hi
  · exact ((inv_constructTCodeIME hi).handOut riid).1

theorem unactivated_createInstance (hi : Inv d [] s) (pUnkOuter : Bool) (riid : InterfaceId)
    (ppvObj : Bool) (k : ℕ) :
    Unactivated (s.createInstance pUnkOuter riid ppvObj).2 k ↔
      Unactivated s k ∨ (ppvObj && !pUnkOuter) = true ∧ k = s.next := by
  unfold createInstance
  split_ifs with hppv houter
  · simp [hppv]
  · simp [houter]
  · apply (((inv_constructTCodeIME hi).handOut riid).2 k).trans
    rw [unactivated_constructTCodeIME hi]
    have hconstructs : (ppvObj && !pUnkOuter) = true := by simpa [houter] using hppv
    simp [hconstructs]

theorem inv_lockServer (hi : Inv d [] s) (fLock : Bool) (hlocks : fLock = false → 0 < s.locks) :
    Inv d [] (s.lockServer fLock) := by
  have hs := hi.shape
  have hshape : ∀ m, Shape s.next s.pThreadMgr { s.heap with moduleCount := m } := fun m =>
    ⟨hs.number, hs.ime, hs.active, hs.modeButton, hs.candidateList, hs.classFactory⟩
  cases fLock with
  | true =>
    refine ⟨?_, hshape _⟩
    have ha := hi.accounted.lock 1
    rw [add_assoc] at ha
    exact_mod_cast ha
  | false =>
    refine ⟨?_, hshape _⟩
    have ha := hi.accounted.lock (-1)
    have hbase : d + s.locks + -1 = d + ((s.locks - 1 : ℕ) : ℤ) := by
      have hpos := hlocks rfl
      omega
    rwa [hbase] at ha

theorem unactivated_lockServer (s : Dll) (fLock : Bool) (k : ℕ) :
    Unactivated (s.lockServer fLock) k ↔ Unactivated s k := by
  cases fLock <;> exact Iff.rfl

/-! Activation -/

theorem pModeButton_eq_none {k : ℕ} (hk : s.heap.owned (.ime k) = [.candidateList k]) :
    s.pModeButton k = none := by
  rw [pModeButton, hk]
  rfl

theorem recreateModeButton_spec (hi : Inv d [] s) {k : ℕ} (hk : s.heap.Live (.ime k)) {t : Dll}
    (ht : t = recreateModeButton k { s with pThreadMgr := Function.update s.pThreadMgr k true }) :
    Inv d [] t ∧ (∃ b, HoldsButton t.heap k b) ∧ ∀ j, Unactivated t j ↔ Unactivated s j ∧ j ≠ k := by
  have hactive : ∀ j, Function.update s.pThreadMgr k true j = true → j = k ∨ s.pThreadMgr j = true := by
    intro j hj
    by_cases heq : j = k
    · exact .inl heq
    · exact .inr (by simpa [heq] using hj)
  rcases hi.shape.ime k hk with hlist | ⟨b, hb⟩
  · have hat := attached_attachModeButton hi.accounted hi.shape hlist
    have hnone : pModeButton k { s with pThreadMgr := Function.update s.pThreadMgr k true } = none :=
      pModeButton_eq_none hlist
    have hfresh : .modeButton s.next ∉ s.heap.created := hi.shape.not_mem_created rfl
    rw [recreateModeButton, if_pos hnone] at ht
    subst ht
    refine ⟨⟨accounted_attachModeButton hi.accounted hfresh hk, hat.shape hi.shape hactive⟩,
      ⟨s.next, (hat.holdsButton_iff _ _).mpr (.inl ⟨rfl, rfl⟩)⟩, ?_⟩
    intro j
    by_cases heq : j = k
    · simp [Unactivated, heq]
    · simp [Unactivated, heq, hat.holdsButton_iff]
  · have hsome : pModeButton k { s with pThreadMgr := Function.update s.pThreadMgr k true } = some b :=
      HoldsButton.pModeButton hb
    rw [recreateModeButton, if_neg (by rw [hsome]; exact Option.some_ne_none b)] at ht
    subst ht
    have hs := hi.shape
    refine ⟨⟨hi.accounted, hs.number, hs.ime, ?_, hs.modeButton, hs.candidateList, hs.classFactory⟩,
      ⟨b, hb⟩, ?_⟩
    · intro j hj
      rcases hactive j hj with rfl | hold
      · exact ⟨b, hb⟩
      · exact hs.active j hold
    · intro j
      by_cases heq : j = k
      · simp [Unactivated, heq]
      · simp [Unactivated, heq]

theorem inv_addItem (hi : Inv d [] s) {b : ℕ} (hb : s.heap.Live (.modeButton b)) (taken : ℕ) :
    Inv d [] (s.addItem b taken) ∧ ∀ k, Unactivated (s.addItem b taken) k ↔ Unactivated s k := by
  unfold addItem
  induction taken generalizing s with
  | zero => exact ⟨hi, fun k => Iff.rfl⟩
  | succ n ih =>
    rw [Function.iterate_succ_apply]
    exact ih (hi.addRef hb) hb

theorem inv_activateEx (hi : Inv d [] s) {k : ℕ} (hk : .ime k ∈ s.held) (taken : ℕ) :
    Inv d [] (s.activateEx k taken) ∧
      ∀ j, Unactivated (s.activateEx k taken) j ↔ Unactivated s j ∧ j ≠ k := by
  obtain ⟨hinv, ⟨b, hb⟩, hun⟩ := recreateModeButton_spec hi (hi.live_of_held hk) rfl
  have hlive := hinv.accounted.owned_live (.modeButton b) (by simp [hb.2])
  have hadd := inv_addItem hinv hlive taken
  simp only [activateEx, hb.pModeButton]
  exact ⟨hadd.1, fun j => (hadd.2 j).trans (hun j)⟩

theorem inv_removeItem (hi : Inv d [] s) {b taken : ℕ} (htaken : taken ≤ s.held.count (.modeButton b))
    {k : ℕ} (hb : HoldsButton s.heap k b) :
    Inv d [] (s.removeItem b taken) ∧ HoldsButton (s.removeItem b taken).heap k b ∧
      (s.removeItem b taken).pThreadMgr = s.pThreadMgr ∧
        ∀ j, Unactivated (s.removeItem b taken) j ↔ Unactivated s j := by
  unfold removeItem
  induction taken generalizing s with
  | zero => exact ⟨hi, hb, rfl, fun j => Iff.rfl⟩
  | succ n ih =>
    have hmem : .modeButton b ∈ s.held := Multiset.count_pos.mp (by omega)
    have hgive := hi.give hmem
    rw [Function.iterate_succ_apply]
    have hcount : n ≤ (s.release (.modeButton b)).held.count (.modeButton b) := by
      change n ≤ (s.held.erase _).count _
      rw [Multiset.count_erase_self]
      omega
    obtain ⟨h1, h2, h3, h4⟩ := ih (hi.release hmem) hcount ((holdsButton_release hgive.pending).mpr hb)
    exact ⟨h1, h2, h3, fun j => (h4 j).trans (unactivated_release hi hmem j)⟩

theorem inv_dropModeButton (hi : Inv d [] s) {b k : ℕ} (hb : HoldsButton s.heap k b)
    (hk : s.pThreadMgr k = true) {t : Dll} (ht : t = s.dropModeButton b k) :
    Inv d [] { t with pThreadMgr := Function.update t.pThreadMgr k false } ∧
      ∀ j, Unactivated { t with pThreadMgr := Function.update t.pThreadMgr k false } j ↔
        Unactivated s j := by
  have herase : (s.heap.owned (.ime k)).erase (.modeButton b) = [.candidateList k] := by
    rw [hb.1, List.erase_cons_tail (by simp), List.erase_cons_head]
  have hdrop : Inv d [.modeButton b]
      { s with heap := dropped k s.heap, pThreadMgr := Function.update s.pThreadMgr k false } := by
    refine ⟨?_, hi.shape.dropped⟩
    have ha := accounted_dropped hi.accounted hb
    rwa [Multiset.coe_nil, zero_add] at ha
  rw [dropModeButton, herase] at ht
  subst ht
  refine ⟨hdrop.releaseLocal, fun j => (unactivated_releaseLocal hdrop j).trans ?_⟩
  simp only [Unactivated, holdsButton_dropped]
  by_cases heq : j = k
  · simp [heq, hk]
  · simp [heq]

theorem inv_deactivate (hi : Inv d [] s) {k taken : ℕ}
    (htaken : ∀ b ∈ s.pModeButton k, taken ≤ s.held.count (.modeButton b)) :
    Inv d [] (s.deactivate k taken) ∧
      ∀ j, Unactivated (s.deactivate k taken) j ↔ Unactivated s j := by
  unfold deactivate
  split_ifs with hk
  · exact ⟨hi, fun j => Iff.rfl⟩
  · rw [Bool.not_eq_false] at hk
    obtain ⟨b, hb⟩ := hi.shape.active k hk
    have hsome := hb.pModeButton
    obtain ⟨hinv, hholds, hthread, hun⟩ := inv_removeItem hi (htaken b hsome) hb
    have hdrop := inv_dropModeButton hinv hholds (hthread ▸ hk) rfl
    simp only [hsome]
    exact ⟨hdrop.1, fun j => (hdrop.2 j).trans (hun j)⟩

theorem inv_step {e : ClientCall} (hi : Inv d [] s) (he : s.Allowed e) :
    Inv d [] (s.step e) ∧ ∀ k, Unactivated (s.step e) k ↔
      Unactivated s k ∧ e.activates k = false ∨ e.constructs = true ∧ k = s.next := by
  cases e with
  | dllGetClassObject rclsid riid ppv =>
    refine ⟨inv_dllGetClassObject hi rclsid riid ppv, fun k => ?_⟩
    apply (unactivated_dllGetClassObject hi rclsid riid ppv k).trans
    simp [ClientCall.activates, ClientCall.constructs]
  | createInstance factory pUnkOuter riid ppvObj =>
    refine ⟨inv_createInstance hi pUnkOuter riid ppvObj, fun k => ?_⟩
    apply (unactivated_createInstance hi pUnkOuter riid ppvObj k).trans
    simp [ClientCall.activates, ClientCall.constructs]
  | queryInterface o riid ppvObj =>
    refine ⟨hi.queryInterface (hi.live_of_held he) riid ppvObj, fun k => ?_⟩
    apply (unactivated_queryInterface s o riid ppvObj k).trans
    simp [ClientCall.activates, ClientCall.constructs]
  | addRef o =>
    refine ⟨hi.addRef he, fun k => ?_⟩
    have hsame : Unactivated (s.addRef o) k ↔ Unactivated s k := Iff.rfl
    apply hsame.trans
    simp [ClientCall.activates, ClientCall.constructs]
  | release o =>
    refine ⟨hi.release he, fun k => ?_⟩
    apply (unactivated_release hi he k).trans
    simp [ClientCall.activates, ClientCall.constructs]
  | lockServer factory fLock =>
    refine ⟨inv_lockServer hi fLock he.2, fun k => ?_⟩
    apply (unactivated_lockServer s fLock k).trans
    simp [ClientCall.activates, ClientCall.constructs]
  | activateEx j taken =>
    obtain ⟨hinv, hun⟩ := inv_activateEx hi he.1 taken
    refine ⟨hinv, fun k => (hun k).trans ?_⟩
    simp [ClientCall.activates, ClientCall.constructs, eq_comm]
  | deactivate j taken =>
    obtain ⟨hinv, hun⟩ := inv_deactivate hi he.2
    refine ⟨hinv, fun k => (hun k).trans ?_⟩
    simp [ClientCall.activates, ClientCall.constructs]

theorem owner_cases {o p : ComObject} (hi : Inv d [] s) (ho : o ∈ s.heap.owned p) :
    (∃ k, p = .ime k ∧ (o = .candidateList k ∨ ∃ b, o = .modeButton b ∧ HoldsButton s.heap k b)) ∨
      ∃ b k, p = .modeButton b ∧ o = .ime k := by
  have hlive := hi.accounted.owned_live p (List.ne_nil_of_mem ho)
  cases p with
  | ime k =>
    left
    rcases hi.shape.ime k hlive with hlist | ⟨b, hb⟩
    · rw [hlist, List.mem_singleton] at ho
      exact ⟨k, rfl, .inl ho⟩
    · rw [hb.1, List.mem_pair] at ho
      exact ⟨k, rfl, ho.imp id fun heq => ⟨b, heq, hb⟩⟩
  | modeButton b =>
    right
    obtain ⟨k, hk⟩ := hi.shape.modeButton b hlive
    rw [hk, List.mem_singleton] at ho
    exact ⟨b, k, rfl, ho⟩
  | candidateList n =>
    rw [hi.shape.candidateList] at ho
    cases ho
  | classFactory n =>
    rw [hi.shape.classFactory] at ho
    cases ho

theorem drained_iff_of_quiescent (hi : Inv d [] s) (hq : s.Quiescent) :
    s.Drained d ↔ ∀ k, ¬Unactivated s k := by
  have ha : Accounted weight d s.heap 0 := by
    have ha := hi.accounted
    rwa [hq.held, hq.locks, Multiset.coe_nil, add_zero, Nat.cast_zero, add_zero] at ha
  constructor
  · rintro hd k ⟨-, b, hb⟩
    have hlive := ha.owned_live (.ime k) (by simp [hb.1])
    have honce := hd.destroyed _ hlive.1
    rw [List.count_eq_zero_of_not_mem hlive.2] at honce
    cases honce
  · intro hnone
    have howner : ∀ o, s.heap.Live o → ∃ p, o ∈ s.heap.owned p := fun o ho =>
      (ha.mem_of_count_ne_zero ((ha.live_iff o).mpr ho)).resolve_left (Multiset.notMem_zero o)
    have hbutton : ∀ b, ¬s.heap.Live (.modeButton b) := by
      intro b hb
      obtain ⟨p, hp⟩ := howner _ hb
      rcases owner_cases hi hp with ⟨k, -, hlist | ⟨b', -, hholds⟩⟩ | ⟨b', k, -, hime⟩
      · cases hlist
      · exact hnone k ⟨hq.inactive k, b', hholds⟩
      · cases hime
    have hime : ∀ k, ¬s.heap.Live (.ime k) := by
      intro k hk
      obtain ⟨p, hp⟩ := howner _ hk
      rcases owner_cases hi hp with ⟨k', -, hlist | ⟨b, hb, -⟩⟩ | ⟨b, k', rfl, -⟩
      · cases hlist
      · cases hb
      · exact hbutton b (ha.owned_live _ (List.ne_nil_of_mem hp))
    have hdead : ∀ o, s.heap.count o = 0 := by
      intro o
      by_contra hne
      obtain ⟨p, hp⟩ := howner o ((ha.live_iff o).mp hne)
      have hlive := ha.owned_live p (List.ne_nil_of_mem hp)
      rcases owner_cases hi hp with ⟨k, rfl, -⟩ | ⟨b, k, rfl, -⟩
      · exact hime k hlive
      · exact hbutton b hlive
    obtain ⟨hdestroyed, hcount⟩ := ha.all_destroyed hdead
    have hcRef : s.cRefDll = d := hcount
    refine ⟨hdestroyed, hcRef, ?_⟩
    rw [dllCanUnloadNow, hcRef]
    rfl

theorem unactivated_run {es : List ClientCall} (hi : Inv d [] s) (hes : Along step Allowed s es) :
    (∀ k, ¬Unactivated (run step s es) k) ↔
      EachActivated s es ∧ ∀ k, Unactivated s k → es.any (·.activates k) = true := by
  induction es generalizing s with
  | nil => simp [run, EachActivated]
  | cons e es ih =>
    obtain ⟨hinv, hun⟩ := inv_step hi hes.1
    have hrun : run step s (e :: es) = run step (s.step e) es := rfl
    rw [hrun, ih hinv hes.2, EachActivated, and_right_comm, and_comm]
    refine and_congr_left fun _ => ?_
    simp only [hun, List.any_cons, Bool.or_eq_true]
    constructor
    · intro hall
      refine ⟨fun hc => hall _ (.inr ⟨hc, rfl⟩), fun k hk => ?_⟩
      cases he : e.activates k with
      | true => exact .inl rfl
      | false => exact .inr (hall k (.inl ⟨hk, he⟩))
    · rintro ⟨hnew, hold⟩ k (⟨hk, he⟩ | ⟨hc, rfl⟩)
      · exact (hold k hk).resolve_left (by simp [he])
      · exact hnew hc

theorem references_drain_iff {es : List ClientCall} (hes : Along step Allowed (loaded d) es)
    (hq : (run step (loaded d) es).Quiescent) :
    (run step (loaded d) es).Drained d ↔ EachActivated (loaded d) es := by
  have hi : Inv d [] (run step (loaded d) es) :=
    run_of_step (I := Inv d []) (fun s e hi he => (inv_step hi he).1) (inv_loaded d) hes
  rw [drained_iff_of_quiescent hi hq, unactivated_run (inv_loaded d) hes]
  refine and_iff_left fun k hk => ?_
  obtain ⟨-, b, hb⟩ := hk
  cases hb.1

def reactivated : List ClientCall :=
  [.dllGetClassObject true .iClassFactory true, .createInstance 0 false .iUnknown true,
    .activateEx 1 2, .deactivate 1 2, .activateEx 1 1, .release (.modeButton 2), .deactivate 1 0,
    .release (.ime 1), .release (.classFactory 0)]

theorem quiescent_reactivated : (run step (loaded 0) reactivated).Quiescent where
  held := by decide
  inactive k := by
    have hthread : (run step (loaded 0) reactivated).pThreadMgr =
        Function.update (Function.update (Function.update (Function.update (fun _ => false) 1 true)
          1 false) 1 true) 1 false := rfl
    rw [hthread]
    by_cases hk : k = 1
    · simp [hk]
    · simp [hk]
  locks := by decide

theorem references_drain_reactivated : (run step (loaded 0) reactivated).Drained 0 :=
  (references_drain_iff (by decide) quiescent_reactivated).mpr (by decide)

/-- A client asks for the class factory, creates an instance and releases both. -/
def neverActivated : List ClientCall :=
  [.dllGetClassObject true .iClassFactory true, .createInstance 0 false .iUnknown true,
    .release (.ime 1), .release (.classFactory 0)]

theorem references_left_by_neverActivated :
    Along step Allowed (loaded 0) neverActivated ∧
      (run step (loaded 0) neverActivated).Quiescent ∧
        .ime 1 ∉ (run step (loaded 0) neverActivated).heap.destroyed ∧
          (run step (loaded 0) neverActivated).cRefDll = 2 ∧
            ¬(run step (loaded 0) neverActivated).Drained 0 := by
  have hcount : (run step (loaded 0) neverActivated).cRefDll = 2 := by decide
  refine ⟨by decide, ⟨by decide, fun k => rfl, by decide⟩, by decide, hcount, ?_⟩
  intro hd
  have hzero := hd.cRefDll
  omega

end TCodeIME
