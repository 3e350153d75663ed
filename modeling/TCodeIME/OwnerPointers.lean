import TCodeIME.AbandonedInstances

/-!
The pointers back to the instance in the objects that it constructs, and when they dangle.
-/

open ReferenceCounts Runs

namespace TCodeIME

namespace ComObject

def ime? : ComObject → Option ℕ
  | .ime k => some k
  | _ => none

def candidateList? : ComObject → Option ℕ
  | .candidateList n => some n
  | _ => none

end ComObject

open ComObject

namespace Dll

/-- `_pOwner` of the mode button, which is counted, and `_pIME` of the candidate list, which is not. -/
def pOwner (s : Dll) : ComObject → Option ℕ
  | .modeButton b => (s.heap.owned (.modeButton b)).findSome? ime?
  | .candidateList n => some n
  | _ => none

def OwnersLive (s : Dll) : Prop := ∀ o ∈ s.held, ∀ k ∈ s.pOwner o, s.heap.Live (.ime k)

def KeptBy (out : Multiset ComObject) (k : ℕ) (s : Dll) : Prop :=
  (s.pModeButton k).isSome ∨ .ime k ∈ out ∨ ∃ o ∈ out, o.modeButton?.isSome ∧ s.pOwner o = some k

def keepsOwners (s : Dll) : ClientCall → Prop
  | .release o => ∀ l ∈ s.held.erase o, ∀ k ∈ l.candidateList?, s.KeptBy (s.held.erase o) k
  | _ => True

instance (s : Dll) : Decidable s.OwnersLive :=
  inferInstanceAs (Decidable (∀ o ∈ s.held, ∀ k ∈ s.pOwner o, s.heap.Live (.ime k)))

instance (out : Multiset ComObject) (k : ℕ) (s : Dll) : Decidable (s.KeptBy out k) :=
  have : Decidable (∃ o ∈ out, o.modeButton?.isSome ∧ s.pOwner o = some k) :=
    Multiset.decidableExistsMultiset
  inferInstanceAs (Decidable (_ ∨ _ ∨ _))

instance (s : Dll) : ∀ e, Decidable (s.keepsOwners e)
  | .release o =>
    inferInstanceAs (Decidable
      (∀ l ∈ s.held.erase o, ∀ k ∈ l.candidateList?, s.KeptBy (s.held.erase o) k))
  | .dllGetClassObject _ _ _ | .createInstance _ _ _ _ | .queryInterface _ _ _ | .addRef _
  | .lockServer _ _ | .activateEx _ _ | .deactivate _ _ => isTrue trivial

end Dll

open Dll

variable {d : ℤ} {s : Dll} {loc : List ComObject}

theorem Inv.gather (hi : Inv d loc s) : Inv d [] { s with held := (loc : Multiset ComObject) + s.held } := by
  refine ⟨?_, hi.shape⟩
  have ha := hi.accounted
  rwa [← zero_add ((loc : Multiset ComObject) + s.held), ← Multiset.coe_nil] at ha

theorem pModeButton_isSome_iff (hi : Inv d [] s) (k : ℕ) :
    (s.pModeButton k).isSome ↔ ∃ b, HoldsButton s.heap k b := by
  constructor
  · intro h
    have hne : s.heap.owned (.ime k) ≠ [] := by
      intro hnil
      rw [pModeButton, hnil] at h
      cases h
    rcases hi.shape.ime k (hi.accounted.owned_live _ hne) with hlist | hholds
    · rw [pModeButton_eq_none hlist] at h
      cases h
    · exact hholds
  · rintro ⟨b, hb⟩
    rw [hb.pModeButton]
    rfl

theorem pOwner_modeButton {b k : ℕ} (hi : Inv d [] s) :
    s.pOwner (.modeButton b) = some k ↔ .ime k ∈ s.heap.owned (.modeButton b) := by
  by_cases hnil : s.heap.owned (.modeButton b) = []
  · simp [pOwner, hnil]
  · obtain ⟨j, hj⟩ := hi.shape.modeButton b (hi.accounted.owned_live _ hnil)
    simp [pOwner, hj, ime?, eq_comm]

theorem live_of_pOwner {b k : ℕ} (hi : Inv d [] s) (h : s.pOwner (.modeButton b) = some k) :
    s.heap.Live (.ime k) := by
  have hpos := hi.accounted.count_pos_of_owned ((pOwner_modeButton hi).mp h)
  exact (hi.accounted.live_iff _).mp (by omega)

theorem eq_modeButton {o : ComObject} (h : o.modeButton?.isSome) : ∃ b, o = .modeButton b := by
  cases o with
  | modeButton b => exact ⟨b, rfl⟩
  | _ => cases h

theorem owned_of_live (hi : Inv d [] s) {o : ComObject} (ho : s.heap.Live o) (hnot : o ∉ s.held) :
    ∃ p, o ∈ s.heap.owned p := by
  have ha := hi.accounted
  rcases ha.mem_of_count_ne_zero ((ha.live_iff o).mpr ho) with hheld | howned
  · rw [Multiset.coe_nil, zero_add] at hheld
    exact absurd hheld hnot
  · exact howned

theorem keptBy_of_pOwner (hi : Inv d [] s) {b k : ℕ} (hk : s.pOwner (.modeButton b) = some k) :
    s.KeptBy s.held k := by
  by_cases hheld : .modeButton b ∈ s.held
  · exact .inr (.inr ⟨_, hheld, rfl, hk⟩)
  · have hime := (pOwner_modeButton hi).mp hk
    have hlive := hi.accounted.owned_live (.modeButton b) (List.ne_nil_of_mem hime)
    obtain ⟨p, hp⟩ := owned_of_live hi hlive hheld
    rcases owner_cases hi hp with ⟨j, rfl, hlist | ⟨b', hb', hholds⟩⟩ | ⟨b', j, rfl, hbutton⟩
    · cases hlist
    · cases hb'
      have hj : k = j := by simpa [hholds.2] using hime
      exact .inl ((pModeButton_isSome_iff hi k).mpr ⟨b, hj ▸ hholds⟩)
    · cases hbutton

theorem live_ime_iff (hi : Inv d [] s) (k : ℕ) : s.heap.Live (.ime k) ↔ s.KeptBy s.held k := by
  constructor
  · intro hlive
    by_cases hheld : .ime k ∈ s.held
    · exact .inr (.inl hheld)
    · obtain ⟨p, hp⟩ := owned_of_live hi hlive hheld
      rcases owner_cases hi hp with ⟨j, rfl, hlist | ⟨b, hb, -⟩⟩ | ⟨b, j, rfl, -⟩
      · cases hlist
      · cases hb
      · exact keptBy_of_pOwner hi ((pOwner_modeButton hi).mpr hp)
  · rintro (hbutton | hheld | ⟨o, -, hbutton, howner⟩)
    · obtain ⟨b, hb⟩ := (pModeButton_isSome_iff hi k).mp hbutton
      exact hi.accounted.owned_live _ (by simp [hb.1])
    · exact hi.live_of_held hheld
    · obtain ⟨b, rfl⟩ := eq_modeButton hbutton
      exact live_of_pOwner hi howner

theorem live_releaseLocal_iff {o : ComObject} (hi : Inv d (o :: loc) s) (k : ℕ) :
    (s.releaseLocal o).heap.Live (.ime k) ↔ s.KeptBy ((loc : Multiset ComObject) + s.held) k := by
  have hi' := hi.releaseLocal.gather
  have hbefore := hi.gather
  have hlive := live_ime_iff hi' k
  refine hlive.trans (or_congr ?_ (or_congr Iff.rfl ?_))
  · refine (pModeButton_isSome_iff hi' k).trans (Iff.trans ?_ (pModeButton_isSome_iff hbefore k).symm)
    exact exists_congr fun b => holdsButton_release hi.pending
  · refine exists_congr fun p => and_congr_right fun hp => and_congr_right fun hbutton => ?_
    obtain ⟨b, rfl⟩ := eq_modeButton hbutton
    have hheld : (s.heap.release weight [o]).Live (.modeButton b) := hi'.live_of_held hp
    refine (pOwner_modeButton hi').trans (Iff.trans ?_ (pOwner_modeButton hbefore).symm)
    change _ ∈ (s.heap.release weight [o]).owned _ ↔ _
    rw [release_owned_of_live hheld]

theorem ownersLive_iff (hi : Inv d [] s) :
    s.OwnersLive ↔ ∀ k, .candidateList k ∈ s.held → s.heap.Live (.ime k) := by
  constructor
  · intro h k hk
    exact h _ hk k rfl
  · intro h o ho k hk
    cases o with
    | candidateList n =>
      cases hk
      exact h k ho
    | modeButton b => exact live_of_pOwner hi hk
    | classFactory n => cases hk
    | ime n => cases hk

/-! What each call leaves of the instances. -/

theorem live_of_candidateList (hi : Inv d [] s) (h : s.OwnersLive) {k : ℕ}
    (hk : s.heap.Live (.candidateList k)) : s.heap.Live (.ime k) := by
  by_cases hheld : .candidateList k ∈ s.held
  · exact (ownersLive_iff hi).mp h k hheld
  · obtain ⟨p, hp⟩ := owned_of_live hi hk hheld
    rcases owner_cases hi hp with ⟨j, rfl, hlist | ⟨b, hb, -⟩⟩ | ⟨b, j, rfl, hime⟩
    · cases hlist
      exact hi.accounted.owned_live _ (List.ne_nil_of_mem hp)
    · cases hb
    · cases hime

theorem ownersLive_of_kept {s' : Dll} (hi : Inv d [] s) (hi' : Inv d [] s') (h : s.OwnersLive)
    (hlist : ∀ k, .candidateList k ∈ s'.held → s.heap.Live (.candidateList k))
    (hlive : ∀ k, s.heap.Live (.ime k) → s'.heap.Live (.ime k)) : s'.OwnersLive := by
  refine (ownersLive_iff hi').mpr fun k hk => ?_
  exact hlive k (live_of_candidateList hi h (hlist k hk))

theorem ownersLive_release_iff (hi : Inv d [] s) {o : ComObject} (ho : o ∈ s.held) :
    (s.release o).OwnersLive ↔ s.keepsOwners (.release o) := by
  rw [ownersLive_iff (hi.release ho)]
  have hlive (k : ℕ) : (s.release o).heap.Live (.ime k) ↔ s.KeptBy (s.held.erase o) k := by
    have hgiven := live_releaseLocal_iff (hi.give ho) k
    rwa [Multiset.coe_nil, zero_add] at hgiven
  constructor
  · intro h l hl k hk
    cases l with
    | candidateList n =>
      cases hk
      exact (hlive k).mp (h k hl)
    | _ => cases hk
  · intro h k hk
    exact (hlive k).mpr (h _ hk k rfl)

theorem keptBy_mono {t : Dll} {k : ℕ} {out out' : Multiset ComObject}
    (hbutton : (s.pModeButton k).isSome → (t.pModeButton k).isSome) (hout : ∀ o ∈ out, o ∈ out')
    (howner : ∀ b, .modeButton b ∈ out → s.pOwner (.modeButton b) = some k →
      t.pOwner (.modeButton b) = some k) (h : s.KeptBy out k) : t.KeptBy out' k := by
  rcases h with hk | hk | ⟨o, ho, hb, hk⟩
  · exact .inl (hbutton hk)
  · exact .inr (.inl (hout _ hk))
  · obtain ⟨b, rfl⟩ := eq_modeButton hb
    exact .inr (.inr ⟨_, hout _ ho, rfl, howner b ho hk⟩)

theorem queryInterface_cases (o : ComObject) (riid : InterfaceId) (ppvObj : Bool) (s : Dll) :
    (s.queryInterface o riid ppvObj).2 = s ∨ (s.queryInterface o riid ppvObj).2 = s.addRef o := by
  rw [queryInterface]
  split_ifs
  · exact .inl rfl
  · exact .inr rfl
  · exact .inl rfl

theorem held_queryInterface {o p : ComObject} {riid : InterfaceId} {ppvObj : Bool}
    (hp : p ∈ (s.queryInterface o riid ppvObj).2.held) : p = o ∨ p ∈ s.held := by
  rcases queryInterface_cases o riid ppvObj s with h | h
  · rw [h] at hp
    exact .inr hp
  · rw [h] at hp
    exact Multiset.mem_cons.mp hp

theorem live_handOut {o : ComObject} (hi : Inv d [o] s) (riid : InterfaceId) {k : ℕ}
    (hk : s.KeptBy s.held k) : ((s.queryInterface o riid true).2.releaseLocal o).heap.Live (.ime k) := by
  have hlive : s.heap.Live o := hi.live_of_mem (by simp)
  refine (live_releaseLocal_iff (hi.queryInterface hlive riid true) k).mpr ?_
  rw [Multiset.coe_nil, zero_add]
  rcases queryInterface_cases o riid true s with h | h
  · rw [h]
    exact hk
  · rw [h]
    exact keptBy_mono id (fun p hp => Multiset.mem_cons_of_mem hp) (fun b _ => id) hk

theorem live_dllGetClassObject (hi : Inv d [] s) (rclsid : Bool) (riid : InterfaceId) (ppv : Bool) {k : ℕ}
    (hk : s.heap.Live (.ime k)) : (s.dllGetClassObject rclsid riid ppv).2.heap.Live (.ime k) := by
  unfold dllGetClassObject
  split_ifs
  · exact hk
  · exact hk
  · exact live_handOut (inv_constructClassFactory hi) riid ((live_ime_iff hi k).mp hk)

theorem live_createInstance (hi : Inv d [] s) (pUnkOuter : Bool) (riid : InterfaceId) (ppvObj : Bool)
    {k : ℕ} (hk : s.heap.Live (.ime k)) :
    (s.createInstance pUnkOuter riid ppvObj).2.heap.Live (.ime k) := by
  unfold createInstance
  split_ifs
  · exact hk
  · exact hk
  · have hconstructed := inv_constructTCodeIME hi
    have hat := attached_constructTCodeIME hi.accounted hi.shape
    refine live_handOut hconstructed riid (keptBy_mono ?_ (fun p hp => hp) ?_ ((live_ime_iff hi k).mp hk))
    · intro h
      obtain ⟨b, hb⟩ := (pModeButton_isSome_iff hi k).mp h
      exact (pModeButton_isSome_iff hconstructed.gather k).mpr ⟨b, (hat.holdsButton_iff k b).mpr (.inr hb)⟩
    · intro b hb howner
      have hlt := hi.shape.number _ (hi.live_of_held hb).1
      have hne : b ≠ s.next := Nat.ne_of_lt hlt
      refine (pOwner_modeButton hconstructed.gather).mpr ?_
      have howned := hat.owned (.modeButton b)
      simp only [reduceCtorEq, if_false, ComObject.modeButton.injEq, hne] at howned
      change _ ∈ (constructTCodeIME s.next s.heap).owned _
      rw [howned]
      exact (pOwner_modeButton hi).mp howner

theorem addItem_spec (b taken : ℕ) (s : Dll) :
    (∀ o, s.heap.Live o → (s.addItem b taken).heap.Live o) ∧
      ∀ o, o ∈ (s.addItem b taken).held → o = .modeButton b ∨ o ∈ s.held := by
  unfold addItem
  induction taken generalizing s with
  | zero => exact ⟨fun o => id, fun o => .inr⟩
  | succ n ih =>
    obtain ⟨hlive, hheld⟩ := ih (s.addRef (.modeButton b))
    rw [Function.iterate_succ_apply]
    refine ⟨hlive, fun o ho => ?_⟩
    rcases hheld o ho with hnew | hold
    · exact .inl hnew
    · exact Multiset.mem_cons.mp hold

theorem activateEx_spec (hi : Inv d [] s) (k taken : ℕ) :
    (∀ o, s.heap.Live o → (s.activateEx k taken).heap.Live o) ∧
      ∀ n, .candidateList n ∈ (s.activateEx k taken).held → .candidateList n ∈ s.held := by
  have hrecreated : ∀ o, s.heap.Live o →
      (recreateModeButton k { s with pThreadMgr := Function.update s.pThreadMgr k true }).heap.Live o := by
    intro o ho
    unfold recreateModeButton
    split_ifs
    · have hfresh : .modeButton s.next ∉ s.heap.created := hi.shape.not_mem_created rfl
      exact (live_attachModeButton (fun hd => hfresh (hi.accounted.destroyed_created _ hd)) o).mpr (.inr ho)
    · exact ho
  have hheld : (recreateModeButton k { s with pThreadMgr := Function.update s.pThreadMgr k true }).held =
      s.held := by
    unfold recreateModeButton
    split_ifs
    · rfl
    · rfl
  unfold activateEx
  dsimp only
  split
  · next b _ =>
    obtain ⟨hlive, hadded⟩ := addItem_spec b taken
      (recreateModeButton k { s with pThreadMgr := Function.update s.pThreadMgr k true })
    refine ⟨fun o ho => hlive o (hrecreated o ho), fun n hn => ?_⟩
    rcases hadded _ hn with hbutton | hold
    · cases hbutton
    · rwa [hheld] at hold
  · exact ⟨hrecreated, fun n hn => by rwa [hheld] at hn⟩

theorem live_release_modeButton (hi : Inv d [] s) {b k : ℕ} (hb : HoldsButton s.heap k b)
    (hheld : .modeButton b ∈ s.held) {j : ℕ} (hj : s.heap.Live (.ime j)) :
    (s.release (.modeButton b)).heap.Live (.ime j) := by
  have hgiven := live_releaseLocal_iff (hi.give hheld) j
  rw [Multiset.coe_nil, zero_add] at hgiven
  refine hgiven.mpr ?_
  by_cases hk : j = k
  · exact .inl ((pModeButton_isSome_iff hi j).mpr ⟨b, hk ▸ hb⟩)
  · rcases (live_ime_iff hi j).mp hj with hbutton | hime | ⟨o, ho, hbutton, howner⟩
    · exact .inl hbutton
    · exact .inr (.inl ((Multiset.mem_erase_of_ne (by simp)).mpr hime))
    · have hne : o ≠ .modeButton b := by
        rintro rfl
        have hmem := (pOwner_modeButton hi).mp howner
        rw [hb.2, List.mem_singleton, ComObject.ime.injEq] at hmem
        exact hk hmem
      exact .inr (.inr ⟨o, (Multiset.mem_erase_of_ne hne).mpr ho, hbutton, howner⟩)

theorem live_removeItem (hi : Inv d [] s) {b taken k : ℕ} (hb : HoldsButton s.heap k b)
    (htaken : taken ≤ s.held.count (.modeButton b)) :
    (∀ j, s.heap.Live (.ime j) → (s.removeItem b taken).heap.Live (.ime j)) ∧
      ∀ o, o ≠ .modeButton b → (o ∈ (s.removeItem b taken).held ↔ o ∈ s.held) := by
  unfold removeItem
  induction taken generalizing s with
  | zero => exact ⟨fun j => id, fun o _ => Iff.rfl⟩
  | succ n ih =>
    have hmem : .modeButton b ∈ s.held := Multiset.count_pos.mp (by omega)
    have hcount : n ≤ (s.release (.modeButton b)).held.count (.modeButton b) := by
      change n ≤ (s.held.erase _).count _
      rw [Multiset.count_erase_self]
      omega
    have hholds := (holdsButton_release (hi.give hmem).pending).mpr hb
    obtain ⟨hlive, hheld⟩ := ih (hi.release hmem) hholds hcount
    rw [Function.iterate_succ_apply]
    refine ⟨fun j hj => hlive j (live_release_modeButton hi hb hmem hj), fun o ho => ?_⟩
    exact (hheld o ho).trans (Multiset.mem_erase_of_ne ho)

theorem live_dropModeButton (hi : Inv d [] s) {b k : ℕ} (hb : HoldsButton s.heap k b)
    (hk : .ime k ∈ s.held) {j : ℕ} (hj : s.heap.Live (.ime j)) :
    (s.dropModeButton b k).heap.Live (.ime j) := by
  have herase : (s.heap.owned (.ime k)).erase (.modeButton b) = [.candidateList k] := by
    rw [hb.1, List.erase_cons_tail (by simp), List.erase_cons_head]
  have hdrop : Inv d [.modeButton b]
      { s with heap := dropped k s.heap, pThreadMgr := Function.update s.pThreadMgr k false } := by
    refine ⟨?_, hi.shape.dropped⟩
    have ha := accounted_dropped hi.accounted hb
    rwa [Multiset.coe_nil, zero_add] at ha
  have hkept := (live_releaseLocal_iff hdrop j).mpr
  rw [Multiset.coe_nil, zero_add] at hkept
  rw [dropModeButton, herase]
  refine hkept ?_
  by_cases hjk : j = k
  · exact .inr (.inl (hjk ▸ hk))
  · refine keptBy_mono ?_ (fun o ho => ho) ?_ ((live_ime_iff hi j).mp hj)
    · intro h
      obtain ⟨b', hb'⟩ := (pModeButton_isSome_iff hi j).mp h
      exact (pModeButton_isSome_iff hdrop.gather j).mpr ⟨b', holdsButton_dropped.mpr ⟨hjk, hb'⟩⟩
    · intro b' _ howner
      have hother : (dropped k s.heap).owned (.modeButton b') = s.heap.owned (.modeButton b') := by
        simp [dropped, Heap.setOwned]
      refine (pOwner_modeButton hdrop.gather).mpr ?_
      change _ ∈ (dropped k s.heap).owned _
      rw [hother]
      exact (pOwner_modeButton hi).mp howner

theorem deactivate_spec (hi : Inv d [] s) {k taken : ℕ} (hk : .ime k ∈ s.held)
    (htaken : ∀ b ∈ s.pModeButton k, taken ≤ s.held.count (.modeButton b)) :
    (∀ j, s.heap.Live (.ime j) → (s.deactivate k taken).heap.Live (.ime j)) ∧
      ∀ n, .candidateList n ∈ (s.deactivate k taken).held → .candidateList n ∈ s.held := by
  unfold deactivate
  split_ifs with hactive
  · exact ⟨fun j => id, fun n => id⟩
  · rw [Bool.not_eq_false] at hactive
    obtain ⟨b, hb⟩ := hi.shape.active k hactive
    have hsome := hb.pModeButton
    obtain ⟨hinv, hholds, -, -⟩ := inv_removeItem hi (htaken b hsome) hb
    obtain ⟨hlive, hheld⟩ := live_removeItem hi hb (htaken b hsome)
    simp only [hsome]
    refine ⟨fun j hj => ?_, fun n hn => (hheld _ (by simp)).mp hn⟩
    exact live_dropModeButton hinv hholds ((hheld _ (by simp)).mpr hk) (hlive j hj)

theorem ownersLive_step_iff {e : ClientCall} (hi : Inv d [] s) (h : s.OwnersLive) (he : s.Allowed e) :
    (s.step e).OwnersLive ↔ s.keepsOwners e := by
  have hi' : Inv d [] (s.step e) := (inv_step hi he).1
  have hheld (k : ℕ) (hk : .candidateList k ∈ s.held) : s.heap.Live (.candidateList k) := hi.live_of_held hk
  cases e with
  | release o => exact ownersLive_release_iff hi he
  | dllGetClassObject rclsid riid ppv =>
    refine iff_of_true (ownersLive_of_kept hi hi' h ?_ fun k => live_dllGetClassObject hi rclsid riid ppv) trivial
    intro k hk
    apply hheld
    simp only [step, dllGetClassObject] at hk
    split_ifs at hk
    · exact hk
    · exact hk
    · exact (held_queryInterface hk).resolve_left (by simp)
  | createInstance factory pUnkOuter riid ppvObj =>
    refine iff_of_true (ownersLive_of_kept hi hi' h ?_ fun k => live_createInstance hi pUnkOuter riid ppvObj) trivial
    intro k hk
    apply hheld
    simp only [step, createInstance] at hk
    split_ifs at hk
    · exact hk
    · exact hk
    · exact (held_queryInterface hk).resolve_left (by simp)
  | queryInterface o riid ppvObj =>
    refine iff_of_true (ownersLive_of_kept hi hi' h ?_ ?_) trivial
    · intro k hk
      rcases held_queryInterface hk with hnew | hold
      · rw [hnew]
        exact hi.live_of_held he
      · exact hheld k hold
    · intro k hk
      have hstep : s.step (.queryInterface o riid ppvObj) = (s.queryInterface o riid ppvObj).2 := rfl
      rcases queryInterface_cases o riid ppvObj s with hsame | hadded
      · rw [hstep, hsame]
        exact hk
      · rw [hstep, hadded]
        exact hk
  | addRef o =>
    refine iff_of_true (ownersLive_of_kept hi hi' h ?_ fun k hk => hk) trivial
    intro k hk
    rcases Multiset.mem_cons.mp hk with hnew | hold
    · rw [hnew]
      exact he
    · exact hheld k hold
  | lockServer factory fLock =>
    refine iff_of_true (ownersLive_of_kept hi hi' h ?_ ?_) trivial
    · cases fLock with
      | true => exact hheld
      | false => exact hheld
    · cases fLock with
      | true => exact fun k => id
      | false => exact fun k => id
  | activateEx k taken =>
    obtain ⟨hlive, hlist⟩ := activateEx_spec hi k taken
    exact iff_of_true (ownersLive_of_kept hi hi' h (fun n hn => hheld n (hlist n hn)) fun j => hlive _) trivial
  | deactivate k taken =>
    obtain ⟨hlive, hlist⟩ := deactivate_spec hi he.1 he.2
    exact iff_of_true (ownersLive_of_kept hi hi' h (fun n hn => hheld n (hlist n hn)) hlive) trivial

theorem owners_live_iff {es : List ClientCall} (hes : Along step Allowed (loaded d) es) :
    Throughout step OwnersLive (loaded d) es ↔ Along step keepsOwners (loaded d) es := by
  refine throughout_iff_along (I := fun s => Inv d [] s ∧ s.OwnersLive) (fun s hs => hs.2) ?_ ?_
    ⟨inv_loaded d, ?_⟩ hes
  · rintro s e ⟨hi, h⟩ he
    exact ownersLive_step_iff hi h he
  · rintro s e ⟨hi, h⟩ he hok
    exact ⟨(inv_step hi he).1, (ownersLive_step_iff hi h he).mpr hok⟩
  · intro o ho
    exact absurd ho (Multiset.notMem_zero o)

theorem owners_live_hosted : Throughout step OwnersLive (loaded 0)
    [.dllGetClassObject true .iClassFactory true, .createInstance 0 false .iUnknown true, .activateEx 1 1,
      .addRef (.candidateList 1), .deactivate 1 1, .release (.candidateList 1), .release (.ime 1)] :=
  (owners_live_iff (by decide)).mpr (by decide)

/-- The other way round, the list is left with a pointer to an instance that is gone. -/
example : ¬Throughout step OwnersLive (loaded 0)
    [.dllGetClassObject true .iClassFactory true, .createInstance 0 false .iUnknown true, .activateEx 1 1,
      .addRef (.candidateList 1), .deactivate 1 1, .release (.ime 1), .release (.candidateList 1)] := by
  decide

end TCodeIME
