import TCodeIME.OwnerPointers

/-!
The window class of the candidate windows, which stays in the process when the DLL is unloaded.
-/

open ReferenceCounts Runs

namespace TCodeIME

open ComObject

namespace Dll

variable {s : Dll}

theorem weight_nonneg (o : ComObject) : 0 ≤ weight o := by
  cases o with
  | modeButton n => exact Int.le_refl 0
  | _ => exact Int.one_nonneg

theorem dllCanUnloadNow_iff_dead (hi : Inv 0 [] s) :
    s.dllCanUnloadNow = .S_OK ↔ s.locks = 0 ∧ ∀ o, ¬s.heap.Live o := by
  have hzero := hi.accounted.moduleCount_eq_zero_iff weight_nonneg (by omega)
  have hanswer : s.dllCanUnloadNow = .S_OK ↔ s.heap.moduleCount = 0 := by
    rw [dllCanUnloadNow, cRefDll]
    split_ifs with h
    · exact iff_of_true rfl h
    · exact iff_of_false (by simp) h
  rw [hanswer, hzero, zero_add, Nat.cast_eq_zero]
  refine and_congr_right fun _ => ⟨fun h o ho => ?_, fun h o ho => absurd ho (h o)⟩
  cases o with
  | modeButton b =>
    obtain ⟨k, hk⟩ := hi.shape.modeButton b ho
    have hmem : .ime k ∈ s.heap.owned (.modeButton b) := by simp [hk]
    have hime := live_of_pOwner hi ((pOwner_modeButton hi).mpr hmem)
    exact absurd (h _ hime) (by simp [weight])
  | _ => exact absurd (h _ ho) (by simp [weight])

theorem dead_iff (hi : Inv 0 [] s) :
    (∀ o, ¬s.heap.Live o) ↔ s.held = 0 ∧ ∀ k, s.pModeButton k = none := by
  constructor
  · intro hdead
    refine ⟨Multiset.eq_zero_of_forall_notMem fun o ho => hdead o (hi.live_of_held ho), fun k => ?_⟩
    by_contra hne
    exact hdead (.ime k) ((live_ime_iff hi k).mpr (.inl (Option.isSome_iff_ne_none.mpr hne)))
  · rintro ⟨hheld, hbutton⟩
    have hime (k : ℕ) : ¬s.heap.Live (.ime k) := by
      rw [live_ime_iff hi k, KeptBy, hheld, hbutton k]
      simp
    intro o ho
    obtain ⟨p, hp⟩ := owned_of_live hi ho (by simp [hheld])
    have hlive := hi.accounted.owned_live p (List.ne_nil_of_mem hp)
    rcases owner_cases hi hp with ⟨k, rfl, -⟩ | ⟨b, k, rfl, rfl⟩
    · exact hime k hlive
    · exact hime k ho

/-! No call takes an object out of those that were created. -/

theorem created_release (h : Heap ComObject) (l : List ComObject) :
    (h.release weight l).created = h.created := drain_created weight _ h l

theorem created_iterate {f : Dll → Dll} (hf : ∀ s, (f s).heap.created = s.heap.created) (n : ℕ) (s : Dll) :
    (f^[n] s).heap.created = s.heap.created := by
  induction n generalizing s with
  | zero => rfl
  | succ n ih => exact (ih (f s)).trans (hf s)

theorem created_queryInterface (o : ComObject) (riid : InterfaceId) (ppvObj : Bool) (s : Dll) :
    (s.queryInterface o riid ppvObj).2.heap.created = s.heap.created := by
  rcases queryInterface_cases o riid ppvObj s with h | h
  · rw [h]
  · rw [h]
    rfl

theorem created_attachModeButton {o : ComObject} {h : Heap ComObject} (ho : o ∈ h.created) (b k : ℕ) :
    o ∈ (attachModeButton b k h).created := Finset.mem_insert_of_mem ho

theorem created_constructTCodeIME {o : ComObject} {h : Heap ComObject} (ho : o ∈ h.created) (n : ℕ) :
    o ∈ (constructTCodeIME n h).created := by
  apply Finset.mem_insert_of_mem
  apply created_attachModeButton
  exact Finset.mem_insert_of_mem ho

theorem created_recreateModeButton {o : ComObject} (ho : o ∈ s.heap.created) (k : ℕ) :
    o ∈ (recreateModeButton k s).heap.created := by
  unfold recreateModeButton
  split_ifs
  · exact created_attachModeButton ho _ _
  · exact ho

theorem created_activateEx {o : ComObject} (ho : o ∈ s.heap.created) (k taken : ℕ) :
    o ∈ (s.activateEx k taken).heap.created := by
  have hcreated := created_recreateModeButton
    (s := { s with pThreadMgr := Function.update s.pThreadMgr k true }) ho k
  unfold activateEx
  dsimp only
  split
  · next b _ =>
    rw [addItem, created_iterate (f := addRef (.modeButton b)) fun _ => rfl]
    exact hcreated
  · exact hcreated

theorem created_deactivate (k taken : ℕ) (s : Dll) :
    (s.deactivate k taken).heap.created = s.heap.created := by
  unfold deactivate
  split_ifs
  · rfl
  · dsimp only
    split
    · rw [dropModeButton, releaseLocal]
      dsimp only
      rw [created_release]
      exact created_iterate (fun t => created_release t.heap _) taken s
    · rfl

theorem created_step {o : ComObject} (ho : o ∈ s.heap.created) (e : ClientCall) :
    o ∈ (s.step e).heap.created := by
  cases e with
  | dllGetClassObject rclsid riid ppv =>
    simp only [step, dllGetClassObject]
    split_ifs
    · exact ho
    · exact ho
    · rw [releaseLocal, created_release, created_queryInterface]
      exact Finset.mem_insert_of_mem ho
  | createInstance factory pUnkOuter riid ppvObj =>
    simp only [step, createInstance]
    split_ifs
    · exact ho
    · exact ho
    · rw [releaseLocal, created_release, created_queryInterface]
      exact created_constructTCodeIME ho _
  | queryInterface o' riid ppvObj => exact (created_queryInterface o' riid ppvObj s) ▸ ho
  | addRef o' => exact ho
  | release o' => exact (created_release s.heap [o']) ▸ ho
  | lockServer factory fLock =>
    cases fLock with
    | true => exact ho
    | false => exact ho
  | activateEx k taken => exact created_activateEx ho k taken
  | deactivate k taken => exact (created_deactivate k taken s) ▸ ho

theorem can_unload_iff {es : List ClientCall} (hes : Along step Allowed (loaded 0) es) :
    (run step (loaded 0) es).dllCanUnloadNow = .S_OK ↔
      (run step (loaded 0) es).locks = 0 ∧ (run step (loaded 0) es).held = 0 ∧
        ∀ k, (run step (loaded 0) es).pModeButton k = none := by
  have hi : Inv 0 [] (run step (loaded 0) es) :=
    run_of_step (I := Inv 0 []) (fun s e hi he => (inv_step hi he).1) (inv_loaded 0) hes
  rw [dllCanUnloadNow_iff_dead hi, dead_iff hi]

theorem can_unload_barred :
    let es : List ClientCall := [.dllGetClassObject true .iClassFactory true, .createInstance 0 false .iUnknown true,
      .activateEx 1 2, .deactivate 1 1, .release (.ime 1), .release (.classFactory 0)]
    (run step (loaded 0) es).dllCanUnloadNow = .S_OK ↔
      (run step (loaded 0) es).locks = 0 ∧ (run step (loaded 0) es).held = 0 ∧
        ∀ k, (run step (loaded 0) es).pModeButton k = none :=
  can_unload_iff (by decide)

end Dll

/-- A process that loads the DLL. The class is the executable's and keeps the procedure of the image that registered
it, for which its base stands here, as it does for the procedures of the lists' windows. -/
structure Host where
  hModule : Option ℕ := none
  dll : Dll := .loaded 0
  g_bClassRegistered : Bool := false
  wndClass : Option ℕ := none
  hCandidateWnd : ℕ → Option ℕ := fun _ => none
  stranded : Multiset ComObject := 0

inductive HostEvent where
  | loadLibrary (base : ℕ)
  | freeUnusedLibraries
  | call (e : ClientCall) (registered : Bool)
  | showUI (n : ℕ) (created : Bool)
  | ownerDestroyed (n : ℕ)

namespace Host

/-- In the constructor of the list. There is only one class of a name. -/
def registerClass (ok : Bool) (h : Host) : Host :=
  if h.g_bClassRegistered then h
  else if ok ∧ h.wndClass = none then { h with wndClass := h.hModule, g_bClassRegistered := true }
  else h

/-- What the destructors of the lists do. They leave the class. -/
def destroyWindows (h : Host) : Host :=
  { h with hCandidateWnd := fun n =>
      if .candidateList n ∈ h.dll.heap.destroyed then none else h.hCandidateWnd n }

def call (e : ClientCall) (registered : Bool) (h : Host) : Host :=
  let h := if e.constructs then h.registerClass registered else h
  destroyWindows { h with dll := h.dll.step e }

def createCandidateWindow (n : ℕ) (ok : Bool) (h : Host) : Host :=
  { h with hCandidateWnd := Function.update h.hCandidateWnd n (if ok then h.wndClass else none) }

def showUI (n : ℕ) (created : Bool) (h : Host) : Host :=
  if h.hCandidateWnd n = none then h.createCandidateWindow n created else h

/-- `CoFreeUnusedLibraries` unloads the DLL if it agrees. Its next image starts with statics of its own. -/
def freeUnusedLibraries (h : Host) : Host :=
  if h.dll.dllCanUnloadNow = .S_OK then
    { h with
      hModule := none
      dll := .loaded 0
      g_bClassRegistered := false
      stranded := h.stranded + h.dll.held }
  else h

def step (h : Host) : HostEvent → Host
  | .loadLibrary base => { h with hModule := some base }
  | .freeUnusedLibraries => h.freeUnusedLibraries
  | .call e registered => h.call e registered
  | .showUI n created => h.showUI n created
  | .ownerDestroyed n => { h with hCandidateWnd := Function.update h.hCandidateWnd n none }

def Allowed (h : Host) : HostEvent → Prop
  | .loadLibrary _ => h.hModule = none
  | .freeUnusedLibraries => h.hModule ≠ none
  | .call e _ => h.hModule ≠ none ∧ h.dll.Allowed e
  | .showUI n _ => h.dll.heap.Live (.candidateList n)
  | .ownerDestroyed _ => True

structure Sound (h : Host) : Prop where
  stranded : h.stranded = 0
  window : ∀ n b, h.hCandidateWnd n = some b → h.dll.heap.Live (.candidateList n) ∧ h.hModule = some b

def createsLoaded (h : Host) : HostEvent → Prop
  | .showUI n created =>
    h.hCandidateWnd n = none → created = true → ∀ b ∈ h.wndClass, h.hModule = some b
  | _ => True

instance (h : Host) : ∀ e, Decidable (h.Allowed e)
  | .loadLibrary _ => inferInstanceAs (Decidable (h.hModule = none))
  | .freeUnusedLibraries => inferInstanceAs (Decidable (h.hModule ≠ none))
  | .call e _ => inferInstanceAs (Decidable (h.hModule ≠ none ∧ h.dll.Allowed e))
  | .showUI n _ => inferInstanceAs (Decidable (h.dll.heap.Live (.candidateList n)))
  | .ownerDestroyed _ => isTrue trivial

instance (h : Host) : ∀ e, Decidable (h.createsLoaded e)
  | .showUI n created =>
    inferInstanceAs (Decidable
      (h.hCandidateWnd n = none → created = true → ∀ b ∈ h.wndClass, h.hModule = some b))
  | .loadLibrary _ | .freeUnusedLibraries | .call _ _ | .ownerDestroyed _ => isTrue trivial

variable {h : Host}

theorem registerClass_fields (ok : Bool) (h : Host) :
    (h.registerClass ok).hModule = h.hModule ∧ (h.registerClass ok).dll = h.dll ∧
      (h.registerClass ok).hCandidateWnd = h.hCandidateWnd ∧ (h.registerClass ok).stranded = h.stranded := by
  unfold registerClass
  split_ifs
  · exact ⟨rfl, rfl, rfl, rfl⟩
  · exact ⟨rfl, rfl, rfl, rfl⟩
  · exact ⟨rfl, rfl, rfl, rfl⟩

theorem call_fields (e : ClientCall) (registered : Bool) (h : Host) :
    (h.call e registered).hModule = h.hModule ∧ (h.call e registered).dll = h.dll.step e ∧
      (h.call e registered).stranded = h.stranded ∧
      ∀ n, (h.call e registered).hCandidateWnd n =
        if .candidateList n ∈ (h.dll.step e).heap.destroyed then none else h.hCandidateWnd n := by
  obtain ⟨hModule, hdll, hwindow, hstranded⟩ := registerClass_fields registered h
  unfold call destroyWindows
  split_ifs
  · refine ⟨hModule, congrArg (·.step e) hdll, hstranded, fun n => ?_⟩
    dsimp only
    rw [hdll, hwindow]
  · exact ⟨rfl, rfl, rfl, fun n => rfl⟩

theorem sound_call (hs : h.Sound) (e : ClientCall) (registered : Bool) : (h.call e registered).Sound := by
  obtain ⟨hModule, hdll, hstranded, hwindow⟩ := call_fields e registered h
  refine ⟨hstranded.trans hs.stranded, fun n b hn => ?_⟩
  rw [hwindow] at hn
  rw [hModule, hdll]
  split_ifs at hn with hdestroyed
  obtain ⟨hlive, hloaded⟩ := hs.window n b hn
  exact ⟨⟨Dll.created_step hlive.1 e, hdestroyed⟩, hloaded⟩

theorem sound_freeUnusedLibraries (hi : Inv 0 [] h.dll) (hs : h.Sound) : h.freeUnusedLibraries.Sound := by
  unfold freeUnusedLibraries
  split_ifs with hanswer
  · obtain ⟨-, hdead⟩ := (Dll.dllCanUnloadNow_iff_dead hi).mp hanswer
    obtain ⟨hheld, -⟩ := (Dll.dead_iff hi).mp hdead
    refine ⟨?_, fun n b hn => ?_⟩
    · dsimp only
      rw [hheld, hs.stranded]
      rfl
    · exact absurd (hs.window n b hn).1 (hdead _)
  · exact hs

theorem sound_showUI_iff (hs : h.Sound) {n : ℕ} (hn : h.dll.heap.Live (.candidateList n)) (created : Bool) :
    (h.showUI n created).Sound ↔ h.createsLoaded (.showUI n created) := by
  unfold showUI
  split_ifs with hnone
  · constructor
    · intro hsound _ hcreated b hb
      refine (hsound.window n b ?_).2
      rw [createCandidateWindow]
      dsimp only
      rw [Function.update_self, if_pos hcreated]
      exact hb
    · intro hloaded
      refine ⟨hs.stranded, fun m b hm => ?_⟩
      by_cases hmn : m = n
      · subst hmn
        rw [createCandidateWindow] at hm
        dsimp only at hm
        rw [Function.update_self] at hm
        split_ifs at hm with hcreated
        exact ⟨hn, hloaded hnone hcreated b hm⟩
      · rw [createCandidateWindow] at hm
        dsimp only at hm
        rw [Function.update_of_ne hmn] at hm
        exact hs.window m b hm
  · exact iff_of_true hs fun h => absurd h hnone

theorem inv_step {e : HostEvent} (hi : Inv 0 [] h.dll) (he : h.Allowed e) : Inv 0 [] (h.step e).dll := by
  cases e with
  | call e registered =>
    have hdll := (call_fields e registered h).2.1
    change Inv 0 [] (h.call e registered).dll
    rw [hdll]
    exact (TCodeIME.inv_step hi he.2).1
  | freeUnusedLibraries =>
    change Inv 0 [] h.freeUnusedLibraries.dll
    unfold freeUnusedLibraries
    split_ifs
    · exact inv_loaded 0
    · exact hi
  | showUI n created =>
    change Inv 0 [] (h.showUI n created).dll
    unfold showUI
    split_ifs
    · exact hi
    · exact hi
  | loadLibrary base => exact hi
  | ownerDestroyed n => exact hi

theorem sound_step_iff {e : HostEvent} (hi : Inv 0 [] h.dll) (hs : h.Sound) (he : h.Allowed e) :
    (h.step e).Sound ↔ h.createsLoaded e := by
  cases e with
  | showUI n created => exact sound_showUI_iff hs he created
  | call e registered => exact iff_of_true (sound_call hs e registered) trivial
  | freeUnusedLibraries => exact iff_of_true (sound_freeUnusedLibraries hi hs) trivial
  | loadLibrary base =>
    refine iff_of_true ⟨hs.stranded, fun n b hn => ?_⟩ trivial
    have hloaded := (hs.window n b hn).2
    rw [he] at hloaded
    cases hloaded
  | ownerDestroyed n =>
    refine iff_of_true ⟨hs.stranded, fun m b hm => ?_⟩ trivial
    by_cases hmn : m = n
    · subst hmn
      simp [step] at hm
    · simp only [step, Function.update_of_ne hmn] at hm
      exact hs.window m b hm

theorem windows_sound_iff {es : List HostEvent} (hes : Along step Allowed {} es) :
    Throughout step Sound {} es ↔ Along step createsLoaded {} es := by
  refine throughout_iff_along (I := fun h => Inv 0 [] h.dll ∧ h.Sound) (fun h hh => hh.2) ?_ ?_
    ⟨inv_loaded 0, rfl, fun n b hn => ?_⟩ hes
  · rintro h e ⟨hi, hs⟩ he
    exact sound_step_iff hi hs he
  · rintro h e ⟨hi, hs⟩ he hok
    exact ⟨inv_step hi he, (sound_step_iff hi hs he).mpr hok⟩
  · cases hn

def shownAt (base : ℕ) : List HostEvent :=
  [.loadLibrary base, .call (.dllGetClassObject true .iClassFactory true) true,
    .call (.createInstance 0 false .iUnknown true) true, .call (.activateEx 1 1) true, .showUI 1 true,
    .call (.deactivate 1 1) true, .call (.release (.ime 1)) true, .call (.release (.classFactory 0)) true,
    .freeUnusedLibraries]

theorem windows_sound_reloaded : Throughout step Sound {} (shownAt 1 ++ shownAt 1) :=
  (windows_sound_iff (by decide)).mpr (by decide)

/-- It comes back elsewhere, and the class still has the old procedure. -/
example : ¬Along step createsLoaded {} (shownAt 1 ++ shownAt 2) := by
  decide

end Host

end TCodeIME
