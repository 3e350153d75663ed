import TCodeIME.CompositionState

/-!
What is left of a stroke when the input mode becomes direct.
-/

namespace TCodeIME

/-- A conversion mode that `GetInputMode` reads as direct. -/
def isAlphanumeric (val : Option UInt32) : Bool :=
  val.all fun v => v &&& TF_CONVERSIONMODE_NATIVE == 0

def BufferStatusResponse.isEmptyStatus (r : BufferStatusResponse) : Bool :=
  r.isOutputBufferEmpty && r.isBufferEmpty && r.isLastKeyEmpty && r.candidates.isEmpty

theorem Compartments.getInputMode_write (c : Compartments) (val : Option UInt32) :
    (c.write .conversion val).getInputMode {} true = if isAlphanumeric val then .direct else .tcode := by
  unfold getInputMode write isAlphanumeric
  cases val with
  | none => rfl
  | some v => by_cases hv : v &&& TF_CONVERSIONMODE_NATIVE = 0 <;> simp [hv]

variable {E : Type}

namespace CTCodeIME

def isIdle (s : CTCodeIME E) : Prop :=
  s.text.pComposition = none ∧ s.client.lastResponse.isBufferEmpty = true ∧
    s.client.lastResponse.candidates = [] ∧
    (s.client.exchanges ≠ [] → s.client.lastResponse.isLastKeyEmpty = true)

def isQuiescent (s : CTCodeIME E) : Prop :=
  s.isIdle ∧ s.candidateUI.elementId = TF_INVALID_UIELEMENTID ∧ s.candidateUI.openElements = []

def directIsQuiescent (s : CTCodeIME E) : Prop := s.getInputMode {} = .direct → s.isQuiescent

def callsSucceed (srv : Server E) (s : CTCodeIME E) : Event → Prop
  | .keyDown o pic wParam keys =>
    let k := s.keystroke o.compartment wParam keys
    s.succeeds srv (.keyDown o pic wParam keys) ∧ o.compartment = {} ∧ o.ui.succeed = true ∧
      (k = .toDirect → (s.response srv k).isEmptyStatus = true)
  | .click o => o = {}
  | .activate o => o.compartment = {}
  | .deactivate o => o.succeed = true
  | _ => True

def findsQuiescent (s : CTCodeIME E) : Event → Prop
  | .click _ => s.getInputMode {} = .tcode → s.isQuiescent
  | .change .conversion val => s.getInputMode {} = .tcode → isAlphanumeric val = true → s.isQuiescent
  | .activate _ => s.getInputMode {} = .tcode → s.isQuiescent
  | .deactivate _ => s.getInputMode {} = .tcode → s.isIdle
  | _ => True

instance (s : CTCodeIME E) : Decidable s.isIdle := inferInstanceAs (Decidable (_ ∧ _ ∧ _ ∧ (_ → _)))

instance (s : CTCodeIME E) : Decidable s.isQuiescent := inferInstanceAs (Decidable (_ ∧ _ ∧ _))

instance (s : CTCodeIME E) : Decidable s.directIsQuiescent := inferInstanceAs (Decidable (_ → _))

instance (srv : Server E) (s : CTCodeIME E) (e : Event) : Decidable (s.callsSucceed srv e) :=
  match e with
  | .keyDown _ _ _ _ => inferInstanceAs (Decidable (_ ∧ _ ∧ _ ∧ (_ → _)))
  | .click _ | .activate _ | .deactivate _ => inferInstanceAs (Decidable (_ = _))
  | .change _ _ | .terminated | .edited _ _ _ | .selected _ _ => isTrue trivial

instance (s : CTCodeIME E) (e : Event) : Decidable (s.findsQuiescent e) :=
  match e with
  | .change .conversion _ => inferInstanceAs (Decidable (_ → _ → _))
  | .click _ | .activate _ | .deactivate _ => inferInstanceAs (Decidable (_ → _))
  | .keyDown _ _ _ _ | .change .openClose _ | .terminated | .edited _ _ _ | .selected _ _ => isTrue trivial

theorem enter_compartments (o : CompartmentOutcomes) (mode : Option InputMode) (s : CTCodeIME E) :
    (s.enter o mode).compartments =
      mode.elim s.compartments (s.compartments.setInputMode o s.pThreadMgr) := by
  cases mode <;> rfl

theorem onKeyDown_of_callsSucceed {srv : Server E} {o : KeyOutcomes} {pic : ContextId} {wParam : ℕ}
    {keys : Modifiers} {s : CTCodeIME E} (h : s.callsSucceed srv (.keyDown o pic wParam keys)) :
    let k := s.keystroke {} wParam keys
    let s' := (s.onKeyDown srv o pic wParam keys).ime
    s'.pThreadMgr = s.pThreadMgr ∧
      s'.compartments = k.mode.elim s.compartments (s.compartments.setInputMode {} s.pThreadMgr) ∧
      updateUI o.ui s.pThreadMgr (s.response srv k).candidates
        (k.selectedIndex s.client.lastResponse.candidates.length s.selectedIndex) s.candidateUI
        k.list = some s'.candidateUI := by
  obtain ⟨hsucceeds, hcompartment, -, -⟩ := h
  obtain ⟨-, -, hu, hthread, hcompartments⟩ :=
    onKeyDown_returned srv o pic wParam keys s (onKeyDown_of_succeeds hsucceeds).1
  rw [hcompartment] at hu hcompartments
  exact ⟨hthread, hcompartments.trans (enter_compartments _ _ s), hu⟩

theorem updateUI_tracks {o : UIOutcomes} (ho : o.succeed = true) {pThreadMgr : Bool}
    {candidates : List Str} {selectedIndex : Int32} {u u' : CandidateElement} {list : ListUpdate}
    (hu : u.tracks) (h : updateUI o pThreadMgr candidates selectedIndex u list = some u') :
    u'.tracks := by
  cases list with
  | none =>
    cases h
    exact hu
  | sync => exact CandidateElement.syncCandidateList_tracks ho hu h
  | hide =>
    exact CandidateElement.hideCandidateList_tracks (UIOutcomes.queryElementMgr_of_succeed ho) hu h

theorem isQuiescent_of_toDirect {srv : Server E} {o : KeyOutcomes} {pic : ContextId} {wParam : ℕ}
    {keys : Modifiers} {s : CTCodeIME E} (hu : s.candidateUI.tracks)
    (h : s.callsSucceed srv (.keyDown o pic wParam keys))
    (hk : s.keystroke o.compartment wParam keys = .toDirect) :
    (s.onKeyDown srv o pic wParam keys).ime.isQuiescent := by
  have hcalls := onKeyDown_of_callsSucceed h
  obtain ⟨hsucceeds, hcompartment, hui, hreset⟩ := h
  have hcomposing := (onKeyDown_of_succeeds hsucceeds).2
  have hr := hreset hk
  rw [hk] at hcomposing hr
  rw [hcompartment] at hk
  rw [hk] at hcalls
  simp only [BufferStatusResponse.isEmptyStatus, Bool.and_eq_true, List.isEmpty_iff] at hr
  have hquery := UIOutcomes.queryElementMgr_of_succeed hui
  have hlast := onKeyDown_lastResponse srv o pic wParam keys s
  rw [hcompartment, hk] at hlast
  refine ⟨⟨?_, ?_, ?_, ?_⟩, CandidateElement.hideCandidateList_closes hquery hu hcalls.2.2⟩
  · have hnone : (s.onKeyDown srv o pic wParam keys).ime.text.pComposition.isSome = false := by
      rw [hcomposing]
      cases hc : s.text.pComposition.isSome <;> simp [requestedSession, Keystroke.session, hc]
    simpa using hnone
  · rw [hlast]
    exact hr.1.1.2
  · rw [hlast]
    exact hr.2
  · rw [hlast]
    exact fun _ => hr.1.2

theorem directIsQuiescent_of_toTcode {s : CTCodeIME E} (hs : s.directIsQuiescent) :
    (s.enter {} (some .tcode)).directIsQuiescent := by
  intro hdirect
  cases hp : s.pThreadMgr with
  | false =>
    have hmode : s.getInputMode {} = .direct := by
      rw [getInputMode, hp]
      exact Compartments.getInputMode_of_inactive {} s.compartments
    exact hs hmode
  | true =>
    rw [getInputMode, enter_pThreadMgr, enter_compartments, hp, Option.elim,
      Compartments.getInputMode_setInputMode rfl rfl rfl] at hdirect
    cases hdirect

theorem directIsQuiescent_onKeyDown {srv : Server E} {o : KeyOutcomes} {pic : ContextId} {wParam : ℕ}
    {keys : Modifiers} {s : CTCodeIME E} (hu : s.candidateUI.tracks) (hs : s.directIsQuiescent)
    (h : s.callsSucceed srv (.keyDown o pic wParam keys)) :
    (s.onKeyDown srv o pic wParam keys).ime.directIsQuiescent := by
  have hadmits := keystroke_admits o.compartment wParam keys s
  obtain ⟨hthread, hcompartments, -⟩ := onKeyDown_of_callsSucceed h
  have hcompartment := h.2.1
  cases hk : s.keystroke o.compartment wParam keys with
  | toDirect => exact fun _ => isQuiescent_of_toDirect hu h hk
  | passed =>
    rw [onKeyDown_of_passed srv pic hk]
    exact hs
  | toTcode =>
    rw [onKeyDown_of_toTcode srv pic hk, hcompartment]
    exact directIsQuiescent_of_toTcode hs
  | _ =>
    -- every other key is one of T-Code mode and leaves the mode alone
    intro hdirect
    rw [hcompartment] at hk hadmits
    rw [hk] at hcompartments hadmits
    have hmode : s.getInputMode {} = .tcode := by first | exact hadmits | exact hadmits.1
    rw [getInputMode, hthread, hcompartments] at hdirect
    have hsame : s.getInputMode {} = .direct := hdirect
    rw [hmode] at hsame
    cases hsame

def listCallsSucceed (srv : Server E) (s : CTCodeIME E) : Event → Prop
  | .keyDown o pic wParam keys => s.succeeds srv (.keyDown o pic wParam keys) ∧ o.ui.succeed = true
  | .deactivate o => o.succeed = true
  | _ => True

instance (srv : Server E) (s : CTCodeIME E) (e : Event) : Decidable (s.listCallsSucceed srv e) :=
  match e with
  | .keyDown _ _ _ _ => inferInstanceAs (Decidable (_ ∧ _))
  | .deactivate _ => inferInstanceAs (Decidable (_ = _))
  | .click _ | .change _ _ | .terminated | .activate _ | .edited _ _ _ | .selected _ _ => isTrue trivial

theorem listCallsSucceed_of_callsSucceed {srv : Server E} {s : CTCodeIME E} {e : Event}
    (h : s.callsSucceed srv e) : s.listCallsSucceed srv e := by
  cases e with
  | keyDown o pic wParam keys => exact ⟨h.1, h.2.2.1⟩
  | deactivate o => exact h
  | _ => trivial

theorem step_deactivate_of_inactive {srv : Server E} {o : UIOutcomes} {s : CTCodeIME E}
    (hp : s.pThreadMgr = false) : s.step srv (.deactivate o) = s := by
  simp [step, deactivate, hp]

theorem step_deactivate_closes {srv : Server E} {o : UIOutcomes} {s : CTCodeIME E}
    (hp : s.pThreadMgr = true) (hu : s.candidateUI.tracks) (ho : o.succeed = true) :
    ∃ u : CandidateElement, (u.elementId = TF_INVALID_UIELEMENTID ∧ u.openElements = []) ∧
      s.step srv (.deactivate o) =
        { s with candidateUI := u, pModeButton := none, pThreadMgr := false } := by
  obtain ⟨u, hhide⟩ :=
    Option.isSome_iff_exists.mp (CandidateElement.hideCandidateList_isSome o s.candidateUI)
  have hquery := UIOutcomes.queryElementMgr_of_succeed ho
  refine ⟨u, CandidateElement.hideCandidateList_closes hquery hu hhide, ?_⟩
  simp [step, deactivate, hideCandidateList, hp, hhide]

theorem tracks_step {srv : Server E} {s : CTCodeIME E} {e : Event} (hu : s.candidateUI.tracks)
    (h : s.listCallsSucceed srv e) : (s.step srv e).candidateUI.tracks := by
  have same (hkey : e.isKeyDown = false) (hd : ∀ o, e ≠ .deactivate o) :
      (s.step srv e).candidateUI.tracks := by
    rw [step_candidateUI hkey hd]
    exact hu
  cases e with
  | keyDown o pic wParam keys =>
    have hexit := (onKeyDown_of_succeeds h.1).1
    exact updateUI_tracks h.2 hu (onKeyDown_returned srv o pic wParam keys s hexit).2.2.1
  | deactivate o =>
    cases hp : s.pThreadMgr with
    | false =>
      rw [step_deactivate_of_inactive hp]
      exact hu
    | true =>
      obtain ⟨u, ⟨hid, hopen⟩, hstep⟩ := step_deactivate_closes hp hu h
      rw [hstep]
      change u.openElements = _
      rw [if_pos hid, hopen]
  | _ => exact same rfl (by simp)

theorem directIsQuiescent_of_same {s s' : CTCodeIME E} (hs : s.directIsQuiescent)
    (ht : s'.text.pComposition = s.text.pComposition) (hc : s'.client = s.client)
    (hu : s'.candidateUI = s.candidateUI) :
    s'.directIsQuiescent ↔
      (s.getInputMode {} = .tcode → s'.getInputMode {} = .direct → s.isQuiescent) := by
  have hsame : s'.isQuiescent ↔ s.isQuiescent := by
    rw [isQuiescent, isQuiescent, isIdle, isIdle, ht, hc, hu]
  rw [directIsQuiescent, hsame]
  constructor
  · exact fun h _ => h
  · intro h hdirect
    cases hm : s.getInputMode {} with
    | direct => exact hs hm
    | tcode => exact h hm hdirect

theorem directIsQuiescent_deactivate {srv : Server E} {o : UIOutcomes} {s : CTCodeIME E}
    (hu : s.candidateUI.tracks) (hs : s.directIsQuiescent) (ho : o.succeed = true) :
    (s.step srv (.deactivate o)).directIsQuiescent ↔ s.findsQuiescent (.deactivate o) := by
  cases hp : s.pThreadMgr with
  | false =>
    rw [step_deactivate_of_inactive hp]
    refine iff_of_true hs fun hmode => ?_
    have hthread := Compartments.getInputMode_tcode hmode
    rw [hp] at hthread
    cases hthread
  | true =>
    obtain ⟨u, hclosed, hstep⟩ := step_deactivate_closes hp hu ho
    have hdirect : (s.step srv (.deactivate o)).getInputMode {} = .direct := by
      rw [hstep]
      exact Compartments.getInputMode_of_inactive {} s.compartments
    have hidle : (s.step srv (.deactivate o)).isQuiescent ↔ s.isIdle := by
      rw [hstep]
      exact and_iff_left hclosed
    constructor
    · exact fun h _ => hidle.mp (h hdirect)
    · intro h _
      cases hm : s.getInputMode {} with
      | direct => exact hidle.mpr (hs hm).1
      | tcode => exact hidle.mpr (h hm)

theorem directIsQuiescent_step {srv : Server E} {s : CTCodeIME E} {e : Event}
    (hs : s.candidateUI.tracks ∧ s.directIsQuiescent) (h : s.callsSucceed srv e) :
    (s.step srv e).directIsQuiescent ↔ s.findsQuiescent e := by
  obtain ⟨hu, hs⟩ := hs
  cases e with
  | keyDown o pic wParam keys => exact iff_of_true (directIsQuiescent_onKeyDown hu hs h) trivial
  | click o =>
    have ho : o = {} := h
    subst ho
    rw [directIsQuiescent_of_same hs (step_pComposition rfl (by simp)) (step_client rfl)
      (step_candidateUI rfl (by simp)), findsQuiescent]
    refine imp_congr_right fun hmode => ?_
    have hthread := Compartments.getInputMode_tcode hmode
    have hdirect : (s.step srv (.click {})).getInputMode {} = .direct := by
      simp only [step, onClick, toggleInputMode, hmode]
      simp only [updateIcon, setInputMode, getInputMode, hthread]
      exact Compartments.getInputMode_setInputMode rfl rfl rfl .direct s.compartments
    exact ⟨fun h => h hdirect, fun h _ => h⟩
  | change guid val =>
    rw [directIsQuiescent_of_same hs (step_pComposition rfl (by simp)) (step_client rfl)
      (step_candidateUI rfl (by simp))]
    cases guid with
    | openClose =>
      refine iff_of_true ?_ trivial
      intro hmode hdirect
      have hsame : s.getInputMode {} = .direct := hdirect
      rw [hmode] at hsame
      cases hsame
    | conversion =>
      rw [findsQuiescent]
      refine imp_congr_right fun hmode => imp_congr_left ?_
      have hthread := Compartments.getInputMode_tcode hmode
      have hwrite := s.compartments.getInputMode_write val
      change (s.compartments.write .conversion val).getInputMode {} s.pThreadMgr = .direct ↔ _
      rw [hthread, hwrite]
      cases isAlphanumeric val <;> simp
  | activate o =>
    have ho : o.compartment = {} := h
    rw [directIsQuiescent_of_same hs (step_pComposition rfl (by simp)) (step_client rfl) rfl,
      findsQuiescent]
    refine imp_congr_right fun hmode => ?_
    have hdirect : (s.step srv (.activate o)).getInputMode {} = .direct := by
      simp only [step, activateEx, setInputMode, getInputMode, ho]
      exact Compartments.getInputMode_setInputMode rfl rfl rfl .direct s.compartments
    exact ⟨fun h => h hdirect, fun h _ => h⟩
  | deactivate o => exact directIsQuiescent_deactivate hu hs h
  | terminated =>
    refine iff_of_true ?_ trivial
    intro hdirect
    obtain ⟨⟨-, hstatus⟩, hclosed⟩ := hs hdirect
    exact ⟨⟨TextServices.terminate_pComposition s.text, hstatus⟩, hclosed⟩
  | edited c r text => exact iff_of_true hs trivial
  | selected c r => exact iff_of_true hs trivial

theorem direct_mode_quiescent_iff (srv : Server E) (engine : E)
    (contexts : ContextId → MarkedText WChar CompositionId) (hmarks : ∀ c i, (contexts c).marks i = none)
    (compartments : Compartments) (es : List Event)
    (hsucceed : Runs.Along (step srv) (callsSucceed srv)
      (construct engine contexts hmarks compartments) es) :
    Runs.Throughout (step srv) directIsQuiescent (construct engine contexts hmarks compartments) es ↔
      Runs.Along (step srv) findsQuiescent (construct engine contexts hmarks compartments) es :=
  Runs.throughout_iff_along (fun _ hs => hs.2) (fun _ _ hs h => directIsQuiescent_step hs h)
    (fun _ _ hs h hfinds => ⟨tracks_step hs.1 (listCallsSucceed_of_callsSucceed h), (directIsQuiescent_step hs h).mpr hfinds⟩)
    ⟨rfl, fun _ => ⟨⟨rfl, rfl, rfl, fun h => absurd rfl h⟩, rfl, rfl⟩⟩ hsucceed

theorem direct_mode_quiescent_after_ctrlSlash :
    let srv := Server.scripted [.status ⟨[], [], [], "Some(j)".toList, true⟩,
      .status ⟨[], [], [], "None".toList, true⟩]
    Runs.Throughout (step srv) directIsQuiescent fresh
      [.activate {}, .ctrlSlash, .key 0x4A, .ctrlSlash, .click {}, .deactivate {}] :=
  (direct_mode_quiescent_iff _ 0 (fun _ => blank) (fun _ _ => rfl) ⟨none, none⟩ _ (by decide +kernel)).mpr
    (by decide +kernel)

theorem direct_mode_composing :
    let srv := Server.scripted [.status ⟨[], [], [], "Some(j)".toList, true⟩]
    let es := [.activate {}, .ctrlSlash, .key 0x4A, .click {}]
    Runs.Along (step srv) (callsSucceed srv) fresh es ∧
      ¬ Runs.Throughout (step srv) directIsQuiescent fresh es ∧
      (Runs.run (step srv) fresh es).text.pComposition.isSome := by
  decide +kernel

end CTCodeIME

end TCodeIME
