import TCodeIME.Events
import TCodeIME.Library.OpenElement
import TCodeIME.ScriptedServer

/-!
The calls made to the UI element manager for the candidate list.
-/

namespace TCodeIME

abbrev ManagerCall := OpenElement.Call UInt32

/-- What may happen to the candidate list. A synchronisation finds any cached response and any selected
index. -/
inductive ListEvent where
  | activate (o : ActivationOutcomes)
  | deactivate (o : UIOutcomes)
  | sync (o : UIOutcomes) (r : BufferStatusResponse) (selectedIndex : Int32)
  | update (o : UIOutcomes) (candidates : List WString) (selectedIndex : Int32)
  | hide (o : UIOutcomes)

/-- The element manager is there, and an element it begins has a valid id. -/
def UIOutcomes.keepsContract (o : UIOutcomes) : Prop :=
  o.queryElementMgr = true ∧ ∀ id bShow, o.beginUIElement = some (id, bShow) → id ≠ TF_INVALID_UIELEMENTID

def ListEvent.keepsContract : ListEvent → Prop
  | .activate _ => True
  | .deactivate o => o.keepsContract
  | .sync o _ _ => o.keepsContract
  | .update o _ _ => o.keepsContract
  | .hide o => o.keepsContract

namespace CandidateElement

def updateCalls (o : UIOutcomes) (pThreadMgr : Bool) (u : CandidateElement) : List ManagerCall :=
  if pThreadMgr ∧ o.getFocus ∧ o.getTop ∧ o.queryElementMgr then
    if u.elementId = TF_INVALID_UIELEMENTID then
      match o.beginUIElement with
      | none => [.begins none]
      | some (id, _) => [.begins (some id), .updates id]
    else [.updates u.elementId]
  else []

def hideCalls (o : UIOutcomes) (u : CandidateElement) : List ManagerCall :=
  if u.elementId = TF_INVALID_UIELEMENTID then []
  else if o.queryElementMgr then [.ends u.elementId] else []

def openElement (u : CandidateElement) : Option UInt32 :=
  if u.elementId = TF_INVALID_UIELEMENTID then none else some u.elementId

/-- The calls that `calls` records: all but a `BeginUIElement` that fails. -/
def recorded : ManagerCall → Option ElementCall
  | .begins id => id.map .beginElement
  | .updates id => some (.updateElement id)
  | .ends id => some (.endElement id)

theorem updateCalls_recorded (o : UIOutcomes) (pThreadMgr : Bool) (candidates : List WString)
    (i : Int32) (u : CandidateElement) :
    (u.updateCandidateList o pThreadMgr candidates i).calls =
      u.calls ++ (u.updateCalls o pThreadMgr).filterMap recorded := by
  unfold updateCandidateList updateCalls
  split_ifs with hready hid
  · cases o.beginUIElement with
    | none => simp [recorded, hid]
    | some element => simp [recorded, beginUIElement, updateUIElement, hid]
  · simp [recorded, updateUIElement, hid]
  · simp

theorem hideCalls_recorded {o : UIOutcomes} {pThreadMgr : Bool} {u u' : CandidateElement}
    (h : u.hideCandidateList o pThreadMgr = some u') :
    u'.calls = u.calls ++ (u.hideCalls o).filterMap recorded := by
  unfold hideCandidateList at h
  unfold hideCalls
  dsimp only at h
  split_ifs at h ⊢
  all_goals
    cases h
    simp [recorded, endUIElement]

structure Sound (pThreadMgr : Bool) (u : CandidateElement) : Prop where
  active : u.openElement.isSome → pThreadMgr = true
  shown : u.list.isShown = true → u.openElement.isSome

section Sound

variable {o : UIOutcomes} {pThreadMgr : Bool} {u : CandidateElement}

theorem sound_update (ho : o.keepsContract) (hu : u.Sound pThreadMgr) (candidates : List WString)
    (i : Int32) :
    (u.updateCandidateList o pThreadMgr candidates i).Sound pThreadMgr ∧
      OpenElement.follows u.openElement (u.updateCalls o pThreadMgr) =
        some (u.updateCandidateList o pThreadMgr candidates i).openElement := by
  unfold updateCandidateList updateCalls
  by_cases hready : pThreadMgr ∧ o.getFocus ∧ o.getTop ∧ o.queryElementMgr
  · rw [if_pos hready, if_pos hready]
    dsimp only
    by_cases hid : u.elementId = TF_INVALID_UIELEMENTID
    · have hopen : u.openElement = none := by rw [openElement, if_pos hid]
      have hshown : u.list.isShown = false := by
        rw [← Bool.not_eq_true]
        intro hs
        have := hu.shown hs
        rw [hopen] at this
        cases this
      rw [if_pos hid, if_pos hid, hopen]
      cases hb : o.beginUIElement with
      | none =>
        refine ⟨⟨fun _ => hready.1, fun hs => ?_⟩, ?_⟩
        · exact absurd hs (by simpa [CTCodeCandidateListUI.setCandidates] using hshown)
        · simp [OpenElement.follows, OpenElement.follow, openElement, hid]
      | some element =>
        obtain ⟨id, bShow⟩ := element
        have hne := ho.2 id bShow hb
        refine ⟨⟨fun _ => hready.1, fun _ => ?_⟩, ?_⟩
        · simp [openElement, beginUIElement, updateUIElement, hne]
        · simp [OpenElement.follows, OpenElement.follow, openElement, beginUIElement, updateUIElement, hne]
    · have hopen : u.openElement = some u.elementId := by rw [openElement, if_neg hid]
      rw [if_neg hid, if_neg hid, hopen]
      refine ⟨⟨fun _ => hready.1, fun _ => ?_⟩, ?_⟩
      · simp [openElement, updateUIElement, hid]
      · simp [OpenElement.follows, OpenElement.follow, openElement, updateUIElement, hid]
  · rw [if_neg hready, if_neg hready]
    exact ⟨hu, rfl⟩

theorem sound_hide (ho : o.keepsContract) (hu : u.Sound pThreadMgr) :
    ∃ u', u.hideCandidateList o pThreadMgr = some u' ∧ u'.openElement = none ∧
      u'.list.isShown = false ∧ OpenElement.follows u.openElement (u.hideCalls o) = some none := by
  unfold hideCandidateList hideCalls
  dsimp only
  by_cases hid : u.elementId = TF_INVALID_UIELEMENTID
  · have hopen : u.openElement = none := by rw [openElement, if_pos hid]
    rw [if_pos hid, if_pos hid, hopen]
    exact ⟨_, rfl, hopen, rfl, rfl⟩
  · have hopen : u.openElement = some u.elementId := by rw [openElement, if_neg hid]
    have hactive : pThreadMgr = true := hu.active (by rw [hopen]; rfl)
    rw [if_neg hid, if_neg hid, if_pos hactive, if_pos ho.1, if_pos ho.1, hopen]
    refine ⟨_, rfl, rfl, rfl, ?_⟩
    simp [OpenElement.follows, OpenElement.follow]

theorem sound_of_closed {pThreadMgr : Bool} {u : CandidateElement} (hopen : u.openElement = none)
    (hshown : u.list.isShown = false) : u.Sound pThreadMgr := by
  refine ⟨fun h => ?_, fun h => ?_⟩
  · rw [hopen] at h
    cases h
  · rw [hshown] at h
    cases h

end Sound

end CandidateElement

variable {E : Type}

namespace CTCodeIME

/-- `none` is the call through a null `_pThreadMgr`. -/
def listStep (s : CTCodeIME E) : ListEvent → Option (CTCodeIME E)
  | .activate o => some (s.activateEx o).2
  | .deactivate o => s.deactivate o
  | .sync o r i =>
    { s with client := { s.client with lastResponse := r }, selectedIndex := i }.syncCandidateList o
  | .update o candidates i =>
    some { s with candidateUI := s.candidateUI.updateCandidateList o s.pThreadMgr candidates i }
  | .hide o => s.hideCandidateList o

def managerCalls (s : CTCodeIME E) : ListEvent → List ManagerCall
  | .activate _ => []
  | .deactivate o => if s.pThreadMgr then s.candidateUI.hideCalls o else []
  | .sync o r _ =>
    if (CandidateElement.wideCandidates r.candidates).isEmpty then s.candidateUI.hideCalls o
    else s.candidateUI.updateCalls o s.pThreadMgr
  | .update o _ _ => s.candidateUI.updateCalls o s.pThreadMgr
  | .hide o => s.candidateUI.hideCalls o

def listRun (s : CTCodeIME E) : List ListEvent → Option (CTCodeIME E × List ManagerCall)
  | [] => some (s, [])
  | e :: es =>
    (s.listStep e).bind fun s' => (s'.listRun es).map fun x => (x.1, s.managerCalls e ++ x.2)

theorem listStep_sync (s : CTCodeIME E) (o : UIOutcomes) (r : BufferStatusResponse) (i : Int32) :
    s.listStep (.sync o r i) =
      (s.candidateUI.syncCandidateList o s.pThreadMgr r.candidates i).map fun u =>
        { s with
          client := { s.client with lastResponse := r }
          selectedIndex := i
          candidateUI := u } := rfl

theorem managerCalls_recorded {s s' : CTCodeIME E} {e : ListEvent} (h : s.listStep e = some s') :
    s'.candidateUI.calls =
      s.candidateUI.calls ++ (s.managerCalls e).filterMap CandidateElement.recorded := by
  cases e with
  | activate o =>
    cases h
    simp [activateEx, setInputMode, managerCalls]
  | deactivate o =>
    simp only [listStep, deactivate, hideCandidateList, managerCalls] at h ⊢
    split_ifs at h ⊢
    · simp only [Option.map_map, Option.map_eq_some_iff] at h
      obtain ⟨u, hu, rfl⟩ := h
      exact CandidateElement.hideCalls_recorded hu
    · cases h
      simp
  | sync o r i =>
    rw [listStep_sync, CandidateElement.syncCandidateList] at h
    obtain ⟨u, hu, rfl⟩ := Option.map_eq_some_iff.mp h
    rw [managerCalls]
    split_ifs at hu ⊢
    · exact CandidateElement.hideCalls_recorded hu
    · cases hu
      exact CandidateElement.updateCalls_recorded o s.pThreadMgr _ i s.candidateUI
  | update o candidates i =>
    cases h
    exact CandidateElement.updateCalls_recorded o s.pThreadMgr candidates i s.candidateUI
  | hide o =>
    obtain ⟨u, hu, rfl⟩ := Option.map_eq_some_iff.mp h
    exact CandidateElement.hideCalls_recorded hu

theorem listRun_recorded {s s' : CTCodeIME E} {es : List ListEvent} {calls : List ManagerCall}
    (h : s.listRun es = some (s', calls)) :
    s'.candidateUI.calls = s.candidateUI.calls ++ calls.filterMap CandidateElement.recorded := by
  induction es generalizing s calls with
  | nil =>
    cases h
    simp
  | cons e es ih =>
    obtain ⟨t, hstep, hrest⟩ := Option.bind_eq_some_iff.mp h
    obtain ⟨⟨s'', calls'⟩, hrun, heq⟩ := Option.map_eq_some_iff.mp hrest
    cases heq
    rw [ih hrun, managerCalls_recorded hstep, List.filterMap_append, List.append_assoc]

theorem listStep_sound {s : CTCodeIME E} {e : ListEvent} (he : e.keepsContract)
    (hs : s.candidateUI.Sound s.pThreadMgr) :
    ∃ s', s.listStep e = some s' ∧ s'.candidateUI.Sound s'.pThreadMgr ∧
      OpenElement.follows s.candidateUI.openElement (s.managerCalls e) =
        some s'.candidateUI.openElement ∧
      (∀ o, e = .deactivate o → s'.candidateUI.openElement = none) := by
  cases e with
  | activate o => exact ⟨_, rfl, ⟨fun _ => rfl, hs.shown⟩, rfl, by simp⟩
  | deactivate o =>
    simp only [listStep, deactivate, hideCandidateList, managerCalls]
    by_cases hp : s.pThreadMgr = true
    · obtain ⟨u, hu, hopen, hshown, hcalls⟩ := CandidateElement.sound_hide he hs
      rw [if_pos hp, if_pos hp, hu]
      refine ⟨_, rfl, CandidateElement.sound_of_closed hopen hshown, ?_, fun _ _ => hopen⟩
      rw [hcalls, ← hopen]
    · have hopen : s.candidateUI.openElement = none := by
        by_contra hne
        exact hp (hs.active (Option.isSome_iff_ne_none.mpr hne))
      rw [if_neg hp, if_neg hp]
      exact ⟨s, rfl, hs, rfl, fun _ _ => hopen⟩
  | sync o r i =>
    rw [listStep_sync, managerCalls, CandidateElement.syncCandidateList]
    by_cases hempty : (CandidateElement.wideCandidates r.candidates).isEmpty = true
    · obtain ⟨u, hu, hopen, hshown, hcalls⟩ := CandidateElement.sound_hide he hs
      rw [if_pos hempty, if_pos hempty, hu]
      refine ⟨_, rfl, CandidateElement.sound_of_closed hopen hshown, ?_, by simp⟩
      rw [hcalls, ← hopen]
    · obtain ⟨hsound, hcalls⟩ :=
        CandidateElement.sound_update he hs (CandidateElement.wideCandidates r.candidates) i
      rw [if_neg hempty, if_neg hempty]
      exact ⟨_, rfl, hsound, hcalls, by simp⟩
  | update o candidates i =>
    obtain ⟨hsound, hcalls⟩ := CandidateElement.sound_update he hs candidates i
    exact ⟨_, rfl, hsound, hcalls, by simp⟩
  | hide o =>
    obtain ⟨u, hu, hopen, hshown, hcalls⟩ := CandidateElement.sound_hide he hs
    refine ⟨{ s with candidateUI := u }, ?_, CandidateElement.sound_of_closed hopen hshown, ?_, by simp⟩
    · rw [listStep, hideCandidateList, hu]
      rfl
    · rw [managerCalls, hcalls, ← hopen]

theorem listRun_sound {s : CTCodeIME E} {es : List ListEvent} (hes : ∀ e ∈ es, e.keepsContract)
    (hs : s.candidateUI.Sound s.pThreadMgr) :
    ∃ s' calls, s.listRun es = some (s', calls) ∧ s'.candidateUI.Sound s'.pThreadMgr ∧
      OpenElement.follows s.candidateUI.openElement calls = some s'.candidateUI.openElement ∧
      (∀ o, es.getLast? = some (.deactivate o) → s'.candidateUI.openElement = none) := by
  induction es generalizing s with
  | nil => exact ⟨s, [], rfl, hs, rfl, by simp⟩
  | cons e es ih =>
    obtain ⟨he, hrest⟩ := List.forall_mem_cons.mp hes
    obtain ⟨s', hstep, hs', hcalls, hclosed⟩ := listStep_sound he hs
    obtain ⟨s'', calls, hrun, hs'', hcalls', hclosed'⟩ := ih hrest hs'
    refine ⟨s'', s.managerCalls e ++ calls, ?_, hs'', ?_, ?_⟩
    · rw [listRun, hstep, Option.bind_some, hrun]
      rfl
    · rw [OpenElement.follows_append, hcalls]
      exact hcalls'
    · intro o ho
      cases es with
      | nil =>
        cases hrun
        exact hclosed o (by simpa using ho)
      | cons f fs => exact hclosed' o (by simpa using ho)

structure FollowsProtocol (s : CTCodeIME E) (calls : List ManagerCall) : Prop where
  follows : OpenElement.follows none calls = some s.candidateUI.openElement
  balanced : ∀ id, calls.count (.begins (some id)) =
    calls.count (.ends id) + OpenElement.held s.candidateUI.openElement id
  active : s.candidateUI.openElement.isSome → s.pThreadMgr = true
  shown : s.candidateUI.list.isShown = true → s.candidateUI.openElement.isSome

theorem element_protocol_followed (engine : E)
    (contexts : ContextId → MarkedText WChar CompositionId) (hmarks : ∀ c i, (contexts c).marks i = none)
    (compartments : Compartments) (es : List ListEvent) (hes : ∀ e ∈ es, e.keepsContract) :
    ∃ s calls, (construct engine contexts hmarks compartments).listRun es = some (s, calls) ∧
      s.candidateUI.calls = calls.filterMap CandidateElement.recorded ∧ s.FollowsProtocol calls ∧
      (∀ o, es.getLast? = some (.deactivate o) → s.candidateUI.openElement = none) := by
  have hstart : (construct engine contexts hmarks compartments).candidateUI.Sound
      (construct engine contexts hmarks compartments).pThreadMgr :=
    CandidateElement.sound_of_closed rfl rfl
  obtain ⟨s, calls, hrun, hs, hfollows, hclosed⟩ := listRun_sound hes hstart
  have hopen : (construct engine contexts hmarks compartments).candidateUI.openElement = none := rfl
  rw [hopen] at hfollows
  refine ⟨s, calls, hrun, listRun_recorded hrun, ⟨hfollows, fun id => ?_, hs.active, hs.shown⟩, hclosed⟩
  have hheld := OpenElement.held_follows hfollows id
  rwa [OpenElement.held, if_neg (by simp), Nat.zero_add] at hheld

theorem element_protocol_followed_twice :
    let es := [.activate {}, .sync {} ⟨[], [], ["化".toList], [], true⟩ 0, .sync {} {} 0,
      .sync { beginUIElement := none } ⟨[], [], ["下".toList], [], true⟩ 0,
      .sync {} ⟨[], [], ["下".toList], [], true⟩ 0, .deactivate {}]
    ∃ s calls, fresh.listRun es = some (s, calls) ∧
      s.candidateUI.calls = calls.filterMap CandidateElement.recorded ∧ s.FollowsProtocol calls ∧
      (∀ o, es.getLast? = some (.deactivate o) → s.candidateUI.openElement = none) := by
  intro es
  have hdefault : UIOutcomes.keepsContract {} := by
    refine ⟨rfl, fun id bShow h => ?_⟩
    cases h
    decide
  apply element_protocol_followed 0 (fun _ => blank) (fun _ _ => rfl) ⟨none, none⟩ es
  simp only [es, List.forall_mem_cons]
  exact ⟨trivial, hdefault, hdefault, ⟨rfl, by simp⟩, hdefault, hdefault, by simp⟩

end CTCodeIME

end TCodeIME
