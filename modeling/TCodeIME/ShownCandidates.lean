import TCodeIME.DirectMode
import TCodeIME.HighlightedCandidate

/-!
The candidate list on screen against the cached status, key by key.
-/

namespace TCodeIME

namespace CandidateElement

structure ShowsCandidates (u : CandidateElement) (candidates : List Str) (i : Int32) : Prop where
  opened : u.openElements ≠ [] ↔ ∃ text ∈ candidates, text ≠ []
  given : u.openElements ≠ [] →
    u.list.candidates = wideCandidates candidates ∧ u.list.selectedIndex = i

instance (u : CandidateElement) (candidates : List Str) (i : Int32) :
    Decidable (u.ShowsCandidates candidates i) :=
  decidable_of_iff ((u.openElements ≠ [] ↔ ∃ text ∈ candidates, text ≠ []) ∧
    (u.openElements ≠ [] → u.list.candidates = wideCandidates candidates ∧ u.list.selectedIndex = i))
    ⟨fun h => ⟨h.1, h.2⟩, fun h => ⟨h.1, h.2⟩⟩

theorem wideCandidates_isEmpty (candidates : List Str) :
    (wideCandidates candidates).isEmpty = true ↔ ¬ ∃ text ∈ candidates, text ≠ [] := by
  simp [wideCandidates]

theorem openElements_ne_nil_iff {u : CandidateElement} (hu : u.tracks) :
    u.openElements ≠ [] ↔ u.isOpen := by
  unfold tracks at hu
  rw [hu, isOpen]
  split_ifs with hid
  · simp [hid]
  · simp [hid]

theorem showsCandidates_of_closed {u : CandidateElement} (hu : u.openElements = [])
    (candidates : List Str) (i : Int32) :
    u.ShowsCandidates candidates i ↔ ∀ text ∈ candidates, text = [] := by
  constructor
  · intro h text htext
    by_contra hne
    exact h.opened.mpr ⟨text, htext, hne⟩ hu
  · intro h
    refine ⟨iff_of_false (fun hne => hne hu) ?_, fun hne => absurd hu hne⟩
    rintro ⟨text, htext, hne⟩
    exact hne (h text htext)

theorem syncCandidateList_shows {o : UIOutcomes} (ho : o.succeed = true) {candidates : List Str}
    {i : Int32} {u u' : CandidateElement} (hu : u.tracks)
    (h : u.syncCandidateList o true candidates i = some u') : u'.ShowsCandidates candidates i := by
  have htracks := syncCandidateList_tracks ho hu h
  unfold syncCandidateList at h
  by_cases hempty : (wideCandidates candidates).isEmpty = true
  · rw [if_pos hempty] at h
    have hclosed := hideCandidateList_closes (UIOutcomes.queryElementMgr_of_succeed ho) hu h
    apply (showsCandidates_of_closed hclosed.2 candidates i).mpr
    have hnone := (wideCandidates_isEmpty candidates).mp hempty
    simpa using hnone
  · rw [if_neg hempty] at h
    obtain ⟨hopen, hcandidates, hindex⟩ := updateCandidateList_shows ho (wideCandidates candidates) i u
    rw [Option.some.inj h] at hopen hcandidates hindex
    have hsome : ∃ text ∈ candidates, text ≠ [] := by
      by_contra hnone
      exact hempty ((wideCandidates_isEmpty candidates).mpr hnone)
    refine ⟨iff_of_true ((openElements_ne_nil_iff htracks).mpr hopen) hsome, fun _ => ?_⟩
    exact ⟨hcandidates, hindex⟩

end CandidateElement

variable {E : Type}

namespace CTCodeIME

def showsCandidates (s : CTCodeIME E) : Prop :=
  s.candidateUI.ShowsCandidates s.client.lastResponse.candidates s.selectedIndex

def repliesNoCandidates (srv : Server E) (s : CTCodeIME E) (k : Keystroke) : Prop :=
  match k with
  | .inflect _ => ∀ text ∈ (s.response srv k).candidates, text = []
  | .toDirect => ∀ text ∈ (s.response srv k).candidates, text = []
  | _ => True

def leavesNoCandidates (srv : Server E) (s : CTCodeIME E) : Event → Prop
  | .keyDown o _ wParam keys => s.repliesNoCandidates srv (s.keystroke o.compartment wParam keys)
  | .deactivate _ => s.pThreadMgr = true → ∀ text ∈ s.client.lastResponse.candidates, text = []
  | _ => True

instance (s : CTCodeIME E) : Decidable s.showsCandidates :=
  inferInstanceAs (Decidable (s.candidateUI.ShowsCandidates _ _))

instance (srv : Server E) (s : CTCodeIME E) (k : Keystroke) : Decidable (s.repliesNoCandidates srv k) :=
  match k with
  | .inflect _ => inferInstanceAs (Decidable (∀ text ∈ _, text = []))
  | .toDirect => inferInstanceAs (Decidable (∀ text ∈ _, text = []))
  | .passed | .toTcode | .back | .put _ | .nextCandidate | .convert | .move _ | .select | .idle =>
    isTrue trivial

instance (srv : Server E) (s : CTCodeIME E) (e : Event) : Decidable (s.leavesNoCandidates srv e) :=
  match e with
  | .keyDown _ _ _ _ => inferInstanceAs (Decidable (s.repliesNoCandidates srv _))
  | .deactivate _ => inferInstanceAs (Decidable (_ → _))
  | .click _ | .change _ _ | .terminated | .activate _ | .edited _ _ _ | .selected _ _ => isTrue trivial

theorem showsCandidates_keyDown {srv : Server E} {o : KeyOutcomes} {pic : ContextId} {wParam : ℕ}
    {keys : Modifiers} {s : CTCodeIME E} (hu : s.candidateUI.tracks) (hs : s.showsCandidates)
    (h : s.listCallsSucceed srv (.keyDown o pic wParam keys)) :
    (s.onKeyDown srv o pic wParam keys).ime.showsCandidates ↔
      s.leavesNoCandidates srv (.keyDown o pic wParam keys) := by
  obtain ⟨hsucceeds, hui⟩ := h
  have hexit := (onKeyDown_of_succeeds hsucceeds).1
  obtain ⟨-, -, hlist, -, -⟩ := onKeyDown_returned srv o pic wParam keys s hexit
  have hadmits := keystroke_admits o.compartment wParam keys s
  have hresponse := onKeyDown_lastResponse srv o pic wParam keys s
  have hindex := onKeyDown_selectedIndex srv o pic wParam keys s (by rw [hexit]; simp)
  rw [leavesNoCandidates, showsCandidates, hresponse, hindex]
  have unchanged (hnone : (s.keystroke o.compartment wParam keys).list = .none) :
      (s.onKeyDown srv o pic wParam keys).ime.candidateUI = s.candidateUI := by
    rw [hnone] at hlist
    exact (Option.some.inj hlist).symm
  cases hk : s.keystroke o.compartment wParam keys with
  | passed =>
    rw [unchanged (by rw [hk]; rfl)]
    exact iff_of_true hs trivial
  | toTcode =>
    rw [unchanged (by rw [hk]; rfl)]
    exact iff_of_true hs trivial
  | inflect command =>
    -- the arrow found no candidates, so the list it leaves alone is closed
    rw [hk] at hadmits
    have hclosed : s.candidateUI.openElements = [] := by
      by_contra hopen
      obtain ⟨text, htext, -⟩ := hs.opened.mp hopen
      rw [hadmits.2.1] at htext
      cases htext
    rw [unchanged (by rw [hk]; rfl)]
    exact CandidateElement.showsCandidates_of_closed hclosed _ _
  | toDirect =>
    rw [hk] at hlist
    have hquery := UIOutcomes.queryElementMgr_of_succeed hui
    have hclosed := CandidateElement.hideCandidateList_closes hquery hu hlist
    exact CandidateElement.showsCandidates_of_closed hclosed.2 _ _
  | _ =>
    rw [hk] at hlist hadmits
    have hmode : s.getInputMode o.compartment = .tcode := by
      first | exact hadmits | exact hadmits.1
    rw [Compartments.getInputMode_tcode hmode] at hlist
    exact iff_of_true (CandidateElement.syncCandidateList_shows hui hu hlist) trivial

theorem showsCandidates_deactivate {srv : Server E} {o : UIOutcomes} {s : CTCodeIME E}
    (hu : s.candidateUI.tracks) (hs : s.showsCandidates) (ho : o.succeed = true) :
    (s.step srv (.deactivate o)).showsCandidates ↔ s.leavesNoCandidates srv (.deactivate o) := by
  rw [leavesNoCandidates]
  cases hp : s.pThreadMgr with
  | false =>
    rw [step_deactivate_of_inactive hp]
    exact iff_of_true hs (by simp)
  | true =>
    obtain ⟨u, hclosed, hstep⟩ := step_deactivate_closes hp hu ho
    rw [hstep]
    have hshows := CandidateElement.showsCandidates_of_closed hclosed.2
      s.client.lastResponse.candidates s.selectedIndex
    exact hshows.trans (imp_iff_right rfl).symm

theorem showsCandidates_step {srv : Server E} {s : CTCodeIME E} {e : Event}
    (hu : s.candidateUI.tracks) (hs : s.showsCandidates) (h : s.listCallsSucceed srv e) :
    (s.step srv e).showsCandidates ↔ s.leavesNoCandidates srv e := by
  have same (hkey : e.isKeyDown = false) (hd : ∀ o, e ≠ .deactivate o) :
      (s.step srv e).showsCandidates := by
    rw [showsCandidates, step_client hkey, step_selectedIndex hkey, step_candidateUI hkey hd]
    exact hs
  cases e with
  | keyDown o pic wParam keys => exact showsCandidates_keyDown hu hs h
  | deactivate o => exact showsCandidates_deactivate hu hs h
  | _ => exact iff_of_true (same rfl (by simp)) trivial

theorem list_shows_candidates_iff (srv : Server E) (engine : E)
    (contexts : ContextId → MarkedText WChar CompositionId) (hmarks : ∀ c i, (contexts c).marks i = none)
    (compartments : Compartments) (es : List Event)
    (hsucceed : Runs.Along (step srv) (listCallsSucceed srv)
      (construct engine contexts hmarks compartments) es) :
    Runs.Throughout (step srv) showsCandidates (construct engine contexts hmarks compartments) es ↔
      Runs.Along (step srv) (leavesNoCandidates srv)
        (construct engine contexts hmarks compartments) es := by
  have hstart : (construct engine contexts hmarks compartments).showsCandidates :=
    (CandidateElement.showsCandidates_of_closed rfl _ _).mpr (by simp [construct])
  have hstep (s : CTCodeIME E) (e : Event) (hs : s.candidateUI.tracks ∧ s.showsCandidates)
      (h : s.listCallsSucceed srv e) := showsCandidates_step hs.1 hs.2 h
  refine Runs.throughout_iff_along (fun _ hs => hs.2) hstep (fun s e hs h hleaves => ?_)
    ⟨rfl, hstart⟩ hsucceed
  exact ⟨tracks_step hs.1 h, (hstep s e hs h).mpr hleaves⟩

theorem list_shows_candidates_of_stroke :
    let srv := Server.scripted [.status ⟨[], "か".toList, [], "None".toList, true⟩,
      .status ⟨[], "か".toList, [], "None".toList, true⟩,
      .status ⟨[], "か".toList, ["化".toList, [], "下".toList], "None".toList, true⟩]
    Runs.Throughout (step srv) showsCandidates fresh
      [.activate {}, .ctrlSlash, .key 0x4A, .key VK_LEFT, .key VK_SPACE, .key VK_DOWN] :=
  (list_shows_candidates_iff _ 0 (fun _ => blank) (fun _ _ => rfl) ⟨none, none⟩ _ (by decide +kernel)).mpr
    (by decide +kernel)

/-- The arrow that brings candidates opens no list, and the next key selects the first of them unseen. -/
theorem arrow_leaves_list_closed :
    let srv := Server.scripted [.status ⟨[], "か".toList, [], "None".toList, true⟩,
      .status ⟨[], "か".toList, ["化".toList, "下".toList], "None".toList, true⟩]
    let es := [.activate {}, .ctrlSlash, .key 0x4A, .key VK_LEFT]
    let s := Runs.run (step srv) fresh es
    Runs.Along (step srv) (listCallsSucceed srv) fresh es ∧
      ¬ Runs.Throughout (step srv) showsCandidates fresh es ∧
      s.getInputMode {} = .tcode ∧ s.candidateUI.openElements = [] ∧
      s.keystroke {} VK_RETURN {} = .select := by
  decide +kernel

end CTCodeIME

end TCodeIME
