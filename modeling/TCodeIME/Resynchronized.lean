import TCodeIME.ShownCandidates
import TCodeIME.ShownEngine

/-!
How the input method comes back into step with the engine, whatever has failed before.
-/

namespace TCodeIME

open Runs

namespace BufferStatusResponse

def input (r : BufferStatusResponse) : BufferStatusResponse := { r with outputBuffer := [], commandSucceed := false }

variable {r r' : BufferStatusResponse}

theorem fields_of_input (h : r.input = r'.input) :
    r.buffer = r'.buffer ∧ r.candidates = r'.candidates ∧ r.lastCharAsKey = r'.lastCharAsKey := by
  simp only [input, BufferStatusResponse.mk.injEq] at h
  exact ⟨h.2.1, h.2.2.1, h.2.2.2.1⟩

theorem lastKeyInBounds_of_input (h : r.input = r'.input) : r.lastKeyInBounds ↔ r'.lastKeyInBounds := by
  rw [lastKeyInBounds, lastKeyInBounds, isLastKeyEmpty, isLastKeyEmpty, (fields_of_input h).2.2]

theorem shown_of_input (h : r.input = r'.input) : r.shown = r'.shown := by
  obtain ⟨hbuffer, -, hkey⟩ := fields_of_input h
  rw [shown, shown, preedit, preedit, getBuffer, getBuffer, getLastKey, getLastKey, isLastKeyEmpty,
    isLastKeyEmpty, hbuffer, hkey]

end BufferStatusResponse

variable {E : Type}

/-- The replies report what is pending, a commit leaves it alone, and its key can be read off the report. -/
structure Server.HoldsInput (srv : Server E) (report : E → BufferStatusResponse) : Prop where
  status : ∀ request e r, srv.status request e = some r → r.input = (report (srv.after request e)).input
  commit : ∀ e c, srv.committed e = some c → (report (srv.after .commit e)).input = (report e).input
  key : ∀ e, (report e).lastKeyInBounds

theorem Server.holdsInput_scripted {script : List Answer} {report : ℕ → BufferStatusResponse}
    (hstatus : ∀ n < script.length, ∀ r ∈ Server.statusAt script n, r.input = (report (n + 1)).input)
    (hcommit : ∀ n < script.length, ∀ c ∈ Server.committedAt script n, (report (n + 1)).input = (report n).input)
    (hkey : ∀ n, (report n).lastKeyInBounds) : (Server.scripted script).HoldsInput report where
  status request n r h := by
    rw [Server.scripted_status] at h
    exact hstatus n (Server.lt_length_of_statusAt h) r h
  commit n c h := by
    rw [Server.scripted_committed] at h
    exact hcommit n (Server.lt_length_of_committedAt h) c h
  key := hkey

def TextServices.Follows (t : TextServices) (shown : WString) : Prop :=
  t.preedit = shown ∧ t.pComposition.isSome = !shown.isEmpty

namespace Keystroke

def followsText (t : TextServices) (r : BufferStatusResponse) : Keystroke → Prop
  | .inflect _ => r.isLastKeyEmpty = true
  | .select => if r.commandSucceed then r.shown = [] else t.Follows r.shown
  | .toDirect => r.shown = []
  | _ => True

def followsList (u : CandidateElement) (i : Int32) (r : BufferStatusResponse) : Keystroke → Prop
  | .inflect _ => u.ShowsCandidates r.candidates i
  | .toDirect => ∀ text ∈ r.candidates, text = []
  | _ => True

end Keystroke

/-- The calls to the element manager succeed. -/
def Event.listSucceeds : Event → Prop
  | .keyDown o _ _ _ => o.ui.succeed = true
  | .deactivate o => o.succeed = true
  | _ => True

namespace CTCodeIME

structure InSync (report : E → BufferStatusResponse) (s : CTCodeIME E) : Prop where
  cached : s.client.lastResponse.input = (report s.client.engine).input
  text : s.text.Follows (report s.client.engine).shown
  list : s.candidateUI.ShowsCandidates (report s.client.engine).candidates s.selectedIndex

/-- The key asks for a status, all its calls succeed. -/
def asks (srv : Server E) (s : CTCodeIME E) : Event → Prop
  | .keyDown o pic wParam keys =>
    s.listCallsSucceed srv (.keyDown o pic wParam keys) ∧
      ((s.keystroke o.compartment wParam keys).request s.selectedIndex).isSome = true
  | _ => False

/-- All calls succeed, and the application does not edit the document that has the preedit. -/
def undisturbed (srv : Server E) (s : CTCodeIME E) : Event → Prop
  | .edited c _ _ => ∀ k ∈ s.text.pComposition, k.context ≠ c
  | e => s.listCallsSucceed srv e

def keepsSync (srv : Server E) (s : CTCodeIME E) : Event → Prop
  | .keyDown o _ wParam keys =>
    let k := s.keystroke o.compartment wParam keys
    k.followsText s.text (s.response srv k) ∧ k.followsList s.candidateUI s.selectedIndex (s.response srv k)
  | .terminated => s.text.pComposition = none
  | .deactivate _ => s.pThreadMgr = true → ∀ text ∈ s.client.lastResponse.candidates, text = []
  | _ => True

end CTCodeIME

section Decidable

instance (t : TextServices) (shown : WString) : Decidable (t.Follows shown) :=
  inferInstanceAs (Decidable (_ ∧ _))

instance (t : TextServices) (r : BufferStatusResponse) (k : Keystroke) : Decidable (k.followsText t r) :=
  match k with
  | .select =>
    inferInstanceAs (Decidable (if r.commandSucceed then r.shown = [] else t.Follows r.shown))
  | .inflect _ | .toDirect => inferInstanceAs (Decidable (_ = _))
  | .passed | .toTcode | .back | .put _ | .nextCandidate | .convert | .move _ | .idle => isTrue trivial

instance (u : CandidateElement) (i : Int32) (r : BufferStatusResponse) (k : Keystroke) :
    Decidable (k.followsList u i r) :=
  match k with
  | .inflect _ => inferInstanceAs (Decidable (u.ShowsCandidates _ _))
  | .toDirect => inferInstanceAs (Decidable (∀ text ∈ _, text = []))
  | .passed | .toTcode | .select | .back | .put _ | .nextCandidate | .convert | .move _ | .idle => isTrue trivial

instance (e : Event) : Decidable e.listSucceeds :=
  match e with
  | .keyDown _ _ _ _ | .deactivate _ => inferInstanceAs (Decidable (_ = _))
  | .click _ | .change _ _ | .terminated | .activate _ | .edited _ _ _ | .selected _ _ => isTrue trivial

instance (srv : Server E) (s : CTCodeIME E) (e : Event) : Decidable (s.asks srv e) :=
  match e with
  | .keyDown _ _ _ _ => inferInstanceAs (Decidable (s.listCallsSucceed srv _ ∧ _ = true))
  | .click _ | .change _ _ | .terminated | .activate _ | .deactivate _ | .edited _ _ _ | .selected _ _ =>
    isFalse id

instance (srv : Server E) (s : CTCodeIME E) (e : Event) : Decidable (s.undisturbed srv e) :=
  match e with
  | .edited c _ _ => inferInstanceAs (Decidable (∀ k ∈ s.text.pComposition, k.context ≠ c))
  | .keyDown o pic wParam keys => inferInstanceAs (Decidable (s.listCallsSucceed srv (.keyDown o pic wParam keys)))
  | .deactivate o => inferInstanceAs (Decidable (s.listCallsSucceed srv (.deactivate o)))
  | .click _ | .change _ _ | .terminated | .activate _ | .selected _ _ => isTrue trivial

instance (srv : Server E) (s : CTCodeIME E) (e : Event) : Decidable (s.keepsSync srv e) :=
  match e with
  | .keyDown _ _ _ _ =>
    inferInstanceAs (Decidable (Keystroke.followsText _ _ _ ∧ Keystroke.followsList _ _ _ _))
  | .terminated => inferInstanceAs (Decidable (_ = _))
  | .deactivate _ => inferInstanceAs (Decidable (_ → ∀ text ∈ s.client.lastResponse.candidates, text = []))
  | .click _ | .change _ _ | .activate _ | .edited _ _ _ | .selected _ _ => isTrue trivial

end Decidable

variable {srv : Server E} {report : E → BufferStatusResponse} {s : CTCodeIME E}

/-! The text after a key. -/

theorem TextServices.follows_of_none {t : TextServices} (h : t.pComposition = none) (shown : WString) :
    t.Follows shown ↔ shown = [] := by
  rw [Follows, preedit_of_none h, h]
  constructor
  · rintro ⟨hshown, -⟩
    exact hshown.symm
  · rintro rfl
    exact ⟨rfl, rfl⟩

theorem Keystroke.followsText_iff {t : TextServices} {r : BufferStatusResponse} {k : Keystroke} {i : Int32}
    (hk : (k.request i).isSome) (hbounds : r.lastKeyInBounds) (pastEnd : WChar) (drained : WString) :
    (k.session pastEnd t.pComposition.isSome r drained).elim (t.Follows r.shown) (fun x => x.2 = r.shown) ↔
      k.followsText t r := by
  have hpreedit : r.preedit pastEnd = r.shown := BufferStatusResponse.preedit_pastEnd hbounds pastEnd 0
  cases k with
  | put ch => exact iff_of_true hpreedit trivial
  | back => exact iff_of_true hpreedit trivial
  | convert => exact iff_of_true hpreedit trivial
  | inflect command =>
    have hempty : r.getBuffer = r.shown ↔ r.isLastKeyEmpty = true := by
      rw [BufferStatusResponse.shown, BufferStatusResponse.preedit, List.self_eq_append_right,
        BufferStatusResponse.getLastKey_eq_nil]
    exact hempty
  | select =>
    cases hflag : r.commandSucceed with
    | true => simp [session, followsText, hflag]
    | false => simp [session, followsText, hflag]
  | toDirect =>
    cases hlive : t.pComposition with
    | none => exact TextServices.follows_of_none hlive r.shown
    | some c => exact eq_comm
  | _ => cases hk

namespace CTCodeIME

theorem input_requested (hsrv : srv.HoldsInput report) {k : Keystroke}
    (hk : (k.request s.selectedIndex).isSome) (h : ∀ x ∈ s.exchanges srv k, x.answer.isSome) :
    (s.response srv k).input = (report (s.requested srv k).engine).input := by
  obtain ⟨request, hrequest⟩ := Option.isSome_iff_exists.mp hk
  obtain ⟨r, hr, hdrain⟩ := requested_of_answered hrequest h
  rw [response_of_request hrequest hr, hsrv.status request _ r hr]
  rcases hdrain with ⟨-, -, he⟩ | ⟨-, c, hc, -, he⟩
  · rw [he]
  · rw [he, hsrv.commit _ c hc]

variable {o : KeyOutcomes} {pic : ContextId} {wParam : ℕ} {keys : Modifiers}

theorem follows_onKeyDown (h : s.succeeds srv (.keyDown o pic wParam keys)) (shown : WString) :
    (s.onKeyDown srv o pic wParam keys).ime.text.Follows shown ↔
      (s.requestedSession srv o.pastEnd (s.keystroke o.compartment wParam keys)).elim (s.text.Follows shown)
        fun x => x.2 = shown := by
  obtain ⟨hexit, hcomposing⟩ := onKeyDown_of_succeeds h
  cases hx : s.requestedSession srv o.pastEnd (s.keystroke o.compartment wParam keys) with
  | none =>
    have htext := (onKeyDown_returned srv o pic wParam keys s hexit).2.1
    rw [hx] at htext
    rw [← Option.some.inj htext]
    rfl
  | some x =>
    rw [hx] at hcomposing
    rw [TextServices.Follows, preedit_onKeyDown hexit h.2 hx, hcomposing]
    apply and_iff_left_of_imp
    rintro rfl
    rfl

theorem list_onKeyDown (hu : s.candidateUI.tracks) (h : s.listCallsSucceed srv (.keyDown o pic wParam keys))
    (hquiet : (s.keystroke o.compartment wParam keys).request s.selectedIndex = none →
      s.candidateUI.ShowsCandidates s.client.lastResponse.candidates s.selectedIndex) :
    (s.onKeyDown srv o pic wParam keys).ime.candidateUI.ShowsCandidates
        (s.response srv (s.keystroke o.compartment wParam keys)).candidates
        (s.onKeyDown srv o pic wParam keys).ime.selectedIndex ↔
      (s.keystroke o.compartment wParam keys).followsList s.candidateUI s.selectedIndex
        (s.response srv (s.keystroke o.compartment wParam keys)) := by
  obtain ⟨hsucceeds, hui⟩ := h
  have hexit := (onKeyDown_of_succeeds hsucceeds).1
  obtain ⟨-, -, hlist, -, -⟩ := onKeyDown_returned srv o pic wParam keys s hexit
  have hadmits := keystroke_admits o.compartment wParam keys s
  rw [onKeyDown_selectedIndex srv o pic wParam keys s (by rw [hexit]; simp)]
  cases hk : s.keystroke o.compartment wParam keys with
  | passed =>
    rw [hk] at hlist hquiet
    rw [← Option.some.inj hlist]
    exact iff_of_true (hquiet rfl) trivial
  | toTcode =>
    rw [hk] at hlist hquiet
    rw [← Option.some.inj hlist]
    exact iff_of_true (hquiet rfl) trivial
  | inflect command =>
    rw [hk] at hlist
    rw [← Option.some.inj hlist]
    rfl
  | toDirect =>
    rw [hk] at hlist
    have hclosed := CandidateElement.hideCandidateList_closes (UIOutcomes.queryElementMgr_of_succeed hui) hu hlist
    exact CandidateElement.showsCandidates_of_closed hclosed.2 _ _
  | _ =>
    rw [hk] at hlist hadmits
    have hmode : s.getInputMode o.compartment = .tcode := by
      first | exact hadmits | exact hadmits.1
    rw [Compartments.getInputMode_tcode hmode] at hlist
    exact iff_of_true (CandidateElement.syncCandidateList_shows hui hu hlist) trivial

theorem inSync_iff (hcached : s.client.lastResponse.input = (report s.client.engine).input) :
    s.InSync report ↔ s.text.Follows s.client.lastResponse.shown ∧
      s.candidateUI.ShowsCandidates s.client.lastResponse.candidates s.selectedIndex := by
  have hshown := BufferStatusResponse.shown_of_input hcached
  have hcandidates := (BufferStatusResponse.fields_of_input hcached).2.1
  rw [hshown, hcandidates]
  exact ⟨fun hs => ⟨hs.text, hs.list⟩, fun ⟨htext, hlist⟩ => ⟨hcached, htext, hlist⟩⟩

theorem inSync_asked_iff (hsrv : srv.HoldsInput report) (hu : s.candidateUI.tracks)
    (hcalls : s.listCallsSucceed srv (.keyDown o pic wParam keys))
    (hk : ((s.keystroke o.compartment wParam keys).request s.selectedIndex).isSome) :
    (s.onKeyDown srv o pic wParam keys).ime.InSync report ↔ s.keepsSync srv (.keyDown o pic wParam keys) := by
  have hinput := input_requested hsrv hk hcalls.1.1
  have hbounds := (BufferStatusResponse.lastKeyInBounds_of_input hinput).mpr (hsrv.key _)
  have hcached : (s.onKeyDown srv o pic wParam keys).ime.client.lastResponse.input =
      (report (s.onKeyDown srv o pic wParam keys).ime.client.engine).input := by
    rw [onKeyDown_lastResponse, onKeyDown_engine]
    exact hinput
  rw [inSync_iff hcached, onKeyDown_lastResponse]
  refine and_congr ?_ (list_onKeyDown hu hcalls fun hnone => ?_)
  · exact (follows_onKeyDown hcalls.1 _).trans (Keystroke.followsText_iff hk hbounds _ _)
  · rw [hnone] at hk
    cases hk

theorem keepsSync_of_no_request {t : TextServices} {u : CandidateElement} {i : Int32} {k : Keystroke}
    (hk : k.request i = none) (r : BufferStatusResponse) : k.followsText t r ∧ k.followsList u i r := by
  cases k with
  | passed | toTcode | nextCandidate | move wParam | idle => exact ⟨trivial, trivial⟩
  | _ => cases hk

theorem inSync_onKeyDown_iff (hsrv : srv.HoldsInput report) (hu : s.candidateUI.tracks) (hs : s.InSync report)
    (h : s.listCallsSucceed srv (.keyDown o pic wParam keys)) :
    (s.onKeyDown srv o pic wParam keys).ime.InSync report ↔ s.keepsSync srv (.keyDown o pic wParam keys) := by
  cases hk : (s.keystroke o.compartment wParam keys).request s.selectedIndex with
  | some request => exact inSync_asked_iff hsrv hu h (by rw [hk]; rfl)
  | none =>
    have hresponse : s.response srv (s.keystroke o.compartment wParam keys) = s.client.lastResponse := by
      rw [response, hk]
      rfl
    have hengine : (s.requested srv (s.keystroke o.compartment wParam keys)).engine = s.client.engine := by
      rw [requested, hk]
      rfl
    have hcached : (s.onKeyDown srv o pic wParam keys).ime.client.lastResponse.input =
        (report (s.onKeyDown srv o pic wParam keys).ime.client.engine).input := by
      rw [onKeyDown_lastResponse, onKeyDown_engine, hresponse, hengine]
      exact hs.cached
    obtain ⟨htext, hlist⟩ := (inSync_iff hs.cached).mp hs
    have hkept := keepsSync_of_no_request (t := s.text) (u := s.candidateUI) hk s.client.lastResponse
    have hlist' := list_onKeyDown hu h fun _ => hlist
    have htext' := follows_onKeyDown h.1 s.client.lastResponse.shown
    rw [requestedSession_of_no_request hk] at htext'
    rw [hresponse] at hlist'
    simp only [keepsSync, hresponse]
    refine iff_of_true ((inSync_iff hcached).mpr ?_) hkept
    rw [onKeyDown_lastResponse, hresponse]
    exact ⟨htext'.mpr htext, hlist'.mpr hkept.2⟩

/-! The other events. -/

theorem tracks_of_listSucceeds {e : Event} (hu : s.candidateUI.tracks) (he : e.listSucceeds) :
    (s.step srv e).candidateUI.tracks := by
  cases e with
  | keyDown o pic wParam keys =>
    obtain ⟨log, ⟨-, -, what, hk⟩ | ⟨-, -, hk⟩ | ⟨-, t, u, -, hlist, hk⟩⟩ :=
      onKeyDown_cases srv o pic wParam keys s
    · rw [step, hk]
      simpa using hu
    · rw [step, hk]
      simpa using hu
    · rw [step, hk]
      exact updateUI_tracks he hu hlist
  | deactivate o => exact tracks_step (e := .deactivate o) hu he
  | _ => rwa [step_candidateUI rfl (by simp)]

theorem preedit_edited {c : ContextId} {r : Span} {text : WString}
    (h : ∀ k ∈ s.text.pComposition, k.context ≠ c) :
    (s.step srv (.edited c r text)).text.preedit = s.text.preedit := by
  have hsame : (s.step srv (.edited c r text)).text.pComposition = s.text.pComposition :=
    step_pComposition rfl (by simp)
  rw [TextServices.preedit, TextServices.preedit, hsame]
  cases hlive : s.text.pComposition with
  | none => rfl
  | some k =>
    have hne := h k hlive
    have hcontext : (s.step srv (.edited c r text)).text.contexts k.context = s.text.contexts k.context := by
      simp [step, TextServices.adjust, hne]
    simp only [Option.elim, hcontext]

theorem preedit_selected (c : ContextId) (r : Span) :
    (s.step srv (.selected c r)).text.preedit = s.text.preedit := by
  apply TextServices.preedit_congr (step_pComposition rfl (by simp))
  · intro d
    by_cases hd : d = c
    · subst hd
      simp [step, TextServices.adjust, MarkedText.marks_select]
    · simp [step, TextServices.adjust, hd]
  · intro d
    by_cases hd : d = c
    · subst hd
      simp [step, TextServices.adjust, MarkedText.text_select]
    · simp [step, TextServices.adjust, hd]

theorem inSync_congr {e : Event} (hkey : e.isKeyDown = false) (hd : ∀ o, e ≠ .deactivate o)
    (htext : (s.step srv e).text.Follows (report s.client.engine).shown ↔
      s.text.Follows (report s.client.engine).shown) (hs : s.InSync report) : (s.step srv e).InSync report := by
  have hcached : (s.step srv e).client.lastResponse.input = (report (s.step srv e).client.engine).input := by
    rw [step_client hkey]
    exact hs.cached
  refine ⟨hcached, ?_, ?_⟩
  · rw [step_client hkey]
    exact htext.mpr hs.text
  · rw [step_client hkey, step_candidateUI hkey hd, step_selectedIndex hkey]
    exact hs.list

theorem inSync_terminated_iff (hs : s.InSync report) :
    (s.step srv .terminated).InSync report ↔ s.text.pComposition = none := by
  have hnone : (s.step srv .terminated).text.pComposition = none := TextServices.terminate_pComposition s.text
  constructor
  · intro h
    have hshown := (TextServices.follows_of_none hnone _).mp h.text
    rw [step_client rfl] at hshown
    have hlive := hs.text.2
    rw [hshown] at hlive
    simpa using hlive
  · intro hlive
    refine inSync_congr rfl (by simp) ?_ hs
    rw [TextServices.follows_of_none hnone, TextServices.follows_of_none hlive]

theorem inSync_deactivate_iff {o : UIOutcomes} (hu : s.candidateUI.tracks) (hs : s.InSync report)
    (ho : o.succeed = true) :
    (s.step srv (.deactivate o)).InSync report ↔ s.keepsSync srv (.deactivate o) := by
  rw [keepsSync]
  cases hp : s.pThreadMgr with
  | false =>
    rw [step_deactivate_of_inactive hp]
    exact iff_of_true hs (by simp)
  | true =>
    obtain ⟨u, hclosed, hstep⟩ := step_deactivate_closes hp hu ho
    rw [hstep]
    have hcandidates := (BufferStatusResponse.fields_of_input hs.cached).2.1
    have hshows := CandidateElement.showsCandidates_of_closed hclosed.2
      (report s.client.engine).candidates s.selectedIndex
    rw [hcandidates]
    exact ⟨fun h _ => hshows.mp h.list, fun h => ⟨hs.cached, hs.text, hshows.mpr (h rfl)⟩⟩

theorem inSync_step_iff (hsrv : srv.HoldsInput report) {e : Event} (hu : s.candidateUI.tracks)
    (hs : s.InSync report) (h : s.undisturbed srv e) : (s.step srv e).InSync report ↔ s.keepsSync srv e := by
  cases e with
  | keyDown o pic wParam keys => exact inSync_onKeyDown_iff hsrv hu hs h
  | terminated => exact inSync_terminated_iff hs
  | deactivate o => exact inSync_deactivate_iff hu hs h
  | edited c r text =>
    refine iff_of_true (inSync_congr rfl (by simp) ?_ hs) trivial
    rw [TextServices.Follows, TextServices.Follows, preedit_edited h, step_pComposition rfl (by simp)]
  | selected c r =>
    refine iff_of_true (inSync_congr rfl (by simp) ?_ hs) trivial
    rw [TextServices.Follows, TextServices.Follows, preedit_selected, step_pComposition rfl (by simp)]
  | _ => exact iff_of_true (inSync_congr rfl (by simp) (by rw [step_text rfl]) hs) trivial

theorem inSync_asks_iff (hsrv : srv.HoldsInput report) {e : Event} (hu : s.candidateUI.tracks)
    (h : s.asks srv e) : (s.step srv e).InSync report ↔ s.keepsSync srv e := by
  cases e with
  | keyDown o pic wParam keys => exact inSync_asked_iff hsrv hu h.1 h.2
  | _ => cases h

theorem listSucceeds_of_asks {e : Event} (h : s.asks srv e) : e.listSucceeds := by
  cases e with
  | keyDown o pic wParam keys => exact h.1.2
  | _ => cases h

theorem listSucceeds_of_undisturbed {e : Event} (h : s.undisturbed srv e) : e.listSucceeds := by
  cases e with
  | keyDown o pic wParam keys => exact h.2
  | deactivate o => exact h
  | _ => trivial

theorem resynchronized_iff (srv : Server E) (report : E → BufferStatusResponse) (hsrv : srv.HoldsInput report)
    (engine : E) (contexts : ContextId → MarkedText WChar CompositionId)
    (hmarks : ∀ c i, (contexts c).marks i = none) (compartments : Compartments)
    (es : List Event) (hes : ∀ e ∈ es, e.listSucceeds)
    (key : Event) (hkey : (run (step srv) (construct engine contexts hmarks compartments) es).asks srv key)
    (es' : List Event) (hes' : Along (step srv) (undisturbed srv)
      (run (step srv) (construct engine contexts hmarks compartments) (es ++ [key])) es') :
    Throughout (step srv) (InSync report)
        (run (step srv) (construct engine contexts hmarks compartments) (es ++ [key])) es' ↔
      Along (step srv) (keepsSync srv) (run (step srv) (construct engine contexts hmarks compartments) es)
        (key :: es') := by
  have hu : (run (step srv) (construct engine contexts hmarks compartments) es).candidateUI.tracks := by
    have hall : Along (step srv) (fun _ e => e.listSucceeds) (construct engine contexts hmarks compartments) es :=
      along_of_forall (fun _ e he => hes e he) _
    exact run_of_step (I := fun s => s.candidateUI.tracks) (fun s e hs he => tracks_of_listSucceeds hs he) rfl hall
  have hrun : run (step srv) (construct engine contexts hmarks compartments) (es ++ [key]) =
      (run (step srv) (construct engine contexts hmarks compartments) es).step srv key := by
    rw [run, List.foldl_append]
    rfl
  rw [hrun] at hes' ⊢
  have hlist := listSucceeds_of_asks hkey
  refine throughout_step_iff_along (I := fun s => s.candidateUI.tracks ∧ s.InSync report) (fun s hs => hs.2) ?_ ?_
    (inSync_asks_iff hsrv hu hkey) (fun hs => ⟨tracks_of_listSucceeds hu hlist, hs⟩) hes'
  · rintro s e ⟨hu, hs⟩ he
    exact inSync_step_iff hsrv hu hs he
  · rintro s e ⟨hu, hs⟩ he hok
    exact ⟨tracks_of_listSucceeds hu (listSucceeds_of_undisturbed he), (inSync_step_iff hsrv hu hs he).mpr hok⟩

theorem resynchronized_after_failures :
    let script : List Answer := [.status ⟨[], "か".toList, [], "None".toList, true⟩, .failure,
      .status ⟨[], "かき".toList, [], "Some(j)".toList, true⟩,
      .status ⟨[], "かき".toList, ["柿".toList, "牡蠣".toList], "None".toList, true⟩]
    let report : ℕ → BufferStatusResponse := fun n =>
      if n = 3 then ⟨[], "かき".toList, [], "Some(j)".toList, false⟩
      else if n = 4 then ⟨[], "かき".toList, ["柿".toList, "牡蠣".toList], "None".toList, false⟩
      else ⟨[], "か".toList, [], "None".toList, false⟩
    let failed : List Event := [.activate {}, .ctrlSlash, .keyDown { session := { request := .refused } } 0 0x4A {},
      .terminated, .key 0x4B]
    Throughout (step (.scripted script)) (InSync report)
      (run (step (.scripted script)) (construct 0 (fun _ => blank) (fun _ _ => rfl) ⟨none, none⟩)
        (failed ++ [.key 0x46])) [.key VK_SPACE, .edited 1 (.caret 0) [0x61], .key VK_DOWN] := by
  intro script report failed
  have hkey (n : ℕ) : (report n).lastKeyInBounds := by
    simp only [report]
    split_ifs
    · decide
    · decide
    · decide
  have hsrv : (Server.scripted script).HoldsInput report :=
    Server.holdsInput_scripted (by decide +kernel) (by decide +kernel) hkey
  exact (resynchronized_iff _ report hsrv 0 (fun _ => blank) (fun _ _ => rfl) ⟨none, none⟩ failed
    (by decide +kernel) (.key 0x46) (by decide +kernel) _ (by decide +kernel)).mpr (by decide +kernel)

end CTCodeIME

end TCodeIME
