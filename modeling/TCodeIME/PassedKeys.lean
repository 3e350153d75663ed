import TCodeIME.TestKeyDown

/-!
The keys `OnKeyDown` leaves to the application.
-/

namespace TCodeIME

variable {E : Type}

namespace CManageCompositionEditSession

theorem requestEditSession_nil (o : SessionOutcomes) (pic : ContextId) (t : TextServices) :
    ∃ t', requestEditSession o pic [] [] t = some t' ∧ ∀ c,
      (t'.contexts c).text = (t.contexts c).text ∨
        ∃ k m, t.pComposition = some k ∧ (t.contexts k.context).marks k.id = some m ∧ c = k.context ∧
          (t'.contexts c).text = splice (t.contexts c).text m [] := by
  unfold requestEditSession doEditSession
  dsimp only
  cases o.request with
  | granted => exact ⟨_, rfl, clearComposition_text o.clear pic (t.request ⟨pic, [], []⟩)⟩
  | refused => exact ⟨_, rfl, fun c => .inl rfl⟩
  | notGranted => exact ⟨_, rfl, fun c => .inl rfl⟩

end CManageCompositionEditSession

namespace CTCodeIME

def Untouched (s s' : CTCodeIME E) : Prop := ∃ u, s' = { s with candidateUI := u }

structure EmptiedBy (srv : Server E) (pastEnd : WChar) (pic : ContextId) (s s' : CTCodeIME E) : Prop where
  answer : ∃ r, srv.status .backspace s.client.engine = some r ∧ r.getOutputBuffer = [] ∧
    r.preedit pastEnd = [] ∧ s'.client.lastResponse = r ∧
    s.exchangesSince s' = [⟨.backspace, some r.outputBuffer⟩]
  session : s.sessionsSince s' = [⟨pic, [], []⟩]
  selectedIndex : s'.selectedIndex = s.selectedIndex
  mode : ∀ o, s'.getInputMode o = s.getInputMode o
  text : ∀ c, (s'.text.contexts c).text = (s.text.contexts c).text ∨
    ∃ k m, s.text.pComposition = some k ∧ (s.text.contexts k.context).marks k.id = some m ∧
      c = k.context ∧ (s'.text.contexts c).text = splice (s.text.contexts c).text m []

theorem back_of_eaten {pastEnd : WChar} {r : BufferStatusResponse}
    (h : Keystroke.back.eaten pastEnd r = false) : r.preedit pastEnd = [] ∧ r.getOutputBuffer = [] := by
  simpa [Keystroke.eaten] using h

theorem passed_back {srv : Server E} {o : KeyOutcomes} {pic : ContextId} {wParam : ℕ} {keys : Modifiers}
    {s : CTCodeIME E} (hk : s.keystroke o.compartment wParam keys = .back)
    (h : (s.onKeyDown srv o pic wParam keys).pfEaten = false) :
    (s.onKeyDown srv o pic wParam keys).exit = .returned ∧
      s.EmptiedBy srv o.pastEnd pic (s.onKeyDown srv o pic wParam keys).ime := by
  have hlast := onKeyDown_lastResponse srv o pic wParam keys s
  have hexchanges := exchangesSince_onKeyDown srv o pic wParam keys s
  obtain ⟨log, ⟨-, -, what, hd⟩ | ⟨-, ht, hd⟩ | ⟨ha, t, u, ht, -, hd⟩⟩ :=
    onKeyDown_cases srv o pic wParam keys s
  · rw [hd] at h
    cases h
  · rw [hd, hk] at h
    obtain ⟨hpreedit, hout⟩ := back_of_eaten h
    rw [hk, requestedSession, Keystroke.session, hpreedit, hout] at ht
    obtain ⟨t, ht', -⟩ := CManageCompositionEditSession.requestEditSession_nil o.session pic s.text
    have : some t = none := ht'.symm.trans ht
    cases this
  · have hexit : (s.onKeyDown srv o pic wParam keys).exit = .returned := by rw [hd]
    have hsessions := sessionsSince_onKeyDown srv o pic wParam keys s hexit
    rw [hd, hk] at h
    rw [hk] at ht ha hlast hexchanges hsessions
    obtain ⟨hpreedit, hout⟩ := back_of_eaten h
    obtain ⟨r, hr⟩ := Option.isSome_iff_exists.mp (ha rfl)
    have hstatus : srv.status .backspace s.client.engine = some r := hr
    have hresponse : s.response srv .back = r := response_of_request rfl hstatus
    rw [requestedSession, Keystroke.session, hpreedit, hout] at ht hsessions
    obtain ⟨t', ht', htext⟩ := CManageCompositionEditSession.requestEditSession_nil o.session pic s.text
    have heq : some t = some t' := ht.symm.trans ht'
    refine ⟨hexit, ⟨r, hstatus, hresponse ▸ hout, hresponse ▸ hpreedit, hlast.trans hresponse, ?_⟩,
      hsessions, ?_, ?_, ?_⟩
    · rw [hexchanges]
      simp [exchanges, Keystroke.request, Keystroke.drains, hstatus]
    · rw [hd, hk]
      rfl
    · intro c
      rw [hd, hk]
      rfl
    · rw [hd, Option.some.inj heq]
      exact htext

theorem passed_key (srv : Server E) (o : KeyOutcomes) (pic : ContextId) (wParam : ℕ) (keys : Modifiers)
    (s : CTCodeIME E) (h : (s.onKeyDown srv o pic wParam keys).pfEaten = false) :
    (s.onKeyDown srv o pic wParam keys).exit = .returned ∧
      (s.Untouched (s.onKeyDown srv o pic wParam keys).ime ∨
        (wParam = VK_BACK ∧ s.EmptiedBy srv o.pastEnd pic (s.onKeyDown srv o pic wParam keys).ime)) := by
  have hadmits := keystroke_admits o.compartment wParam keys s
  cases hk : s.keystroke o.compartment wParam keys with
  | passed =>
    rw [onKeyDown_of_passed srv pic hk]
    exact ⟨rfl, .inl ⟨s.candidateUI, rfl⟩⟩
  | idle =>
    obtain ⟨u, hu⟩ := onKeyDown_of_idle srv pic hk
    rw [hu]
    exact ⟨rfl, .inl ⟨u, rfl⟩⟩
  | back =>
    rw [hk] at hadmits
    obtain ⟨hexit, hemptied⟩ := passed_back hk h
    exact ⟨hexit, .inr ⟨hadmits.2, hemptied⟩⟩
  | _ =>
    rw [pfEaten_of_acts (by rw [hk]; rfl) (by rw [hk]; simp)] at h
    cases h

theorem passed_key_backspace :
    let srv := Server.scripted [.status ⟨[], [], [], "Some(j)".toList, true⟩,
      .status ⟨[], [], [], "None".toList, true⟩]
    let s := Runs.run (step srv) fresh [.activate {}, .ctrlSlash, .key 0x4A]
    let result := s.onKeyDown srv {} 0 VK_BACK {}
    result.exit = .returned ∧ s.EmptiedBy srv 0 0 result.ime := by
  intro srv s result
  have hremoved : (result.ime.text.contexts 0).text ≠ (s.text.contexts 0).text := by decide +kernel
  obtain ⟨hexit, huntouched | ⟨-, hemptied⟩⟩ := passed_key srv {} 0 VK_BACK {} s (by decide +kernel)
  · obtain ⟨u, hu⟩ := huntouched
    exact absurd (by rw [hu]) hremoved
  · exact ⟨hexit, hemptied⟩

theorem backspace_handled_twice :
    let srv := Server.scripted [.status ⟨[], [], [], "Some(j)".toList, true⟩,
      .status ⟨[], [], [], "None".toList, true⟩]
    let s := Runs.run (step srv) fresh [.activate {}, .ctrlSlash, .key 0x4A]
    let result := s.onKeyDown srv {} 0 VK_BACK {}
    result.exit = .returned ∧ result.pfEaten = false ∧
      s.exchangesSince result.ime ≠ [] ∧ s.sessionsSince result.ime ≠ [] ∧
      (s.text.contexts 0).text = Utf16.encode "(j)".toList ∧ (result.ime.text.contexts 0).text = [] := by
  decide +kernel

end CTCodeIME

end TCodeIME
