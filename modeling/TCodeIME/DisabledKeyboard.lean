import TCodeIME.TestKeyDown

namespace TCodeIME

variable {E : Type}

/-- The way to the focused context and what its two compartments hold; `none` stands for a value of
another type than `VT_I4` and for a compartment that cannot be read. -/
structure FocusedContext where
  getFocus : Bool := true
  getTop : Bool := true
  queryCompartmentMgr : Bool := true
  keyboardDisabled : Option UInt32 := none
  emptyContext : Option UInt32 := none

def isCompartmentTrue (val : Option UInt32) : Bool := val.any (· != 0)

structure IgnoredKey (wParam : ℕ) (r : BufferStatusResponse) : Prop where
  notCharacter : isCharacterKey wParam = false
  back : wParam = VK_BACK →
    (r.isLastKeyEmpty && r.isBufferEmpty && r.isOutputBufferEmpty) = true
  converts : wParam = VK_SPACE ∨ wParam = VK_LEFT ∨ wParam = VK_RIGHT →
    r.candidates = [] ∧ r.isBufferEmpty = true
  lists : wParam = VK_UP ∨ wParam = VK_DOWN ∨ wParam = VK_NEXT ∨ wParam = VK_PRIOR ∨
    wParam = VK_RETURN → r.candidates = []

theorem ignoredKey_iff {wParam : ℕ} {r : BufferStatusResponse} :
    IgnoredKey wParam r ↔
      isCharacterKey wParam = false ∧
      (wParam = VK_BACK → (r.isLastKeyEmpty && r.isBufferEmpty && r.isOutputBufferEmpty) = true) ∧
      (wParam = VK_SPACE ∨ wParam = VK_LEFT ∨ wParam = VK_RIGHT →
        r.candidates = [] ∧ r.isBufferEmpty = true) ∧
      (wParam = VK_UP ∨ wParam = VK_DOWN ∨ wParam = VK_NEXT ∨ wParam = VK_PRIOR ∨
        wParam = VK_RETURN → r.candidates = []) :=
  ⟨fun h => ⟨h.notCharacter, h.back, h.converts, h.lists⟩, fun h => ⟨h.1, h.2.1, h.2.2.1, h.2.2.2⟩⟩

namespace CTCodeIME

def isKeyboardDisabled (f : FocusedContext) (s : CTCodeIME E) : Bool :=
  if !s.pThreadMgr then true
  else if !f.getFocus then true
  else if !f.getTop then true
  else if !f.queryCompartmentMgr then true
  else if isCompartmentTrue f.keyboardDisabled then true
  else isCompartmentTrue f.emptyContext

structure LeavesAlone (srv : Server E) (o : KeyOutcomes) (pic : ContextId) (wParam : ℕ)
    (keys : Modifiers) (s : CTCodeIME E) : Prop where
  test : s.onTestKeyDown o.compartment wParam keys = false
  pfEaten : (s.onKeyDown srv o pic wParam keys).pfEaten = false
  requests : s.exchangesSince (s.onKeyDown srv o pic wParam keys).ime = []
  log : (s.onKeyDown srv o pic wParam keys).ime.client.log = s.client.log
  sessions : s.sessionsSince (s.onKeyDown srv o pic wParam keys).ime = []

theorem leavesAlone_iff (srv : Server E) (o : KeyOutcomes) (pic : ContextId) (wParam : ℕ)
    (keys : Modifiers) (s : CTCodeIME E) :
    s.LeavesAlone srv o pic wParam keys ↔
      s.onTestKeyDown o.compartment wParam keys = false ∧
        (s.keystroke o.compartment wParam keys).acts = false := by
  constructor
  · intro h
    refine ⟨h.test, ?_⟩
    by_contra hacts
    rw [Bool.not_eq_false] at hacts
    by_cases hback : s.keystroke o.compartment wParam keys = .back
    · have hrequests := h.requests
      rw [exchangesSince_onKeyDown, exchanges_eq_nil_iff, hback] at hrequests
      cases hrequests
    · have heaten := h.pfEaten
      rw [pfEaten_of_acts hacts hback] at heaten
      cases heaten
  · rintro ⟨htest, hacts⟩
    cases hk : s.keystroke o.compartment wParam keys with
    | passed =>
      have hdown := onKeyDown_of_passed srv pic hk
      refine ⟨htest, ?_, ?_, ?_, ?_⟩ <;> rw [hdown]
      · exact List.drop_length
      · exact List.drop_length
    | idle =>
      obtain ⟨u, hdown⟩ := onKeyDown_of_idle srv pic hk
      refine ⟨htest, ?_, ?_, ?_, ?_⟩ <;> rw [hdown]
      · exact List.drop_length
      · exact List.drop_length
    | _ =>
      rw [hk] at hacts
      cases hacts

theorem onTestKeyDown_eq_false_iff {o : CompartmentOutcomes} {wParam : ℕ} {keys : Modifiers}
    {s : CTCodeIME E} (hslash : keys.isCtrlSlash wParam = false) (hmode : s.getInputMode o = .tcode)
    (hheld : keys.held = false) :
    s.onTestKeyDown o wParam keys = false ∧ ¬ differs wParam s.client.lastResponse ↔
      IgnoredKey wParam s.client.lastResponse := by
  unfold onTestKeyDown
  dsimp only
  rw [if_neg (by simp [hslash]), if_neg (by simp [hmode]), if_neg (by simp [hheld]), ignoredKey_iff]
  generalize s.client.lastResponse = r
  by_cases hchar : isCharacterKey wParam = true
  · rw [if_pos hchar]
    simp [hchar]
  rw [if_neg hchar]
  have hnot : isCharacterKey wParam = false := by simpa using hchar
  have hcandidates := r.hasCandidates_eq_false
  by_cases hspace : wParam = VK_SPACE
  · subst hspace
    rw [if_pos rfl]
    cases hc : r.hasCandidates with
    | true =>
      have hne := (r.hasCandidates_eq_true).mp hc
      simp [hne]
    | false =>
      have hnil := hcandidates.mp hc
      cases hb : r.isBufferEmpty with
      | true => simp [differs, hnot, hnil, hb, BufferStatusResponse.getBuffer_eq_nil_of_isBufferEmpty hb]
      | false => cases hw : r.getBuffer <;> simp [differs, hnil, hb, hw]
  rw [if_neg hspace]
  by_cases harrow : wParam = VK_LEFT ∨ wParam = VK_RIGHT
  · rw [if_pos (by tauto)]
    cases hc : r.hasCandidates with
    | true =>
      have hne := (r.hasCandidates_eq_true).mp hc
      rcases harrow with rfl | rfl <;> simp [hne]
    | false =>
      have hnil := hcandidates.mp hc
      rcases harrow with rfl | rfl <;> cases hb : r.isBufferEmpty <;> simp [differs, hnot, hnil, hb]
  by_cases hupdown : wParam = VK_UP ∨ wParam = VK_DOWN
  · rw [if_pos (by tauto)]
    cases hc : r.hasCandidates with
    | true =>
      have hne := (r.hasCandidates_eq_true).mp hc
      rcases hupdown with rfl | rfl <;> simp [hne]
    | false =>
      have hnil := hcandidates.mp hc
      rcases hupdown with rfl | rfl <;> simp [differs, hnot, hnil]
  rw [if_neg (by tauto)]
  by_cases hreturn : wParam = VK_RETURN
  · subst hreturn
    simp [differs, hnot, hcandidates]
  rw [if_neg hreturn]
  by_cases hback : wParam = VK_BACK
  · subst hback
    simp [differs, hnot]
  rw [if_neg hback]
  simp only [not_or] at harrow hupdown
  have hpages : wParam = VK_NEXT ∨ wParam = VK_PRIOR ↔ wParam = VK_PRIOR ∨ wParam = VK_NEXT := or_comm
  simp [differs, hnot, hspace, hback, hreturn, harrow, hupdown, hpages]

theorem leavesAlone_iff_ignoredKey (srv : Server E) (o : KeyOutcomes) (pic : ContextId) (wParam : ℕ)
    (keys : Modifiers) (s : CTCodeIME E) (hslash : keys.isCtrlSlash wParam = false) :
    s.LeavesAlone srv o pic wParam keys ↔
      (s.getInputMode o.compartment = .tcode → keys.held = false →
        IgnoredKey wParam s.client.lastResponse) := by
  have hagrees := onTestKeyDown_eq_acts_iff o.compartment wParam keys s
  rw [leavesAlone_iff]
  by_cases hactive : s.getInputMode o.compartment = .tcode ∧ keys.held = false
  · obtain ⟨hmode, hheld⟩ := hactive
    simp only [hmode, hheld, true_implies] at hagrees ⊢
    rw [← onTestKeyDown_eq_false_iff hslash hmode hheld, ← hagrees]
    constructor
    · rintro ⟨htest, hacts⟩
      exact ⟨htest, htest.trans hacts.symm⟩
    · rintro ⟨htest, heq⟩
      exact ⟨htest, heq.symm.trans htest⟩
  · have htest : s.onTestKeyDown o.compartment wParam keys = false := by
      unfold onTestKeyDown
      dsimp only
      rw [if_neg (by simp [hslash])]
      cases hmode : s.getInputMode o.compartment with
      | direct => rfl
      | tcode =>
        have hheld : keys.held = true := by
          by_contra hnot
          exact hactive ⟨hmode, by simpa using hnot⟩
        rw [if_neg (by simp), if_pos hheld]
    have hacts := hagrees.mpr fun hmode hheld => absurd ⟨hmode, hheld⟩ hactive
    exact iff_of_true ⟨htest, hacts.symm.trans htest⟩ fun hmode hheld => absurd ⟨hmode, hheld⟩ hactive

/-- `_IsKeyboardDisabled` has no caller: with the keyboard disabled the handlers leave alone the keys
they leave alone anyway. -/
theorem disabled_keyboard_left_alone_iff (srv : Server E) (o : KeyOutcomes) (pic : ContextId)
    (wParam : ℕ) (keys : Modifiers) (f : FocusedContext) (s : CTCodeIME E)
    (hslash : keys.isCtrlSlash wParam = false) :
    (s.isKeyboardDisabled f = true → s.LeavesAlone srv o pic wParam keys) ↔
      (s.isKeyboardDisabled f = true → s.getInputMode o.compartment = .tcode → keys.held = false →
        IgnoredKey wParam s.client.lastResponse) := by
  rw [leavesAlone_iff_ignoredKey srv o pic wParam keys s hslash]

theorem disabled_keyboard_ignores_idle_return :
    let s := Runs.run (step (Server.scripted [])) fresh [.activate {}, .ctrlSlash]
    s.isKeyboardDisabled { keyboardDisabled := some 1 } = true ∧
      s.LeavesAlone (Server.scripted []) {} 0 VK_RETURN {} := by
  have h := (disabled_keyboard_left_alone_iff (Server.scripted []) {} 0 VK_RETURN {}
    { keyboardDisabled := some 1 }
    (Runs.run (step (Server.scripted [])) fresh [.activate {}, .ctrlSlash]) rfl).mpr
    fun _ _ _ => ⟨by decide, by decide, by decide, fun _ => by decide +kernel⟩
  exact ⟨by decide +kernel, h (by decide +kernel)⟩

theorem disabled_keyboard_sends_stroke :
    let srv := Server.scripted [.status ⟨[], [], [], "Some(j)".toList, true⟩]
    let s := Runs.run (step srv) fresh [.activate {}, .ctrlSlash]
    let result := s.onKeyDown srv {} 0 0x4A {}
    s.isKeyboardDisabled { keyboardDisabled := some 1 } = true ∧
      s.onTestKeyDown {} 0x4A {} = true ∧ result.pfEaten = true ∧
      s.exchangesSince result.ime ≠ [] ∧ result.ime.client.log ≠ s.client.log ∧
      s.sessionsSince result.ime ≠ [] ∧ ¬ s.LeavesAlone srv {} 0 0x4A {} := by
  intro srv s result
  have heaten : result.pfEaten = true := by decide +kernel
  refine ⟨by decide +kernel, by decide +kernel, heaten, by decide +kernel, by decide +kernel,
    by decide +kernel, ?_⟩
  intro h
  have hnot := h.pfEaten
  rw [show (s.onKeyDown srv {} 0 0x4A {}).pfEaten = true from heaten] at hnot
  cases hnot

end CTCodeIME

end TCodeIME
