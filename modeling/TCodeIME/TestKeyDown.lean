import TCodeIME.ScriptedServer

/-!
`OnTestKeyDown` against `OnKeyDown`.
-/

namespace TCodeIME

def Keystroke.acts : Keystroke → Bool
  | .passed => false
  | .idle => false
  | _ => true

variable {E : Type}

namespace CTCodeIME

def actsOn (o : CompartmentOutcomes) (s : CTCodeIME E) (result : KeyResult E) : Prop :=
  s.exchangesSince result.ime ≠ [] ∨ s.sessionsSince result.ime ≠ [] ∨
    result.ime.selectedIndex ≠ s.selectedIndex ∨ result.ime.getInputMode o ≠ s.getInputMode o ∨
    result.pfEaten = true

/-- The keys on which the two functions differ: a page key with candidates, a key of the OEM block
without a character, and Space on a buffer that starts with `U+0000`. -/
def differs (wParam : ℕ) (r : BufferStatusResponse) : Prop :=
  ((wParam = VK_PRIOR ∨ wParam = VK_NEXT) ∧ r.candidates ≠ []) ∨
    (isCharacterKey wParam = true ∧ inputChar wParam = none) ∨
    (wParam = VK_SPACE ∧ r.candidates = [] ∧ r.isBufferEmpty = false ∧ r.getBuffer = [])

instance (o : CompartmentOutcomes) (s : CTCodeIME E) (result : KeyResult E) :
    Decidable (s.actsOn o result) := inferInstanceAs (Decidable (_ ∨ _ ∨ _ ∨ _ ∨ _))

theorem pfEaten_of_acts {srv : Server E} {o : KeyOutcomes} {pic : ContextId} {wParam : ℕ}
    {keys : Modifiers} {s : CTCodeIME E} (h : (s.keystroke o.compartment wParam keys).acts = true)
    (hback : s.keystroke o.compartment wParam keys ≠ .back) :
    (s.onKeyDown srv o pic wParam keys).pfEaten = true := by
  have heaten (r : BufferStatusResponse) :
      (s.keystroke o.compartment wParam keys).eaten o.pastEnd r = true := by
    revert h hback
    cases s.keystroke o.compartment wParam keys <;> simp [Keystroke.acts, Keystroke.eaten]
  obtain ⟨log, ⟨-, -, what, hk⟩ | ⟨-, -, hk⟩ | ⟨-, t, u, -, -, hk⟩⟩ :=
    onKeyDown_cases srv o pic wParam keys s
  · rw [hk]
  · rw [hk]
    exact heaten _
  · rw [hk]
    exact heaten _

theorem pfEaten_of_not_acts {srv : Server E} {o : KeyOutcomes} {pic : ContextId} {wParam : ℕ}
    {keys : Modifiers} {s : CTCodeIME E} (h : (s.keystroke o.compartment wParam keys).acts = false) :
    (s.onKeyDown srv o pic wParam keys).pfEaten = false := by
  cases hk : s.keystroke o.compartment wParam keys with
  | passed => rw [onKeyDown_of_passed srv pic hk]
  | idle =>
    obtain ⟨u, hu⟩ := onKeyDown_of_idle srv pic hk
    rw [hu]
  | _ =>
    rw [hk] at h
    cases h

theorem actsOn_iff (srv : Server E) (o : KeyOutcomes) (pic : ContextId) (wParam : ℕ) (keys : Modifiers)
    (s : CTCodeIME E) :
    s.actsOn o.compartment (s.onKeyDown srv o pic wParam keys) ↔
      (s.keystroke o.compartment wParam keys).acts = true := by
  by_cases hback : s.keystroke o.compartment wParam keys = .back
  · rw [hback]
    refine iff_of_true (.inl ?_) rfl
    rw [exchangesSince_onKeyDown, hback, ne_eq, exchanges_eq_nil_iff]
    simp [Keystroke.request]
  constructor
  · intro h
    cases hk : s.keystroke o.compartment wParam keys with
    | passed =>
      rw [onKeyDown_of_passed srv pic hk] at h
      simp [actsOn, exchangesSince, sessionsSince] at h
    | idle =>
      obtain ⟨u, hu⟩ := onKeyDown_of_idle srv pic hk
      rw [hu] at h
      simp [actsOn, exchangesSince, sessionsSince, getInputMode] at h
    | _ => rfl
  · exact fun h => .inr (.inr (.inr (.inr (pfEaten_of_acts h hback))))

theorem isCharacterKey_special : ∀ wParam ∈ [VK_BACK, VK_SPACE, VK_PRIOR, VK_NEXT, VK_LEFT, VK_RIGHT,
    VK_UP, VK_DOWN, VK_RETURN], isCharacterKey wParam = false := by
  decide

section Classes

variable {wParam : ℕ} {r : BufferStatusResponse}

theorem not_differs_back : ¬ differs VK_BACK r := by
  have hcharacter : isCharacterKey VK_BACK = false := rfl
  simp [differs, hcharacter]

theorem differs_character_iff (h : isCharacterKey wParam = true) :
    differs wParam r ↔ inputChar wParam = none := by
  have hspecial : wParam ≠ VK_SPACE ∧ wParam ≠ VK_PRIOR ∧ wParam ≠ VK_NEXT := by
    refine ⟨?_, ?_, ?_⟩ <;> (rintro rfl; rw [isCharacterKey_special _ (by decide)] at h; cases h)
  simp [differs, h, hspecial]

theorem differs_space_iff :
    differs VK_SPACE r ↔ r.candidates = [] ∧ r.isBufferEmpty = false ∧ r.getBuffer = [] := by
  have hcharacter : isCharacterKey VK_SPACE = false := rfl
  simp [differs, hcharacter]

theorem differs_page_iff (h : wParam = VK_NEXT ∨ wParam = VK_PRIOR) : differs wParam r ↔ r.candidates ≠ [] := by
  have hcharacter : isCharacterKey VK_NEXT = false ∧ isCharacterKey VK_PRIOR = false := ⟨rfl, rfl⟩
  rcases h with rfl | rfl <;> simp [differs, hcharacter]

end Classes

/-! The two functions on one class of keys after the other. -/

section Keys

variable {o : CompartmentOutcomes} {wParam : ℕ} {keys : Modifiers} {s : CTCodeIME E}

theorem held_of_isCtrlSlash (h : keys.isCtrlSlash wParam = true) : keys.held = true := by
  simp only [Modifiers.isCtrlSlash, Bool.and_eq_true] at h
  simp [Modifiers.held, h.1.1.1]

theorem onTestKeyDown_guarded (h : s.getInputMode o = .direct ∨ keys.held = true) :
    s.onTestKeyDown o wParam keys = (s.keystroke o wParam keys).acts := by
  unfold onTestKeyDown keystroke
  dsimp only
  by_cases hslash : keys.isCtrlSlash wParam = true
  · rw [if_pos hslash, if_pos hslash]
    split_ifs <;> rfl
  rw [if_neg hslash, if_neg hslash]
  by_cases hdirect : s.getInputMode o = .direct
  · rw [if_pos hdirect, if_pos hdirect]
    rfl
  · have hheld := h.resolve_left hdirect
    rw [if_neg hdirect, if_neg hdirect, if_pos hheld, if_pos hheld]
    rfl

variable (hmode : s.getInputMode o = .tcode) (hheld : keys.held = false)

include hmode hheld

theorem onTestKeyDown_unguarded (wParam : ℕ) :
    keys.isCtrlSlash wParam = false ∧ s.getInputMode o ≠ .direct ∧ keys.held = false := by
  refine ⟨?_, by rw [hmode]; nofun, hheld⟩
  cases hslash : keys.isCtrlSlash wParam with
  | false => rfl
  | true => exact absurd (held_of_isCtrlSlash hslash) (by simp [hheld])

theorem onTestKeyDown_back :
    s.onTestKeyDown o VK_BACK keys = (s.keystroke o VK_BACK keys).acts := by
  obtain ⟨hslash, hdirect, hheld⟩ := onTestKeyDown_unguarded hmode hheld VK_BACK
  have hcharacter : isCharacterKey VK_BACK = false := rfl
  unfold onTestKeyDown keystroke
  generalize s.client.lastResponse = r
  cases hempty : r.isLastKeyEmpty && r.isBufferEmpty && r.isOutputBufferEmpty <;>
    simp [hslash, hdirect, hheld, hcharacter, hempty, Keystroke.acts]

theorem onTestKeyDown_character_iff (h : isCharacterKey wParam = true) :
    s.onTestKeyDown o wParam keys = (s.keystroke o wParam keys).acts ↔ inputChar wParam ≠ none := by
  obtain ⟨hslash, hdirect, hheld⟩ := onTestKeyDown_unguarded hmode hheld wParam
  have hback : wParam ≠ VK_BACK := by
    rintro rfl
    cases h
  unfold onTestKeyDown keystroke
  cases inputChar wParam <;> simp [hslash, hdirect, hheld, hback, h, Keystroke.acts]

theorem onTestKeyDown_space_iff :
    s.onTestKeyDown o VK_SPACE keys = (s.keystroke o VK_SPACE keys).acts ↔
      ¬ differs VK_SPACE s.client.lastResponse := by
  obtain ⟨hslash, hdirect, hheld⟩ := onTestKeyDown_unguarded hmode hheld VK_SPACE
  have hkey : isCharacterKey VK_SPACE = false ∧ VK_SPACE ≠ VK_BACK := ⟨rfl, by decide⟩
  rw [differs_space_iff, ← s.client.lastResponse.hasCandidates_eq_false]
  unfold onTestKeyDown keystroke
  generalize s.client.lastResponse = r
  cases hc : r.hasCandidates with
  | true => simp [hslash, hdirect, hheld, hkey, hc, Keystroke.acts]
  | false =>
    cases hb : r.isBufferEmpty with
    | true =>
      simp [hslash, hdirect, hheld, hkey, hc, hb, Keystroke.acts,
        BufferStatusResponse.getBuffer_eq_nil_of_isBufferEmpty hb]
    | false =>
      cases hw : r.getBuffer <;> simp [hslash, hdirect, hheld, hkey, hc, hb, hw, Keystroke.acts]

/-- The test has no branch for the page keys. -/
theorem onTestKeyDown_page_iff (h : wParam = VK_NEXT ∨ wParam = VK_PRIOR) :
    s.onTestKeyDown o wParam keys = (s.keystroke o wParam keys).acts ↔
      s.client.lastResponse.hasCandidates = false := by
  obtain ⟨hslash, hdirect, hheld⟩ := onTestKeyDown_unguarded hmode hheld wParam
  have hkey : isCharacterKey wParam = false ∧ wParam ≠ VK_BACK ∧ wParam ≠ VK_SPACE ∧ wParam ≠ VK_LEFT ∧
      wParam ≠ VK_RIGHT ∧ wParam ≠ VK_UP ∧ wParam ≠ VK_DOWN ∧ wParam ≠ VK_RETURN := by
    rcases h with rfl | rfl <;> decide
  unfold onTestKeyDown keystroke
  generalize s.client.lastResponse = r
  cases hc : r.hasCandidates <;> cases hb : r.isBufferEmpty <;>
    simp [hslash, hdirect, hheld, hkey, h, hc, hb, Keystroke.acts]

theorem onTestKeyDown_arrow (h : wParam = VK_LEFT ∨ wParam = VK_RIGHT ∨ wParam = VK_UP ∨ wParam = VK_DOWN) :
    s.onTestKeyDown o wParam keys = (s.keystroke o wParam keys).acts := by
  obtain ⟨hslash, hdirect, hheld⟩ := onTestKeyDown_unguarded hmode hheld wParam
  unfold onTestKeyDown keystroke
  generalize s.client.lastResponse = r
  simp only [hslash, hdirect, hheld, Bool.false_eq_true, if_false]
  rcases h with rfl | rfl | rfl | rfl <;> cases r.hasCandidates <;> cases r.isBufferEmpty <;> rfl

theorem onTestKeyDown_return :
    s.onTestKeyDown o VK_RETURN keys = (s.keystroke o VK_RETURN keys).acts := by
  obtain ⟨hslash, hdirect, hheld⟩ := onTestKeyDown_unguarded hmode hheld VK_RETURN
  unfold onTestKeyDown keystroke
  generalize s.client.lastResponse = r
  simp only [hslash, hdirect, hheld, Bool.false_eq_true, if_false]
  cases r.hasCandidates <;> rfl

theorem onTestKeyDown_other (hchar : isCharacterKey wParam = false) (hback : wParam ≠ VK_BACK)
    (hspace : wParam ≠ VK_SPACE) (hreturn : wParam ≠ VK_RETURN)
    (hnav : ¬ (wParam = VK_LEFT ∨ wParam = VK_RIGHT ∨ wParam = VK_UP ∨ wParam = VK_DOWN ∨
      wParam = VK_NEXT ∨ wParam = VK_PRIOR)) :
    s.onTestKeyDown o wParam keys = (s.keystroke o wParam keys).acts := by
  obtain ⟨hslash, hdirect, hheld⟩ := onTestKeyDown_unguarded hmode hheld wParam
  simp only [not_or] at hnav
  simp [onTestKeyDown, keystroke, hslash, hdirect, hheld, hchar, hback, hspace, hnav, hreturn, Keystroke.acts]

end Keys

theorem onTestKeyDown_eq_acts_iff (o : CompartmentOutcomes) (wParam : ℕ) (keys : Modifiers)
    (s : CTCodeIME E) :
    s.onTestKeyDown o wParam keys = (s.keystroke o wParam keys).acts ↔
      (s.getInputMode o = .tcode → keys.held = false → ¬ differs wParam s.client.lastResponse) := by
  cases hmode : s.getInputMode o with
  | direct => exact iff_of_true (onTestKeyDown_guarded (.inl hmode)) nofun
  | tcode =>
    cases hheld : keys.held with
    | true => exact iff_of_true (onTestKeyDown_guarded (.inr hheld)) nofun
    | false =>
      simp only [true_implies]
      by_cases hback : wParam = VK_BACK
      · subst hback
        exact iff_of_true (onTestKeyDown_back hmode hheld) not_differs_back
      cases hchar : isCharacterKey wParam with
      | true => rw [onTestKeyDown_character_iff hmode hheld hchar, differs_character_iff hchar]
      | false =>
        by_cases hspace : wParam = VK_SPACE
        · subst hspace
          exact onTestKeyDown_space_iff hmode hheld
        by_cases hpage : wParam = VK_NEXT ∨ wParam = VK_PRIOR
        · rw [onTestKeyDown_page_iff hmode hheld hpage, differs_page_iff hpage,
            s.client.lastResponse.hasCandidates_eq_false, not_not]
        rw [not_or] at hpage
        have hdiffers : ¬ differs wParam s.client.lastResponse := by
          simp [differs, hpage, hchar, hspace]
        refine iff_of_true ?_ hdiffers
        by_cases harrow : wParam = VK_LEFT ∨ wParam = VK_RIGHT ∨ wParam = VK_UP ∨ wParam = VK_DOWN
        · exact onTestKeyDown_arrow hmode hheld harrow
        by_cases hreturn : wParam = VK_RETURN
        · subst hreturn
          exact onTestKeyDown_return hmode hheld
        · exact onTestKeyDown_other hmode hheld hchar hback hspace hreturn (by tauto)

theorem test_agrees_iff (srv : Server E) (o : KeyOutcomes) (pic : ContextId) (wParam : ℕ)
    (keys : Modifiers) (s : CTCodeIME E) :
    ((s.actsOn o.compartment (s.onKeyDown srv o pic wParam keys) →
        s.onTestKeyDown o.compartment wParam keys = true) ∧
      (s.onTestKeyDown o.compartment wParam keys = true → wParam ≠ VK_BACK →
        (s.onKeyDown srv o pic wParam keys).pfEaten = true)) ↔
    (s.getInputMode o.compartment = .tcode → keys.held = false →
      ¬ differs wParam s.client.lastResponse) := by
  have hadmits := keystroke_admits o.compartment wParam keys s
  rw [← onTestKeyDown_eq_acts_iff, actsOn_iff]
  constructor
  · rintro ⟨hclaimed, heaten⟩
    cases hacts : (s.keystroke o.compartment wParam keys).acts with
    | true => exact hclaimed hacts
    | false =>
      by_cases hback : wParam = VK_BACK
      · rw [← hacts, onTestKeyDown_eq_acts_iff]
        rw [hback]
        have hcharacter : isCharacterKey VK_BACK = false := rfl
        simp [differs, hcharacter]
      · by_contra htest
        have := heaten (by simpa using htest) hback
        rw [pfEaten_of_not_acts hacts] at this
        cases this
  · intro heq
    refine ⟨fun hacts => heq.trans hacts, fun htest hback => pfEaten_of_acts (heq ▸ htest) ?_⟩
    intro hk
    rw [hk] at hadmits
    exact hback hadmits.2

theorem page_key_unclaimed :
    let srv := Server.scripted [.status ⟨[], "か".toList, ["化".toList, "下".toList], "None".toList, true⟩]
    let s := Runs.run (step srv) fresh [.activate {}, .ctrlSlash, .key 0x4A]
    let result := s.onKeyDown srv {} 0 VK_NEXT {}
    s.onTestKeyDown {} VK_NEXT {} = false ∧ s.actsOn {} result ∧
      result.ime.selectedIndex ≠ s.selectedIndex ∧ result.pfEaten = true := by
  decide +kernel

end CTCodeIME

end TCodeIME
