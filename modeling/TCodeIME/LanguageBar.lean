import TCodeIME.DirectMode
import TCodeIME.ScriptedServer

/-!
The mode button on the language bar, and the mode it shows there.
-/

namespace TCodeIME

open Runs

def IDI_ICON_MODE_TCODE : ℕ := 102
def IDI_ICON_MODE_DIRECT : ℕ := 103

structure ModeDisplay where
  text : String
  tooltip : String
  icon : ℕ
deriving DecidableEq

namespace CTCodeModeButton

def getText (currentMode : InputMode) : String := if currentMode = .tcode then "漢" else "A"

def getTooltipString (currentMode : InputMode) : String :=
  if currentMode = .tcode then "T-Code IME Mode (漢)" else "Direct Input Mode (A)"

def getIcon (currentMode : InputMode) : ℕ :=
  if currentMode = .tcode then IDI_ICON_MODE_TCODE else IDI_ICON_MODE_DIRECT

def display (currentMode : InputMode) : ModeDisplay :=
  ⟨getText currentMode, getTooltipString currentMode, getIcon currentMode⟩

theorem display_inj {m m' : InputMode} : display m = display m' ↔ m = m' := by
  constructor
  · intro h
    have hicon : getIcon m = getIcon m' := congrArg ModeDisplay.icon h
    revert hicon
    cases m <;> cases m' <;> decide
  · rintro rfl
    rfl

end CTCodeModeButton

/-- Whether the language bar can read the mode in the getters of the button, whether the compartment sinks
are advised by an activation or unadvised by a deactivation, and whether `RemoveItem` succeeds. -/
structure BarOutcomes where
  fetch : Bool := true
  openCloseSink : Bool := true
  conversionSink : Bool := true
  removeItem : Bool := true

variable {E : Type}

/-- The text service with its compartment sinks, what the language bar last fetched of the button, and
what it was left with of buttons that are gone. -/
structure LanguageBar (E : Type) where
  ime : CTCodeIME E
  openCloseSink : Bool := false
  conversionSink : Bool := false
  item : Option ModeDisplay := none
  left : List ModeDisplay := []

namespace LanguageBar

open CTCodeModeButton

def fetched (fetch : Bool) (s : CTCodeIME E) : ModeDisplay := display (s.getInputMode { getConversion := fetch })

def updates (s : CTCodeIME E) : ℕ := s.pModeButton.elim 0 CTCodeModeButton.updates

/-- An `OnUpdate` makes the language bar call the getters of the button again. -/
def receive (fetch : Bool) (s : CTCodeIME E) (b : LanguageBar E) : LanguageBar E :=
  { b with
    ime := s
    item := if updates s = updates b.ime then b.item else b.item.map fun _ => fetched fetch s }

def advised (guid : CompartmentGuid) (b : LanguageBar E) : Bool :=
  match guid with
  | .openClose => b.openCloseSink
  | .conversion => b.conversionSink

/-- `SetValue` of a compartment, by whomever, with the `OnChange` that it causes. -/
def setValue (fetch : Bool) (guid : CompartmentGuid) (val : Option UInt32) (b : LanguageBar E) :
    LanguageBar E :=
  let s := { b.ime with compartments := b.ime.compartments.write guid val }
  b.receive fetch (if b.advised guid then s.onChange guid else s)

def setInputMode (o : CompartmentOutcomes) (fetch : Bool) (mode : InputMode) (b : LanguageBar E) :
    LanguageBar E :=
  if b.ime.pThreadMgr ∧ o.setOpenClose then
    let b := b.setValue fetch .openClose (some 1)
    if o.setConversion then b.setValue fetch .conversion (some (Compartments.conversionValue mode)) else b
  else b

/-- `ActivateEx` up to the compartment sinks. -/
def addItem (o : ActivationOutcomes) (x : BarOutcomes) (b : LanguageBar E) : LanguageBar E :=
  let button := b.ime.pModeButton.getD {}
  let s :=
    { b.ime with
      pThreadMgr := true
      pModeButton := some { button with pSink := button.pSink || o.addItem } }
  { b with
    ime := s
    openCloseSink := b.openCloseSink || x.openCloseSink
    conversionSink := b.conversionSink || x.conversionSink
    item := if o.addItem then some (fetched x.fetch s) else b.item }

def activateEx (o : ActivationOutcomes) (x : BarOutcomes) (b : LanguageBar E) : LanguageBar E :=
  (b.addItem o x).setInputMode o.compartment x.fetch .direct

def deactivate (o : UIOutcomes) (x : BarOutcomes) (b : LanguageBar E) : LanguageBar E :=
  if b.ime.pThreadMgr then
    { ime := (b.ime.deactivate o).getD b.ime
      openCloseSink := b.openCloseSink && !x.openCloseSink
      conversionSink := b.conversionSink && !x.conversionSink
      item := none
      left := if x.removeItem then b.left else b.left ++ b.item.toList }
  else b

/-- A key press and a click end with an `UpdateIcon` of their own where they change the mode, so what the
compartments report in between is not modelled there. -/
def step (srv : Server E) (b : LanguageBar E) : Event × BarOutcomes → LanguageBar E
  | (.change guid val, x) => b.setValue x.fetch guid val
  | (.activate o, x) => b.activateEx o x
  | (.deactivate o, x) => b.deactivate o x
  | (e, x) => b.receive x.fetch (b.ime.step srv e)

structure Current (b : LanguageBar E) : Prop where
  left : b.left = []
  item : ∀ d, b.item = some d → d = display (b.ime.getInputMode {})

/-- `ActivateEx` finds the text service inactive, and the getters of the button can read the mode. -/
def allowed (b : LanguageBar E) : Event × BarOutcomes → Prop
  | (.activate _, x) => x.fetch = true ∧ b.ime.pThreadMgr = false
  | (_, x) => x.fetch = true

def keepsDisplay (b : LanguageBar E) : Event × BarOutcomes → Prop
  | (.change .conversion val, _) =>
    b.item.isSome → b.conversionSink = true ∨
      (b.ime.compartments.write .conversion val).getInputMode {} b.ime.pThreadMgr = b.ime.getInputMode {}
  | (.activate o, x) =>
    o.addItem = true → (b.conversionSink || x.conversionSink) = true ∨
      b.ime.compartments.getInputMode {} true = .direct ∨
      (o.compartment.setOpenClose && o.compartment.setConversion) = false
  | (.deactivate _, x) => b.item.isSome → x.removeItem = true
  | _ => True

structure Inv (b : LanguageBar E) : Prop extends Current b where
  sink : b.item.isSome → ∃ button, b.ime.pModeButton = some button ∧ button.pSink = true
  active : b.item.isSome → b.ime.pThreadMgr = true

section Receive

variable {b : LanguageBar E} {s : CTCodeIME E}

theorem receive_current_iff (hb : b.Current) :
    (b.receive true s).Current ↔
      (b.item.isSome → updates s ≠ updates b.ime ∨ s.getInputMode {} = b.ime.getInputMode {}) := by
  by_cases hupdates : updates s = updates b.ime
  · have hitem : (b.receive true s).item = b.item := if_pos hupdates
    constructor
    · intro h hsome
      obtain ⟨d, hd⟩ := Option.isSome_iff_exists.mp hsome
      have hnew := h.item d (hitem.trans hd)
      exact Or.inr (display_inj.mp (hnew.symm.trans (hb.item d hd)))
    · intro h
      refine ⟨hb.left, fun d hd => ?_⟩
      rw [hitem] at hd
      rcases h (by rw [hd]; rfl) with hne | hmode
      · exact absurd hupdates hne
      · rw [hb.item d hd]
        exact congrArg display hmode.symm
  · refine iff_of_true ⟨hb.left, fun d hd => ?_⟩ (fun _ => Or.inl hupdates)
    have hitem : (b.receive true s).item = b.item.map fun _ => fetched true s := if_neg hupdates
    rw [hitem, Option.map_eq_some_iff] at hd
    obtain ⟨-, -, rfl⟩ := hd
    rfl

theorem receive_item_isSome (fetch : Bool) : (b.receive fetch s).item.isSome = b.item.isSome := by
  unfold receive
  dsimp only
  split_ifs
  · rfl
  · rw [Option.isSome_map]

theorem inv_receive (hb : b.Inv) (hcurrent : (b.receive true s).Current)
    (hsink : ∀ button, b.ime.pModeButton = some button → button.pSink = true →
      ∃ button', s.pModeButton = some button' ∧ button'.pSink = true)
    (hactive : s.pThreadMgr = b.ime.pThreadMgr) : (b.receive true s).Inv where
  toCurrent := hcurrent
  sink h := by
    rw [receive_item_isSome] at h
    obtain ⟨button, hbutton, hadvised⟩ := hb.sink h
    exact hsink button hbutton hadvised
  active h := by
    rw [receive_item_isSome] at h
    exact hactive.trans (hb.active h)

theorem updateIcon_sink {s : CTCodeIME E} {button : CTCodeModeButton} (h : s.pModeButton = some button)
    (hsink : button.pSink = true) :
    ∃ button', s.updateIcon.pModeButton = some button' ∧ button'.pSink = true ∧
      updates s.updateIcon = updates s + 1 := by
  refine ⟨button.updateIcon, ?_, ?_, ?_⟩
  · simp [CTCodeIME.updateIcon, h]
  · simp [CTCodeModeButton.updateIcon, hsink]
  · simp [updates, CTCodeIME.updateIcon, CTCodeModeButton.updateIcon, h, hsink]

end Receive

section SetValue

variable {b : LanguageBar E} {guid : CompartmentGuid} {val : Option UInt32}

def written (guid : CompartmentGuid) (val : Option UInt32) (b : LanguageBar E) : CTCodeIME E :=
  { b.ime with compartments := b.ime.compartments.write guid val }

theorem setValue_eq (fetch : Bool) :
    b.setValue fetch guid val =
      b.receive fetch (if b.advised guid then (b.written guid val).updateIcon else b.written guid val) := by
  cases guid <;> rfl

theorem setValue_current_iff (hb : b.Inv) :
    (b.setValue true guid val).Current ↔
      (b.item.isSome → b.advised guid = true ∨
        (b.written guid val).getInputMode {} = b.ime.getInputMode {}) := by
  rw [setValue_eq, receive_current_iff hb.toCurrent]
  apply imp_congr_right
  intro hsome
  obtain ⟨button, hbutton, hsink⟩ := hb.sink hsome
  by_cases hadvised : b.advised guid = true
  · obtain ⟨-, -, -, hupdates⟩ := updateIcon_sink (s := b.written guid val) hbutton hsink
    rw [if_pos hadvised]
    refine iff_of_true (Or.inl ?_) (Or.inl hadvised)
    rw [hupdates]
    exact Nat.succ_ne_self _
  · rw [if_neg hadvised]
    constructor
    · rintro (hne | hmode)
      · exact absurd rfl hne
      · exact Or.inr hmode
    · rintro (h | hmode)
      · exact absurd h hadvised
      · exact Or.inr hmode

theorem inv_setValue (hb : b.Inv) (hcurrent : (b.setValue true guid val).Current) :
    (b.setValue true guid val).Inv := by
  rw [setValue_eq] at hcurrent ⊢
  apply inv_receive hb hcurrent
  · intro button hbutton hsink
    split_ifs
    · obtain ⟨button', hbutton', hsink', -⟩ := updateIcon_sink (s := b.written guid val) hbutton hsink
      exact ⟨button', hbutton', hsink'⟩
    · exact ⟨button, hbutton, hsink⟩
  · split_ifs <;> rfl

end SetValue

section SetInputMode

variable {b : LanguageBar E}

theorem setValue_openClose_inv (hb : b.Inv) (val : Option UInt32) :
    (b.setValue true .openClose val).Inv := by
  apply inv_setValue hb
  rw [setValue_current_iff hb]
  exact fun _ => Or.inr rfl

theorem setValue_compartments (fetch : Bool) (guid : CompartmentGuid) (val : Option UInt32) :
    (b.setValue fetch guid val).ime.compartments = b.ime.compartments.write guid val ∧
      (b.setValue fetch guid val).ime.pThreadMgr = b.ime.pThreadMgr := by
  rw [setValue_eq, receive]
  dsimp only
  split_ifs <;> exact ⟨rfl, rfl⟩

theorem setInputMode_direct_iff (hb : b.Inv) (hp : b.ime.pThreadMgr = true) (o : CompartmentOutcomes) :
    ((b.setInputMode o true .direct).Current ↔
        (b.item.isSome → b.conversionSink = true ∨ b.ime.getInputMode {} = .direct ∨
          (o.setOpenClose && o.setConversion) = false)) ∧
      ((b.setInputMode o true .direct).Current → (b.setInputMode o true .direct).Inv) := by
  unfold setInputMode
  by_cases hopen : o.setOpenClose = true
  · rw [if_pos ⟨hp, hopen⟩]
    dsimp only
    have hopened := setValue_openClose_inv hb (some 1)
    by_cases hconversion : o.setConversion = true
    · rw [if_pos hconversion]
      refine ⟨?_, inv_setValue hopened⟩
      rw [setValue_current_iff hopened]
      have hitem : (b.setValue true .openClose (some 1)).item.isSome = b.item.isSome := by
        rw [setValue_eq, receive_item_isSome]
      have hadvised : (b.setValue true .openClose (some 1)).advised .conversion = b.conversionSink := rfl
      have hmode : ((b.setValue true .openClose (some 1)).written .conversion
          (some (Compartments.conversionValue .direct))).getInputMode {} = .direct := by
        unfold written CTCodeIME.getInputMode
        dsimp only
        rw [(setValue_compartments true .openClose (some 1)).2, hp]
        exact (Compartments.getInputMode_write _ _).trans (if_pos (by decide))
      have hbefore : (b.setValue true .openClose (some 1)).ime.getInputMode {} = b.ime.getInputMode {} := by
        obtain ⟨hcompartments, hactive⟩ := setValue_compartments (b := b) true .openClose (some 1)
        rw [CTCodeIME.getInputMode, CTCodeIME.getInputMode, hcompartments, hactive]
        rfl
      rw [hitem, hadvised, hmode, hbefore, hopen, hconversion]
      apply imp_congr_right
      intro _
      constructor
      · rintro (h | h)
        · exact Or.inl h
        · exact Or.inr (Or.inl h.symm)
      · rintro (h | h | h)
        · exact Or.inl h
        · exact Or.inr h.symm
        · cases h
    · rw [if_neg hconversion]
      exact ⟨iff_of_true hopened.toCurrent (by simp [hconversion]), fun _ => hopened⟩
  · rw [if_neg (fun h => hopen h.2)]
    exact ⟨iff_of_true hb.toCurrent (by simp [hopen]), fun _ => hb⟩

end SetInputMode

section Step

variable {srv : Server E} {b : LanguageBar E} {x : BarOutcomes}

theorem activateEx_current_iff (hb : b.Inv) (hidle : b.ime.pThreadMgr = false) (hx : x.fetch = true)
    (o : ActivationOutcomes) :
    ((b.activateEx o x).Current ↔ b.keepsDisplay (.activate o, x)) ∧
      ((b.activateEx o x).Current → (b.activateEx o x).Inv) := by
  have hnone : b.item = none := by
    rw [← Option.not_isSome_iff_eq_none]
    intro hsome
    have hactive := hb.active hsome
    rw [hidle] at hactive
    cases hactive
  have hadded : (b.addItem o x).Inv := by
    refine ⟨⟨hb.left, fun d hd => ?_⟩, fun hsome => ?_, fun _ => rfl⟩
    · unfold addItem at hd
      rw [hnone, hx] at hd
      dsimp only at hd
      split_ifs at hd
      cases hd
      rfl
    · unfold addItem at hsome
      rw [hnone] at hsome
      dsimp only at hsome
      split_ifs at hsome with hadd
      · exact ⟨_, rfl, by rw [hadd, Bool.or_true]⟩
      · cases hsome
  have hitem : (b.addItem o x).item.isSome = true ↔ o.addItem = true := by
    unfold addItem
    rw [hnone]
    dsimp only
    split_ifs with hadd <;> simp [hadd]
  rw [activateEx, hx]
  obtain ⟨hcurrent, hinv⟩ := setInputMode_direct_iff hadded rfl o.compartment
  refine ⟨hcurrent.trans ?_, hinv⟩
  rw [hitem]
  rfl

theorem deactivate_current_iff (hb : b.Inv) (o : UIOutcomes) :
    ((b.deactivate o x).Current ↔ b.keepsDisplay (.deactivate o, x)) ∧
      ((b.deactivate o x).Current → (b.deactivate o x).Inv) := by
  unfold deactivate keepsDisplay
  dsimp only
  by_cases hp : b.ime.pThreadMgr = true
  · rw [if_pos hp]
    constructor
    · constructor
      · intro h hsome
        have hleft := h.left
        dsimp only at hleft
        split_ifs at hleft with hremove
        · exact hremove
        · obtain ⟨d, hd⟩ := Option.isSome_iff_exists.mp hsome
          rw [hd] at hleft
          simp at hleft
      · intro h
        refine ⟨?_, fun d hd => by cases hd⟩
        dsimp only
        cases hitem : b.item with
        | none => simp [hb.left]
        | some d => rw [if_pos (h (by rw [hitem]; rfl)), hb.left]
    · intro h
      refine ⟨h, fun hsome => ?_, fun hsome => ?_⟩
      · cases hsome
      · cases hsome
  · rw [if_neg hp]
    exact ⟨iff_of_true hb.toCurrent fun hsome => absurd (hb.active hsome) hp, fun _ => hb⟩

theorem step_enter (srv : Server E) {e : Event} (s : CTCodeIME E) (hchange : ∀ guid val, e ≠ .change guid val)
    (hactivate : ∀ o, e ≠ .activate o) (hdeactivate : ∀ o, e ≠ .deactivate o) :
    ∃ o mode, (s.step srv e).pThreadMgr = s.pThreadMgr ∧
      (s.step srv e).compartments = (s.enter o mode).compartments ∧
      (s.step srv e).pModeButton = (s.enter o mode).pModeButton := by
  cases e with
  | keyDown o pic wParam keys =>
    refine ⟨o.compartment, (s.effect srv o.pastEnd (s.keystroke o.compartment wParam keys)).mode, ?_⟩
    rw [CTCodeIME.step, CTCodeIME.onKeyDown_eq]
    rcases CTCodeIME.realize_cases o pic _ s (CTCodeIME.effect_list srv o wParam keys s) with
      ⟨what, -, hk⟩ | ⟨-, -, hk⟩ | ⟨t, u, -, -, -, hk⟩
    all_goals
      rw [hk]
      exact ⟨CTCodeIME.enter_pThreadMgr _ _ _, rfl, rfl⟩
  | click o =>
    simp only [CTCodeIME.step, CTCodeIME.onClick, CTCodeIME.toggleInputMode]
    cases s.getInputMode o with
    | direct => exact ⟨o, some .tcode, rfl, rfl, rfl⟩
    | tcode => exact ⟨o, some .direct, rfl, rfl, rfl⟩
  | change guid val => exact absurd rfl (hchange guid val)
  | activate o => exact absurd rfl (hactivate o)
  | deactivate o => exact absurd rfl (hdeactivate o)
  | _ => exact ⟨{}, none, rfl, rfl, rfl⟩

theorem inv_receive_step (hb : b.Inv) {e : Event} (hchange : ∀ guid val, e ≠ .change guid val)
    (hactivate : ∀ o, e ≠ .activate o) (hdeactivate : ∀ o, e ≠ .deactivate o) :
    (b.receive true (b.ime.step srv e)).Inv := by
  obtain ⟨o, mode, hactive, hcompartments, hbutton⟩ :=
    step_enter srv b.ime hchange hactivate hdeactivate
  have hkept : ∀ button, b.ime.pModeButton = some button → button.pSink = true →
      ∃ button', (b.ime.step srv e).pModeButton = some button' ∧ button'.pSink = true ∧
        (mode = none ∨ updates (b.ime.step srv e) ≠ updates b.ime) := by
    intro button h hsink
    rw [updates, hbutton]
    cases mode with
    | none => exact ⟨button, h, hsink, Or.inl rfl⟩
    | some m =>
      obtain ⟨button', hbutton', hsink', hupdates⟩ :=
        updateIcon_sink (s := b.ime.setInputMode o m) h hsink
      refine ⟨button', hbutton', hsink', Or.inr ?_⟩
      change updates (b.ime.setInputMode o m).updateIcon ≠ updates b.ime
      rw [hupdates]
      exact Nat.succ_ne_self _
  apply inv_receive hb _ _ hactive
  · rw [receive_current_iff hb.toCurrent]
    intro hsome
    obtain ⟨button, h, hsink⟩ := hb.sink hsome
    obtain ⟨-, -, -, rfl | hne⟩ := hkept button h hsink
    · right
      rw [CTCodeIME.getInputMode, CTCodeIME.getInputMode, hcompartments, hactive]
      rfl
    · exact Or.inl hne
  · intro button h hsink
    obtain ⟨button', hbutton', hsink', -⟩ := hkept button h hsink
    exact ⟨button', hbutton', hsink'⟩

theorem step_current_iff (hb : b.Inv) {e : Event × BarOutcomes} (he : b.allowed e) :
    ((b.step srv e).Current ↔ b.keepsDisplay e) ∧ ((b.step srv e).Current → (b.step srv e).Inv) := by
  obtain ⟨e, x⟩ := e
  have hquiet (hchange : ∀ guid val, e ≠ .change guid val) (hactivate : ∀ o, e ≠ .activate o)
      (hdeactivate : ∀ o, e ≠ .deactivate o) : (b.receive true (b.ime.step srv e)).Inv :=
    inv_receive_step hb hchange hactivate hdeactivate
  cases e with
  | change guid val =>
    have hx : x.fetch = true := he
    rw [step, hx]
    refine ⟨?_, inv_setValue hb⟩
    rw [setValue_current_iff hb]
    cases guid with
    | openClose => exact iff_of_true (fun _ => Or.inr rfl) trivial
    | conversion => exact Iff.rfl
  | activate o => exact activateEx_current_iff hb he.2 he.1 o
  | deactivate o => exact deactivate_current_iff hb o
  | _ =>
    have hx : x.fetch = true := he
    change ((b.receive x.fetch _).Current ↔ True) ∧
      ((b.receive x.fetch _).Current → (b.receive x.fetch _).Inv)
    rw [hx]
    have hinv := hquiet (by simp) (by simp) (by simp)
    exact ⟨iff_of_true hinv.toCurrent trivial, fun _ => hinv⟩

end Step

end LanguageBar

end TCodeIME
