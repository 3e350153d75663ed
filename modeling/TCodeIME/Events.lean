import TCodeIME.Library.Runs
import TCodeIME.Requests

/-!
The calls the text service receives over its life, from the constructor on.
-/

namespace TCodeIME

inductive CompartmentGuid where
  | openClose
  | conversion
deriving DecidableEq

def Compartments.write (guid : CompartmentGuid) (val : Option UInt32) (c : Compartments) :
    Compartments :=
  match guid with
  | .openClose => { c with openClose := val }
  | .conversion => { c with conversion := val }

structure ActivationOutcomes where
  queryKeystrokeMgr : Bool := true
  addItem : Bool := true
  compartment : CompartmentOutcomes := {}

inductive Event where
  | keyDown (o : KeyOutcomes) (pic : ContextId) (wParam : ℕ) (keys : Modifiers)
  | click (o : CompartmentOutcomes)
  | change (guid : CompartmentGuid) (val : Option UInt32)
  | terminated
  | activate (o : ActivationOutcomes)
  | deactivate (o : UIOutcomes)
  -- what the application does to its own document
  | edited (c : ContextId) (r : Span) (text : WString)
  | selected (c : ContextId) (r : Span)

def Event.isKeyDown : Event → Bool
  | .keyDown _ _ _ _ => true
  | _ => false

def Event.reachesText : Event → Bool
  | .keyDown _ _ _ _ | .terminated | .edited _ _ _ | .selected _ _ => true
  | _ => false

variable {E : Type}

namespace CTCodeIME

/-- The result says whether `S_OK` is returned. -/
def activateEx (o : ActivationOutcomes) (s : CTCodeIME E) : Bool × CTCodeIME E :=
  let button := s.pModeButton.getD {}
  let s :=
    { s with
      pThreadMgr := true
      pModeButton := some { button with pSink := button.pSink || o.addItem } }
  (o.queryKeystrokeMgr, s.setInputMode o.compartment .direct)

def deactivate (o : UIOutcomes) (s : CTCodeIME E) : Option (CTCodeIME E) :=
  if s.pThreadMgr then
    (s.hideCandidateList o).map fun s => { s with pModeButton := none, pThreadMgr := false }
  else some s

def keyboardOpenCloseChanged (s : CTCodeIME E) : CTCodeIME E := s.updateIcon

def keyboardInputConversionChanged (s : CTCodeIME E) : CTCodeIME E := s.updateIcon

def onChange (guid : CompartmentGuid) (s : CTCodeIME E) : CTCodeIME E :=
  match guid with
  | .openClose => s.keyboardOpenCloseChanged
  | .conversion => s.keyboardInputConversionChanged

def onClick (o : CompartmentOutcomes) (s : CTCodeIME E) : CTCodeIME E := s.toggleInputMode o

def onCompositionTerminated (s : CTCodeIME E) : CTCodeIME E := { s with text := s.text.terminate }

def step (srv : Server E) (s : CTCodeIME E) : Event → CTCodeIME E
  | .keyDown o pic wParam keys => (s.onKeyDown srv o pic wParam keys).ime
  | .click o => s.onClick o
  | .change guid val => { s with compartments := s.compartments.write guid val }.onChange guid
  | .terminated => s.onCompositionTerminated
  | .activate o => (s.activateEx o).2
  | .deactivate o => (s.deactivate o).getD s
  | .edited c r text =>
    { s with text := s.text.adjust c (·.replace r text) fun d i => d.isSome_marks_replace r text i }
  | .selected c r =>
    { s with text := s.text.adjust c (·.select r) fun d i => by rw [MarkedText.marks_select] }

/-- An access violation in a key press ends the process, and with it the run. -/
def survives (srv : Server E) (s : CTCodeIME E) : Event → Prop
  | .keyDown o pic wParam keys => (s.onKeyDown srv o pic wParam keys).exit ≠ .accessViolation
  | _ => True

instance (srv : Server E) (s : CTCodeIME E) (e : Event) : Decidable (s.survives srv e) :=
  match e with
  | .keyDown o pic wParam keys =>
    inferInstanceAs (Decidable ((s.onKeyDown srv o pic wParam keys).exit ≠ .accessViolation))
  | .click _ | .change _ _ | .terminated | .activate _ | .deactivate _ | .edited _ _ _ | .selected _ _ =>
    isTrue trivial

section OtherEvents

variable {srv : Server E} {s : CTCodeIME E} {e : Event}

theorem step_of_not_keyDown (h : e.isKeyDown = false) :
    ∃ active compartments text u button, s.step srv e =
        { s with
          pThreadMgr := active
          compartments := compartments
          text := text
          candidateUI := u
          pModeButton := button } ∧
      text.sessions = s.text.sessions ∧
      (e ≠ .terminated → text.pComposition = s.text.pComposition) := by
  cases e with
  | keyDown o pic wParam keys => cases h
  | click o =>
    simp only [step, onClick, toggleInputMode]
    split <;> exact ⟨_, _, _, _, _, rfl, rfl, fun _ => rfl⟩
  | change guid val => cases guid <;> exact ⟨_, _, _, _, _, rfl, rfl, fun _ => rfl⟩
  | terminated =>
    refine ⟨_, _, _, _, _, rfl, ?_, fun h => absurd rfl h⟩
    unfold TextServices.terminate
    split <;> rfl
  | deactivate o =>
    simp only [step, deactivate, hideCandidateList]
    split_ifs
    · cases s.candidateUI.hideCandidateList o s.pThreadMgr <;>
        exact ⟨_, _, _, _, _, rfl, rfl, fun _ => rfl⟩
    · exact ⟨_, _, _, _, _, rfl, rfl, fun _ => rfl⟩
  | _ => exact ⟨_, _, _, _, _, rfl, rfl, fun _ => rfl⟩

theorem step_client (h : e.isKeyDown = false) : (s.step srv e).client = s.client := by
  obtain ⟨_, _, _, _, _, hs, -⟩ := step_of_not_keyDown h
  rw [hs]

theorem step_selectedIndex (h : e.isKeyDown = false) :
    (s.step srv e).selectedIndex = s.selectedIndex := by
  obtain ⟨_, _, _, _, _, hs, -⟩ := step_of_not_keyDown h
  rw [hs]

theorem step_sessions (h : e.isKeyDown = false) : (s.step srv e).text.sessions = s.text.sessions := by
  obtain ⟨_, _, _, _, _, hs, hsessions, -⟩ := step_of_not_keyDown h
  rw [hs, hsessions]

theorem step_pComposition (h : e.isKeyDown = false) (ht : e ≠ .terminated) :
    (s.step srv e).text.pComposition = s.text.pComposition := by
  obtain ⟨_, _, _, _, _, hs, -, hcomposition⟩ := step_of_not_keyDown h
  rw [hs, hcomposition ht]

theorem step_text (h : e.reachesText = false) : (s.step srv e).text = s.text := by
  cases e with
  | click o =>
    simp only [step, onClick, toggleInputMode]
    split <;> rfl
  | change guid val => cases guid <;> rfl
  | activate o => rfl
  | deactivate o =>
    simp only [step, deactivate, hideCandidateList]
    split_ifs
    · cases s.candidateUI.hideCandidateList o s.pThreadMgr <;> rfl
    · rfl
  | _ => cases h

theorem step_candidateUI (h : e.isKeyDown = false) (hd : ∀ o, e ≠ .deactivate o) :
    (s.step srv e).candidateUI = s.candidateUI := by
  cases e with
  | keyDown o pic wParam keys => cases h
  | deactivate o => exact absurd rfl (hd o)
  | click o =>
    simp only [step, onClick, toggleInputMode]
    split <;> rfl
  | change guid val => cases guid <;> rfl
  | _ => rfl

end OtherEvents

end CTCodeIME

end TCodeIME
