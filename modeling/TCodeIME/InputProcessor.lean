import TCodeIME.CandidateListUI
import TCodeIME.Compartment
import TCodeIME.EditSession
import TCodeIME.EngineClient

namespace TCodeIME

/-- The button with its language-bar sink; `updates` counts the `OnUpdate` calls made to it. -/
structure CTCodeModeButton where
  pSink : Bool := false
  updates : ℕ := 0
deriving DecidableEq

def CTCodeModeButton.updateIcon (b : CTCodeModeButton) : CTCodeModeButton :=
  if b.pSink then { b with updates := b.updates + 1 } else b

/-- The members of `CTCodeIME`, each with the part of the outside world it works on. -/
structure CTCodeIME (E : Type) where
  pThreadMgr : Bool
  compartments : Compartments
  client : CEngineClient E
  text : TextServices
  candidateUI : CandidateElement
  pModeButton : Option CTCodeModeButton
  selectedIndex : Int32

namespace CTCodeIME

variable {E : Type}

def construct (engine : E) (contexts : ContextId → MarkedText WChar CompositionId)
    (h : ∀ c i, (contexts c).marks i = none) (compartments : Compartments) : CTCodeIME E where
  pThreadMgr := false
  compartments := compartments
  client := { engine := engine }
  text :=
    { contexts := contexts
      nextComposition := 0
      pComposition := none
      sessions := []
      writes := []
      marks_fresh := fun c i _ => h c i
      composition_live := by simp }
  candidateUI := {}
  pModeButton := some {}
  selectedIndex := 0

def getInputMode (o : CompartmentOutcomes) (s : CTCodeIME E) : InputMode :=
  s.compartments.getInputMode o s.pThreadMgr

def setInputMode (o : CompartmentOutcomes) (mode : InputMode) (s : CTCodeIME E) : CTCodeIME E :=
  { s with compartments := s.compartments.setInputMode o s.pThreadMgr mode }

def updateIcon (s : CTCodeIME E) : CTCodeIME E :=
  { s with pModeButton := s.pModeButton.map CTCodeModeButton.updateIcon }

def toggleInputMode (o : CompartmentOutcomes) (s : CTCodeIME E) : CTCodeIME E :=
  match s.getInputMode o with
  | .tcode => (s.setInputMode o .direct).updateIcon
  | .direct => (s.setInputMode o .tcode).updateIcon

def hideCandidateList (o : UIOutcomes) (s : CTCodeIME E) : Option (CTCodeIME E) :=
  (s.candidateUI.hideCandidateList o s.pThreadMgr).map fun u => { s with candidateUI := u }

def syncCandidateList (o : UIOutcomes) (s : CTCodeIME E) : Option (CTCodeIME E) :=
  (s.candidateUI.syncCandidateList o s.pThreadMgr s.client.lastResponse.getCandidates
    s.selectedIndex).map fun u => { s with candidateUI := u }

def requestEditSession (o : SessionOutcomes) (pic : ContextId) (committed composition : WString)
    (s : CTCodeIME E) : Option (CTCodeIME E) :=
  (CManageCompositionEditSession.requestEditSession o pic committed composition s.text).map
    fun t => { s with text := t }

end CTCodeIME

end TCodeIME
