import TCodeIME.PlacedPopup

/-!
The candidate list as the UI element manager and its listeners see it.
-/

namespace TCodeIME

open Runs

inductive ElementEvent where
  | activate
  | deactivate (o : UIOutcomes)
  | sync (o : UIOutcomes) (candidates : List Str) (selectedIndex : Int32)
  | hide (o : UIOutcomes)
  | hostShow (bShow : Bool)

def PopupEvent.elementPart : PopupEvent → Option ElementEvent
  | .activate => some .activate
  | .deactivate o => some (.deactivate o)
  | .sync o _ _ candidates i => some (.sync o candidates i)
  | .hide o => some (.hide o)
  | .hostShow _ bShow => some (.hostShow bShow)
  | .editSession _ => none
  | .layoutChange _ => none
  | .ownerDestroyed => none

structure ListenedElement where
  element : CandidateElement := {}
  pThreadMgr : Bool := false

namespace ListenedElement

def hide (o : UIOutcomes) (s : ListenedElement) : Option ListenedElement :=
  (s.element.hideCandidateList o s.pThreadMgr).map fun u => { s with element := u }

def attempt (s : ListenedElement) : ElementEvent → Option ListenedElement
  | .activate => some { s with pThreadMgr := true }
  | .deactivate o =>
    if s.pThreadMgr then (s.hide o).map fun s => { s with pThreadMgr := false } else some s
  | .sync o candidates i =>
    (s.element.syncCandidateList o s.pThreadMgr candidates i).map fun u => { s with element := u }
  | .hide o => s.hide o
  | .hostShow bShow =>
    some { s with element := { s.element with list := s.element.list.showWindow bShow } }

def step (s : ListenedElement) (e : ElementEvent) : ListenedElement := (s.attempt e).getD s

end ListenedElement

namespace CandidatePopup

def listened (p : CandidatePopup) : ListenedElement := ⟨p.element, p.pThreadMgr⟩

section Listened

variable {p : CandidatePopup} {o : UIOutcomes} {layout : LayoutOutcomes}

theorem updateCandidateList_element (shown : ShowOutcomes) (candidates : List WString) (i : Int32) :
    (p.updateCandidateList o layout shown candidates i).element =
      p.element.updateCandidateList o p.pThreadMgr candidates i := by
  unfold updateCandidateList CandidateElement.updateCandidateList
  split_ifs with hready
  · dsimp only
    rw [setCandidates_element]
    dsimp only
    split_ifs with hid
    · cases o.beginUIElement with
      | none => exact setCandidates_element candidates i
      | some element =>
        simp only [setElement_element, showUI_element, list]
    · rfl
  · rfl

theorem updateCandidateList_pThreadMgr (shown : ShowOutcomes) (candidates : List WString) (i : Int32) :
    (p.updateCandidateList o layout shown candidates i).pThreadMgr = p.pThreadMgr := by
  unfold updateCandidateList
  split_ifs
  · dsimp only
    split_ifs
    · cases o.beginUIElement with
      | none => exact setCandidates_pThreadMgr candidates i
      | some element => simp only [setElement_pThreadMgr, showUI_pThreadMgr, setCandidates_pThreadMgr]
    · exact setCandidates_pThreadMgr candidates i
  · rfl

theorem updateCandidateList_listened (shown : ShowOutcomes) (candidates : List WString) (i : Int32) :
    (p.updateCandidateList o layout shown candidates i).listened =
      ⟨p.element.updateCandidateList o p.pThreadMgr candidates i, p.pThreadMgr⟩ := by
  rw [listened, updateCandidateList_element, updateCandidateList_pThreadMgr]

theorem setElement_listened (u : CandidateElement) : (p.setElement u).listened = ⟨u, p.pThreadMgr⟩ := rfl

theorem showUI_listened (shown : ShowOutcomes) (bShow : Bool) :
    (p.showUI shown bShow).listened = ⟨{ p.element with list := p.list.showWindow bShow }, p.pThreadMgr⟩ := by
  rw [listened, showUI_element, showUI_pThreadMgr]

theorem hideCandidateList_listened : (p.hideCandidateList o).map listened = p.listened.hide o := by
  have hhide : p.listened.hide o = (p.element.hideCandidateList o p.pThreadMgr).map (⟨·, p.pThreadMgr⟩) := rfl
  rw [hhide]
  unfold hideCandidateList CandidateElement.hideCandidateList
  simp only [showUI_element, showUI_pThreadMgr]
  split_ifs
  · rw [Option.map_some, showUI_listened]
    rfl
  · rw [Option.map_some, setElement_listened, setElement_pThreadMgr, showUI_pThreadMgr]
    rfl
  · rw [Option.map_some, setElement_listened, showUI_pThreadMgr, showUI_element]
    rfl
  · rfl

theorem syncCandidateList_listened (shown : ShowOutcomes) (candidates : List Str) (i : Int32) :
    (p.syncCandidateList o layout shown candidates i).map listened =
      p.listened.attempt (.sync o candidates i) := by
  unfold syncCandidateList ListenedElement.attempt CandidateElement.syncCandidateList
  dsimp only
  split_ifs
  · exact hideCandidateList_listened
  · rw [Option.map_some, Option.map_some, updateCandidateList_listened]
    rfl

theorem positionWindow_listened (layout : LayoutOutcomes) :
    (p.positionWindow layout).listened = p.listened := by
  unfold positionWindow
  split_ifs
  · rfl
  · cases layout.rcText with
    | none => rfl
    | some rcText =>
      dsimp only
      split_ifs <;> simp [listened, showWindow, moveWindow]

theorem onLayoutChange_listened (layout : LayoutOutcomes) :
    (p.onLayoutChange layout).listened = p.listened := by
  unfold onLayoutChange
  split_ifs
  · simp [listened]
  · rfl

theorem deactivate_listened : (p.deactivate o).map listened = p.listened.attempt (.deactivate o) := by
  unfold deactivate ListenedElement.attempt
  dsimp only
  rw [← hideCandidateList_listened]
  by_cases hactive : p.pThreadMgr = true
  · have hactive' : p.listened.pThreadMgr = true := hactive
    rw [if_pos hactive, if_pos hactive', Option.map_map, Option.map_map]
    rfl
  · have hactive' : ¬ p.listened.pThreadMgr = true := hactive
    rw [if_neg hactive, if_neg hactive']
    rfl

theorem step_listened (p : CandidatePopup) (e : PopupEvent) :
    (p.step e).listened = e.elementPart.elim p.listened p.listened.step := by
  have hgetD : ∀ x : Option CandidatePopup, (x.getD p).listened = (x.map listened).getD p.listened := by
    intro x
    cases x <;> rfl
  rw [step, hgetD]
  cases e with
  | activate => rfl
  | deactivate o =>
    rw [attempt, deactivate_listened]
    rfl
  | sync o layout shown candidates i =>
    rw [attempt, syncCandidateList_listened]
    rfl
  | hide o =>
    rw [attempt, hideCandidateList_listened]
    rfl
  | editSession layout => exact positionWindow_listened layout
  | layoutChange layout => exact onLayoutChange_listened layout
  | hostShow shown bShow =>
    rw [attempt, Option.map_some, showUI_listened]
    rfl
  | ownerDestroyed => rfl

end Listened

theorem listeners_see_element {es es' : List PopupEvent}
    (h : es.filterMap PopupEvent.elementPart = es'.filterMap PopupEvent.elementPart) :
    (run step {} es).element = (run step {} es').element := by
  have hview (fs : List PopupEvent) : (run step {} fs).listened =
      run ListenedElement.step (listened {}) (fs.filterMap PopupEvent.elementPart) :=
    run_view step_listened {} fs
  have hlistened : (run step {} es).listened = (run step {} es').listened := by
    rw [hview, hview, h]
  exact congrArg ListenedElement.element hlistened

theorem listeners_see_element_windowless :
    (run step {} [.activate, .sync {} {} { createWindow := false } ["化".toList] 0, .editSession {},
        .ownerDestroyed]).element =
      (run step {} [.activate, .sync {} {} {} ["化".toList] 0]).element :=
  listeners_see_element rfl

end CandidatePopup

end TCodeIME
