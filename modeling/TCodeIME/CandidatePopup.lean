import TCodeIME.ElementProtocol
import TCodeIME.CandidateWindow
import TCodeIME.Library.Desktop

/-!
The window of the candidate list: where it is created, sized, moved, shown and hidden.
-/

namespace TCodeIME

/-- What the calls that look for the caret come to: whether there is a composition, and the left and
bottom edge of its text, where `GetTextExt` and all calls before it succeed. -/
structure LayoutOutcomes where
  composing : Bool := true
  getTextExt : Option (ℤ × ℤ) := some (0, 0)
deriving DecidableEq

def LayoutOutcomes.rcText (o : LayoutOutcomes) : Option (ℤ × ℤ) := if o.composing then o.getTextExt else none

structure ShowOutcomes where
  createWindow : Bool := true
  layout : LayoutOutcomes := {}
deriving DecidableEq

structure CandidatePopup where
  element : CandidateElement := {}
  pThreadMgr : Bool := false
  hCandidateWnd : Option ℕ := none
  desktop : Desktop := .empty

namespace CandidatePopup

def list (p : CandidatePopup) : CTCodeCandidateListUI := p.element.list

def setElement (u : CandidateElement) (p : CandidatePopup) : CandidatePopup := { p with element := u }

def window (p : CandidatePopup) : Option Window := p.hCandidateWnd.bind p.desktop.windows

def isWindow (p : CandidatePopup) : Bool := p.window.isSome

def adjust (f : Window → Window) (p : CandidatePopup) : CandidatePopup :=
  p.hCandidateWnd.elim p fun h => { p with desktop := p.desktop.adjust h f }

def showWindow (visible : Bool) (p : CandidatePopup) : CandidatePopup :=
  p.adjust fun w => { w with visible := visible }

/-- `SetWindowPos` with `SWP_NOSIZE`. -/
def moveWindow (rcText : ℤ × ℤ) (p : CandidatePopup) : CandidatePopup :=
  p.adjust fun w => { w with left := rcText.1, top := rcText.2, moved := true }

def placeWindow (rcText : ℤ × ℤ) (width height : ℤ) (p : CandidatePopup) : CandidatePopup :=
  p.adjust fun w =>
    { w with left := rcText.1, top := rcText.2, width := width, height := height, moved := true }

def createCandidateWindow (ok : Bool) (p : CandidatePopup) : CandidatePopup :=
  if ok then
    { p with
      hCandidateWnd := some p.desktop.next
      desktop := p.desktop.create { left := 0, top := 0, width := 200, height := 300 } }
  else { p with hCandidateWnd := none }

/-- `DoEditSession` of `CTrackLayoutEditSession`. -/
def trackLayout (o : LayoutOutcomes) (p : CandidatePopup) : CandidatePopup :=
  match o.rcText with
  | none => p
  | some rcText => if p.isWindow then p.moveWindow rcText else p

def triggerPositionUpdate (o : LayoutOutcomes) (p : CandidatePopup) : CandidatePopup :=
  if p.pThreadMgr then p.trackLayout o else p

/-- `CTCodeCandidateListUI::Show`. -/
def showUI (o : ShowOutcomes) (bShow : Bool) (p : CandidatePopup) : CandidatePopup :=
  let p := p.setElement { p.element with list := p.list.showWindow bShow }
  if bShow then
    let p :=
      if p.isWindow then p
      else (p.createCandidateWindow o.createWindow).triggerPositionUpdate o.layout
    p.showWindow true
  else if p.isWindow then p.showWindow false
  else p

/-- The sizing in `UpdateCandidateList`, which a window that is not there yet does not get. -/
def sizeWindow (o : LayoutOutcomes) (p : CandidatePopup) : CandidatePopup :=
  if p.isWindow then
    match o.rcText with
    | none => p
    | some rcText =>
      p.placeWindow rcText 240 (CTCodeCandidateListUI.finalWindowHeight
        (CTCodeCandidateListUI.itemCountOnThisPage p.list.getCurrentPage p.list.candidates.length)).toInt
  else p

def setCandidates (layout : LayoutOutcomes) (candidates : List WString) (selectedIndex : Int32)
    (p : CandidatePopup) : CandidatePopup :=
  (p.setElement { p.element with list := p.list.setCandidates candidates selectedIndex }).sizeWindow layout

def updateCandidateList (o : UIOutcomes) (layout : LayoutOutcomes) (shown : ShowOutcomes)
    (candidates : List WString) (selectedIndex : Int32) (p : CandidatePopup) : CandidatePopup :=
  if p.pThreadMgr ∧ o.getFocus ∧ o.getTop ∧ o.queryElementMgr then
    let p := p.setCandidates layout candidates selectedIndex
    if p.element.elementId = TF_INVALID_UIELEMENTID then
      match o.beginUIElement with
      | none => p
      | some (id, bShow) =>
        let p := (p.setElement (p.element.beginUIElement id)).showUI shown bShow
        p.setElement p.element.updateUIElement
    else p.setElement p.element.updateUIElement
  else p

def hideCandidateList (o : UIOutcomes) (p : CandidatePopup) : Option CandidatePopup :=
  let p := p.showUI {} false
  if p.element.elementId = TF_INVALID_UIELEMENTID then some p
  else if p.pThreadMgr then
    let p := if o.queryElementMgr then p.setElement p.element.endUIElement else p
    some (p.setElement { p.element with elementId := TF_INVALID_UIELEMENTID })
  else none

def syncCandidateList (o : UIOutcomes) (layout : LayoutOutcomes) (shown : ShowOutcomes)
    (candidates : List Str) (selectedIndex : Int32) (p : CandidatePopup) : Option CandidatePopup :=
  if (CandidateElement.wideCandidates candidates).isEmpty then p.hideCandidateList o
  else some (p.updateCandidateList o layout shown (CandidateElement.wideCandidates candidates) selectedIndex)

/-- Part 3 of `DoEditSession`, which does not ask whether the window is still there. -/
def positionWindow (o : LayoutOutcomes) (p : CandidatePopup) : CandidatePopup :=
  if p.element.elementId = TF_INVALID_UIELEMENTID then p
  else
    match o.rcText with
    | none => p
    | some rcText =>
      let p := p.moveWindow rcText
      if p.list.isShown then p.showWindow true else p

/-- `OnLayoutChange` with `TF_LC_CHANGE`. -/
def onLayoutChange (o : LayoutOutcomes) (p : CandidatePopup) : CandidatePopup :=
  if p.element.elementId ≠ TF_INVALID_UIELEMENTID ∧ p.list.isShown then p.triggerPositionUpdate o else p

def deactivate (o : UIOutcomes) (p : CandidatePopup) : Option CandidatePopup :=
  if p.pThreadMgr then (p.hideCandidateList o).map fun p => { p with pThreadMgr := false } else some p

def withoutWindow (p : CandidatePopup) : Desktop :=
  p.hCandidateWnd.elim p.desktop fun h => p.desktop.destroy h

/-- `~CTCodeCandidateListUI`. -/
def destruct (p : CandidatePopup) : Desktop := if p.isWindow then p.withoutWindow else p.desktop

end CandidatePopup

/-- What may happen to the window. Its owner, a window of the application, takes it along when it is
destroyed. -/
inductive PopupEvent where
  | activate
  | deactivate (o : UIOutcomes)
  | sync (o : UIOutcomes) (layout : LayoutOutcomes) (shown : ShowOutcomes) (candidates : List Str)
      (selectedIndex : Int32)
  | hide (o : UIOutcomes)
  | editSession (layout : LayoutOutcomes)
  | layoutChange (layout : LayoutOutcomes)
  | hostShow (shown : ShowOutcomes) (bShow : Bool)
  | ownerDestroyed

/-- No list has more entries than an `int` counts. -/
def PopupEvent.bounded : PopupEvent → Prop
  | .sync _ _ _ candidates _ => candidates.length < 2 ^ 31
  | _ => True

namespace CandidatePopup

/-- `none` is the call through a null `_pThreadMgr`, which ends the process. -/
def attempt (p : CandidatePopup) : PopupEvent → Option CandidatePopup
  | .activate => some { p with pThreadMgr := true }
  | .deactivate o => p.deactivate o
  | .sync o layout shown candidates i => p.syncCandidateList o layout shown candidates i
  | .hide o => p.hideCandidateList o
  | .editSession layout => some (p.positionWindow layout)
  | .layoutChange layout => some (p.onLayoutChange layout)
  | .hostShow shown bShow => some (p.showUI shown bShow)
  | .ownerDestroyed => some { p with desktop := p.withoutWindow }

def step (p : CandidatePopup) (e : PopupEvent) : CandidatePopup := (p.attempt e).getD p

def owns (p : CandidatePopup) : Prop := ∀ h w, p.desktop.windows h = some w → p.hCandidateWnd = some h

section Calls

variable {p : CandidatePopup}

@[simp] theorem adjust_element (f : Window → Window) : (p.adjust f).element = p.element := by
  unfold adjust
  cases p.hCandidateWnd <;> rfl

@[simp] theorem adjust_list (f : Window → Window) : (p.adjust f).list = p.list := by
  rw [list, adjust_element, list]

@[simp] theorem adjust_pThreadMgr (f : Window → Window) : (p.adjust f).pThreadMgr = p.pThreadMgr := by
  unfold adjust
  cases p.hCandidateWnd <;> rfl

theorem adjust_of_some {k : ℕ} (h : p.hCandidateWnd = some k) (f : Window → Window) :
    p.adjust f = { p with desktop := p.desktop.adjust k f } := by
  rw [adjust, h]
  rfl

theorem adjust_of_none (h : p.hCandidateWnd = none) (f : Window → Window) : p.adjust f = p := by
  rw [adjust, h]
  rfl

@[simp] theorem adjust_hCandidateWnd (f : Window → Window) :
    (p.adjust f).hCandidateWnd = p.hCandidateWnd := by
  cases h : p.hCandidateWnd with
  | none => rw [adjust_of_none h, h]
  | some k =>
    rw [adjust_of_some h]
    exact h

@[simp] theorem adjust_window (f : Window → Window) : (p.adjust f).window = p.window.map f := by
  cases h : p.hCandidateWnd with
  | none => simp [adjust_of_none h, window, h]
  | some k => simp [adjust_of_some h, window, h, Desktop.adjust]

theorem owns_adjust (hp : p.owns) (f : Window → Window) : (p.adjust f).owns := by
  cases h : p.hCandidateWnd with
  | none =>
    rw [adjust_of_none h]
    exact hp
  | some k =>
    rw [adjust_of_some h]
    intro j v hj
    rcases Desktop.adjust_eq_some.mp hj with ⟨rfl, -⟩ | ⟨-, hold⟩
    · exact h
    · exact hp j v hold

@[simp] theorem setElement_element (u : CandidateElement) : (p.setElement u).element = u := rfl

@[simp] theorem setElement_pThreadMgr (u : CandidateElement) :
    (p.setElement u).pThreadMgr = p.pThreadMgr := rfl

@[simp] theorem setElement_window (u : CandidateElement) : (p.setElement u).window = p.window := rfl

theorem owns_setElement (hp : p.owns) (u : CandidateElement) : (p.setElement u).owns := hp

theorem windows_of_owns (hp : p.owns) {h : ℕ} {w : Window} (hw : p.desktop.windows h = some w) :
    p.window = some w := by
  rw [window, hp h w hw]
  exact hw

theorem owns_create (hp : p.owns) (hnone : p.window = none) (ok : Bool) :
    (p.createCandidateWindow ok).owns := by
  have hempty : ∀ h w, p.desktop.windows h ≠ some w := by
    intro h w hw
    rw [windows_of_owns hp hw] at hnone
    cases hnone
  unfold createCandidateWindow
  split_ifs
  · intro h w hw
    rcases Desktop.create_eq_some.mp hw with ⟨rfl, -⟩ | hold
    · rfl
    · exact absurd hold (hempty h w)
  · intro h w hw
    exact absurd hw (hempty h w)

@[simp] theorem create_window (ok : Bool) : (p.createCandidateWindow ok).window =
    if ok then some { left := 0, top := 0, width := 200, height := 300 } else none := by
  unfold createCandidateWindow window
  split_ifs
  · simp [Desktop.create]
  · rfl

@[simp] theorem create_element (ok : Bool) : (p.createCandidateWindow ok).element = p.element := by
  unfold createCandidateWindow
  split_ifs <;> rfl

@[simp] theorem create_pThreadMgr (ok : Bool) :
    (p.createCandidateWindow ok).pThreadMgr = p.pThreadMgr := by
  unfold createCandidateWindow
  split_ifs <;> rfl

theorem withoutWindow_window (p : CandidatePopup) :
    ({ p with desktop := p.withoutWindow } : CandidatePopup).window = none := by
  cases h : p.hCandidateWnd with
  | none => simp [window]
  | some k => simp [window, withoutWindow, h, Desktop.destroy]

theorem isWindow_iff : p.isWindow = true ↔ ∃ w, p.window = some w := Option.isSome_iff_exists

theorem not_isWindow_iff : ¬ p.isWindow = true ↔ p.window = none := by
  rw [isWindow, Bool.not_eq_true, Option.isSome_eq_false_iff, Option.isNone_iff_eq_none]

theorem triggerPositionUpdate_cases (o : LayoutOutcomes) (p : CandidatePopup) :
    (p.triggerPositionUpdate o = p ∧ (p.pThreadMgr = false ∨ o.rcText = none ∨ p.window = none)) ∨
      ∃ rcText, p.pThreadMgr = true ∧ o.rcText = some rcText ∧
        p.triggerPositionUpdate o = p.moveWindow rcText := by
  unfold triggerPositionUpdate trackLayout
  by_cases hactive : p.pThreadMgr = true
  · rw [if_pos hactive]
    cases o.rcText with
    | none => exact Or.inl ⟨rfl, Or.inr (Or.inl rfl)⟩
    | some rcText =>
      by_cases hw : p.isWindow = true
      · exact Or.inr ⟨rcText, hactive, rfl, if_pos hw⟩
      · exact Or.inl ⟨if_neg hw, Or.inr (Or.inr (not_isWindow_iff.mp hw))⟩
  · rw [if_neg hactive]
    exact Or.inl ⟨rfl, Or.inl (Bool.eq_false_of_not_eq_true hactive)⟩

@[simp] theorem triggerPositionUpdate_element (o : LayoutOutcomes) :
    (p.triggerPositionUpdate o).element = p.element := by
  obtain ⟨h, -⟩ | ⟨rcText, -, -, h⟩ := triggerPositionUpdate_cases o p
  · rw [h]
  · rw [h, moveWindow, adjust_element]

@[simp] theorem triggerPositionUpdate_pThreadMgr (o : LayoutOutcomes) :
    (p.triggerPositionUpdate o).pThreadMgr = p.pThreadMgr := by
  obtain ⟨h, -⟩ | ⟨rcText, -, -, h⟩ := triggerPositionUpdate_cases o p
  · rw [h]
  · rw [h, moveWindow, adjust_pThreadMgr]

theorem owns_triggerPositionUpdate (hp : p.owns) (o : LayoutOutcomes) :
    (p.triggerPositionUpdate o).owns := by
  obtain ⟨h, -⟩ | ⟨rcText, -, -, h⟩ := triggerPositionUpdate_cases o p
  · rwa [h]
  · rw [h]
    exact owns_adjust hp _

@[simp] theorem showUI_element (o : ShowOutcomes) (bShow : Bool) :
    (p.showUI o bShow).element = { p.element with list := p.list.showWindow bShow } := by
  unfold showUI
  dsimp only
  split_ifs <;> simp [showWindow, setElement]

@[simp] theorem showUI_pThreadMgr (o : ShowOutcomes) (bShow : Bool) :
    (p.showUI o bShow).pThreadMgr = p.pThreadMgr := by
  unfold showUI
  dsimp only
  split_ifs <;> simp [showWindow, setElement]

theorem owns_showUI (hp : p.owns) (o : ShowOutcomes) (bShow : Bool) : (p.showUI o bShow).owns := by
  have hset := owns_setElement hp { p.element with list := p.list.showWindow bShow }
  unfold showUI
  dsimp only
  split_ifs with hshow hw hw
  · exact owns_adjust hset _
  · apply owns_adjust
    apply owns_triggerPositionUpdate
    exact owns_create hset (not_isWindow_iff.mp hw) o.createWindow
  · exact owns_adjust hset _
  · exact hset

def createdWindow (rcText : Option (ℤ × ℤ)) : Window where
  left := (rcText.getD (0, 0)).1
  top := (rcText.getD (0, 0)).2
  width := 200
  height := 300
  visible := true
  moved := rcText.isSome

theorem showUI_window_of_some {w : Window} (hw : p.window = some w) (o : ShowOutcomes) (bShow : Bool) :
    (p.showUI o bShow).window = some { w with visible := bShow } := by
  have hp : p.isWindow = true := isWindow_iff.mpr ⟨w, hw⟩
  have hset : ∀ u, (p.setElement u).isWindow = true := fun u => hp
  unfold showUI
  dsimp only
  cases bShow with
  | true => simp [hset, showWindow, hw]
  | false => simp [hset, showWindow, hw]

theorem showUI_window_of_none (hw : p.window = none) (o : ShowOutcomes) (bShow : Bool) :
    (p.showUI o bShow).window =
      if bShow ∧ o.createWindow then
        some (createdWindow (if p.pThreadMgr then o.layout.rcText else none))
      else none := by
  have hset : ∀ u, ¬ (p.setElement u).isWindow = true := fun u => not_isWindow_iff.mpr hw
  unfold showUI
  dsimp only
  cases bShow with
  | false => simp [hset, hw]
  | true =>
    rw [if_pos rfl, if_neg (hset _), showWindow, adjust_window]
    cases hok : o.createWindow with
    | false =>
      obtain ⟨h, -⟩ | ⟨rcText, -, -, h⟩ := triggerPositionUpdate_cases o.layout
        ((p.setElement { p.element with list := p.list.showWindow true }).createCandidateWindow false)
      · simp [h]
      · simp [h, moveWindow]
    | true =>
      obtain ⟨h, hno⟩ | ⟨rcText, hactive, hrc, h⟩ := triggerPositionUpdate_cases o.layout
        ((p.setElement { p.element with list := p.list.showWindow true }).createCandidateWindow true)
      · rcases hno with hno | hno | hno
        · rw [create_pThreadMgr] at hno
          simp [h, createdWindow, show p.pThreadMgr = false from hno]
        · simp [h, createdWindow, hno]
        · simp at hno
      · rw [create_pThreadMgr] at hactive
        simp [h, moveWindow, createdWindow, hrc, show p.pThreadMgr = true from hactive]

end Calls

end CandidatePopup

end TCodeIME
