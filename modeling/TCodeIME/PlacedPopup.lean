import TCodeIME.CandidatePopup
import TCodeIME.Library.Runs

/-!
What holds of the window of the candidate list throughout a run.
-/

namespace TCodeIME

open Runs

namespace CandidatePopup

section Operations

variable {p : CandidatePopup} {o : UIOutcomes} {layout : LayoutOutcomes}

/-- The rows that `WM_PAINT` draws. -/
def rowCount (l : CTCodeCandidateListUI) : ℕ :=
  l.endIndex - CTCodeCandidateListUI.startIndex l.currentPage

theorem itemCount_eq_rowCount {l : CTCodeCandidateListUI} (hl : l.candidates.length < 2 ^ 31) :
    (CTCodeCandidateListUI.itemCountOnThisPage l.getCurrentPage l.candidates.length).toInt = rowCount l := by
  have hrest := Int32.toInt_ofNat_of_lt
    (n := l.candidates.length - CTCodeCandidateListUI.startIndex l.currentPage) (by omega)
  unfold CTCodeCandidateListUI.itemCountOnThisPage rowCount CTCodeCandidateListUI.endIndex
    CTCodeCandidateListUI.getCurrentPage
  by_cases hstart : CTCodeCandidateListUI.startIndex l.currentPage < l.candidates.length
  · rw [if_pos hstart]
    simp only [Int32.lt_iff_toInt_lt, hrest]
    split_ifs with hnine hend hend
    · change (9 : ℤ) < _ at hnine
      omega
    · change (9 : ℤ) = _
      omega
    · rw [hrest]
    · change ¬ (9 : ℤ) < _ at hnine
      rw [hrest]
      omega
  · rw [if_neg hstart, if_pos (by omega)]
    change (0 : ℤ) = _
    omega

theorem rowCount_le (l : CTCodeCandidateListUI) : rowCount l ≤ 9 := by
  unfold rowCount CTCodeCandidateListUI.endIndex
  split_ifs <;> omega

theorem sizeWindow_cases (layout : LayoutOutcomes) (p : CandidatePopup) :
    (p.sizeWindow layout = p ∧ (p.window = none ∨ layout.rcText = none)) ∨
      ∃ rcText, layout.rcText = some rcText ∧
        p.sizeWindow layout = p.placeWindow rcText 240 (CTCodeCandidateListUI.finalWindowHeight
          (CTCodeCandidateListUI.itemCountOnThisPage p.list.getCurrentPage p.list.candidates.length)).toInt := by
  unfold sizeWindow
  by_cases hw : p.isWindow = true
  · rw [if_pos hw]
    cases layout.rcText with
    | none => exact Or.inl ⟨rfl, Or.inr rfl⟩
    | some rcText => exact Or.inr ⟨rcText, rfl, rfl⟩
  · rw [if_neg hw]
    exact Or.inl ⟨rfl, Or.inl (not_isWindow_iff.mp hw)⟩

@[simp] theorem sizeWindow_element : (p.sizeWindow layout).element = p.element := by
  obtain ⟨h, -⟩ | ⟨rcText, -, h⟩ := sizeWindow_cases layout p
  · rw [h]
  · rw [h, placeWindow, adjust_element]

@[simp] theorem sizeWindow_pThreadMgr : (p.sizeWindow layout).pThreadMgr = p.pThreadMgr := by
  obtain ⟨h, -⟩ | ⟨rcText, -, h⟩ := sizeWindow_cases layout p
  · rw [h]
  · rw [h, placeWindow, adjust_pThreadMgr]

@[simp] theorem setCandidates_element (candidates : List WString) (i : Int32) :
    (p.setCandidates layout candidates i).element =
      { p.element with list := p.list.setCandidates candidates i } := by
  rw [setCandidates, sizeWindow_element, setElement]

@[simp] theorem setCandidates_pThreadMgr (candidates : List WString) (i : Int32) :
    (p.setCandidates layout candidates i).pThreadMgr = p.pThreadMgr := by
  rw [setCandidates, sizeWindow_pThreadMgr, setElement]

end Operations

structure Kept (p : CandidatePopup) : Prop where
  owns : p.owns
  visible : ∀ w, p.window = some w → w.visible = p.list.isShown
  active : p.element.elementId ≠ TF_INVALID_UIELEMENTID → p.pThreadMgr = true

section Kept

variable {p : CandidatePopup}

theorem kept_setElement {u : CandidateElement} (hp : p.Kept)
    (hshown : u.list.isShown = p.list.isShown)
    (hactive : u.elementId ≠ TF_INVALID_UIELEMENTID → p.pThreadMgr = true) : (p.setElement u).Kept where
  owns := owns_setElement hp.owns u
  visible w hw := (hp.visible w hw).trans hshown.symm
  active := hactive

theorem kept_adjust {f : Window → Window} (hf : ∀ w, (f w).visible = w.visible) (hp : p.Kept) :
    (p.adjust f).Kept where
  owns := owns_adjust hp.owns f
  visible w hw := by
    rw [adjust_window, Option.map_eq_some_iff] at hw
    obtain ⟨v, hv, rfl⟩ := hw
    rw [hf, adjust_list]
    exact hp.visible v hv
  active := by
    rw [adjust_element, adjust_pThreadMgr]
    exact hp.active

theorem kept_showUI (hp : p.Kept) (o : ShowOutcomes) (bShow : Bool) : (p.showUI o bShow).Kept where
  owns := owns_showUI hp.owns o bShow
  visible w hw := by
    have hshown : (p.showUI o bShow).list.isShown = bShow := by
      rw [list, showUI_element]
      rfl
    rw [hshown]
    cases hold : p.window with
    | some v =>
      rw [showUI_window_of_some hold, Option.some.injEq] at hw
      rw [← hw]
    | none =>
      rw [showUI_window_of_none hold] at hw
      by_cases hcreated : bShow ∧ o.createWindow
      · rw [if_pos hcreated, Option.some.injEq] at hw
        rw [← hw]
        exact hcreated.1.symm
      · rw [if_neg hcreated] at hw
        cases hw
  active := by
    rw [showUI_element, showUI_pThreadMgr]
    exact hp.active

theorem kept_triggerPositionUpdate (hp : p.Kept) (o : LayoutOutcomes) :
    (p.triggerPositionUpdate o).Kept := by
  obtain ⟨h, -⟩ | ⟨rcText, -, -, h⟩ := triggerPositionUpdate_cases o p
  · rwa [h]
  · rw [h]
    exact kept_adjust (fun _ => rfl) hp

theorem kept_setCandidates (hp : p.Kept) (layout : LayoutOutcomes) (candidates : List WString)
    (i : Int32) : (p.setCandidates layout candidates i).Kept := by
  have hset : (p.setElement { p.element with list := p.list.setCandidates candidates i }).Kept :=
    kept_setElement hp rfl hp.active
  unfold setCandidates
  obtain ⟨h, -⟩ | ⟨rcText, -, h⟩ := sizeWindow_cases layout
    (p.setElement { p.element with list := p.list.setCandidates candidates i })
  · rwa [h]
  · rw [h]
    exact kept_adjust (fun _ => rfl) hset

theorem kept_updateCandidateList (hp : p.Kept) (o : UIOutcomes) (layout : LayoutOutcomes)
    (shown : ShowOutcomes) (candidates : List WString) (i : Int32) :
    (p.updateCandidateList o layout shown candidates i).Kept := by
  have hset := kept_setCandidates hp layout candidates i
  unfold updateCandidateList
  split_ifs with hready
  · have hactive : (p.setCandidates layout candidates i).pThreadMgr = true := by
      rw [setCandidates_pThreadMgr]
      exact hready.1
    dsimp only
    split_ifs with hid
    · cases o.beginUIElement with
      | none => exact hset
      | some element =>
        obtain ⟨id, bShow⟩ := element
        dsimp only
        apply kept_setElement
        · apply kept_showUI
          exact kept_setElement hset rfl fun _ => hactive
        · rfl
        · intro _
          rw [showUI_pThreadMgr]
          exact hactive
    · exact kept_setElement hset rfl fun _ => hactive
  · exact hp

theorem kept_hideCandidateList (hp : p.Kept) (o : UIOutcomes) :
    ∃ p', p.hideCandidateList o = some p' ∧ p'.Kept ∧
      p'.element.elementId = TF_INVALID_UIELEMENTID := by
  have hshow := kept_showUI hp {} false
  unfold hideCandidateList
  dsimp only
  by_cases hid : (p.showUI {} false).element.elementId = TF_INVALID_UIELEMENTID
  · rw [if_pos hid]
    exact ⟨_, rfl, hshow, hid⟩
  · rw [if_neg hid, if_pos (hshow.active hid)]
    refine ⟨_, rfl, ?_, rfl⟩
    split_ifs
    · exact kept_setElement (kept_setElement hshow rfl hshow.active) rfl (absurd rfl)
    · exact kept_setElement hshow rfl (absurd rfl)

theorem kept_positionWindow (hp : p.Kept) (o : LayoutOutcomes) : (p.positionWindow o).Kept := by
  unfold positionWindow
  split_ifs
  · exact hp
  · cases o.rcText with
    | none => exact hp
    | some rcText =>
      have hmove : (p.moveWindow rcText).Kept := kept_adjust (fun _ => rfl) hp
      dsimp only
      split_ifs with hshown
      · refine ⟨owns_adjust hmove.owns _, fun w hw => ?_, ?_⟩
        · rw [showWindow, adjust_window, Option.map_eq_some_iff] at hw
          obtain ⟨v, -, rfl⟩ := hw
          rw [showWindow, adjust_list]
          exact hshown.symm
        · rw [showWindow, adjust_element, adjust_pThreadMgr]
          exact hmove.active
      · exact hmove

theorem withoutWindow_empty (hp : p.owns) (h : ℕ) : p.withoutWindow.windows h = none := by
  rw [Option.eq_none_iff_forall_ne_some]
  intro w hw
  rw [withoutWindow] at hw
  cases hwnd : p.hCandidateWnd with
  | none =>
    rw [hwnd] at hw
    have hh := hp h w hw
    rw [hwnd] at hh
    cases hh
  | some k =>
    rw [hwnd] at hw
    obtain ⟨hne, hold⟩ := Desktop.destroy_eq_some.mp hw
    have hh := hp h w hold
    rw [hwnd] at hh
    exact hne (Option.some.inj hh).symm

theorem kept_ownerDestroyed (hp : p.Kept) : ({ p with desktop := p.withoutWindow } : CandidatePopup).Kept := by
  have hempty := withoutWindow_empty hp.owns
  refine ⟨fun h w hw => ?_, fun w hw => ?_, hp.active⟩
  · rw [hempty h] at hw
    cases hw
  · rw [withoutWindow_window] at hw
    cases hw

theorem destruct_empty (hp : p.owns) (h : ℕ) : p.destruct.windows h = none := by
  unfold destruct
  split_ifs with hw
  · exact withoutWindow_empty hp h
  · rw [Option.eq_none_iff_forall_ne_some]
    intro w hold
    rw [not_isWindow_iff, windows_of_owns hp hold] at hw
    cases hw

theorem attempt_kept (hp : p.Kept) (e : PopupEvent) : ∃ p', p.attempt e = some p' ∧ p'.Kept := by
  cases e with
  | activate => exact ⟨_, rfl, hp.owns, hp.visible, fun _ => rfl⟩
  | deactivate o =>
    unfold attempt deactivate
    dsimp only
    split_ifs
    · obtain ⟨p', h, hkept, hid⟩ := kept_hideCandidateList hp o
      rw [h]
      exact ⟨_, rfl, hkept.owns, hkept.visible, absurd hid⟩
    · exact ⟨p, rfl, hp⟩
  | sync o layout shown candidates i =>
    unfold attempt syncCandidateList
    dsimp only
    split_ifs
    · obtain ⟨p', h, hkept, -⟩ := kept_hideCandidateList hp o
      exact ⟨p', h, hkept⟩
    · exact ⟨_, rfl, kept_updateCandidateList hp o layout shown _ i⟩
  | hide o =>
    obtain ⟨p', h, hkept, -⟩ := kept_hideCandidateList hp o
    exact ⟨p', h, hkept⟩
  | editSession layout => exact ⟨_, rfl, kept_positionWindow hp layout⟩
  | layoutChange layout =>
    refine ⟨_, rfl, ?_⟩
    unfold onLayoutChange
    split_ifs
    · exact kept_triggerPositionUpdate hp layout
    · exact hp
  | hostShow shown bShow => exact ⟨_, rfl, kept_showUI hp shown bShow⟩
  | ownerDestroyed => exact ⟨_, rfl, kept_ownerDestroyed hp⟩

theorem step_kept (hp : p.Kept) (e : PopupEvent) : (p.step e).Kept := by
  obtain ⟨p', h, hkept⟩ := attempt_kept hp e
  rw [step, h]
  exact hkept

theorem kept_start : ({} : CandidatePopup).Kept where
  owns _ _ hw := by cases hw
  visible _ hw := by cases hw
  active hid := absurd rfl hid

end Kept

theorem window_kept (es : List PopupEvent) :
    let p := run step {} es
    (∀ h w, p.desktop.windows h = some w → p.hCandidateWnd = some h ∧ w.visible = p.list.isShown) ∧
      (∀ e, (p.attempt e).isSome) ∧ ∀ h, p.destruct.windows h = none := by
  intro p
  have hall : Along step (fun _ _ => True) {} es := along_of_forall (fun _ _ _ => trivial) _
  have hp : p.Kept := run_of_step (I := Kept) (fun _ e hp _ => step_kept hp e) kept_start hall
  refine ⟨fun h w hw => ⟨hp.owns h w hw, hp.visible w (windows_of_owns hp.owns hw)⟩, fun e => ?_,
    destruct_empty hp.owns⟩
  obtain ⟨p', h, -⟩ := attempt_kept hp e
  rw [h]
  rfl

/-! The rows that `WM_PAINT` draws lie inside the window, whose border is `border` wide. -/

def fits (border : ℤ) (l : CTCodeCandidateListUI) (w : Window) : Prop :=
  ∀ row ∈ l.paint (w.width - 2 * border),
    0 ≤ row.rcRow.top ∧ row.rcRow.bottom ≤ w.height - 2 * border

def Fits (border : ℤ) (p : CandidatePopup) : Prop := ∀ w, p.window = some w → fits border p.list w

def UpdatesList (p : CandidatePopup) (o : UIOutcomes) (candidates : List Str) : Prop :=
  CandidateElement.wideCandidates candidates ≠ [] ∧ p.pThreadMgr ∧ o.getFocus ∧ o.getTop ∧ o.queryElementMgr

def keepsRows (border : ℤ) (p : CandidatePopup) : PopupEvent → Prop
  | .sync o layout _ candidates i =>
    p.UpdatesList o candidates → layout.rcText = none → ∀ w, p.window = some w →
      fits border (p.list.setCandidates (CandidateElement.wideCandidates candidates) i) w
  | _ => True

section Fits

variable {p : CandidatePopup} {border : ℤ}

theorem fits_iff {l : CTCodeCandidateListUI} {w : Window} :
    fits border l w ↔ rowCount l = 0 ∨ 6 + 32 * (rowCount l : ℤ) ≤ w.height - 2 * border := by
  unfold fits
  rw [CTCodeCandidateListUI.paint, CTCodeCandidateListUI.paintRows_eq]
  simp only [List.mem_map, List.mem_range, forall_exists_index, and_imp, forall_apply_eq_imp_iff₂]
  change (∀ j : ℕ, j < rowCount l → 0 ≤ (6 + 32 * (j : ℤ)) ∧ 6 + 32 * (j : ℤ) + 32 ≤ _) ↔ _
  constructor
  · intro h
    by_cases hzero : rowCount l = 0
    · exact Or.inl hzero
    · have hlast := (h (rowCount l - 1) (by omega)).2
      omega
  · intro h j hj
    omega

theorem fits_congr {l l' : CTCodeCandidateListUI} {w w' : Window} (hl : rowCount l' = rowCount l)
    (hw : w'.height = w.height) : fits border l' w' ↔ fits border l w := by
  rw [fits_iff, fits_iff, hl, hw]

theorem fits_adjust_iff {f : Window → Window} (hf : ∀ w, (f w).height = w.height) :
    Fits border (p.adjust f) ↔ Fits border p := by
  simp only [Fits, adjust_window, adjust_list, Option.map_eq_some_iff]
  constructor
  · intro h w hw
    exact (fits_congr rfl (hf w)).mp (h (f w) ⟨w, hw, rfl⟩)
  · rintro h _ ⟨w, hw, rfl⟩
    exact (fits_congr rfl (hf w)).mpr (h w hw)

theorem fits_setElement_iff {u : CandidateElement} (hu : rowCount u.list = rowCount p.list) :
    Fits border (p.setElement u) ↔ Fits border p := by
  apply forall₂_congr
  intro w _
  exact fits_congr hu rfl

theorem fits_showUI_iff (hborder : border ≤ 3) (o : ShowOutcomes) (bShow : Bool) :
    Fits border (p.showUI o bShow) ↔ Fits border p := by
  have hlist : rowCount (p.showUI o bShow).list = rowCount p.list := by
    rw [list, showUI_element]
    rfl
  cases hwindow : p.window with
  | some v =>
    have hsome : ∀ w, p.window = some w ↔ v = w := by simp [hwindow]
    simp only [Fits, showUI_window_of_some hwindow, hsome, Option.some.injEq, forall_eq']
    exact fits_congr hlist rfl
  | none =>
    refine iff_of_true (fun w hw => ?_) (fun w hw => ?_)
    · rw [showUI_window_of_none hwindow] at hw
      have hheight : w.height = 300 := by
        by_cases hcreated : bShow ∧ o.createWindow
        · rw [if_pos hcreated, Option.some.injEq] at hw
          rw [← hw]
          rfl
        · rw [if_neg hcreated] at hw
          cases hw
      have hrows := rowCount_le (p.showUI o bShow).list
      rw [fits_iff, hheight]
      omega
    · rw [hwindow] at hw
      cases hw

theorem fits_sized (hborder : border ≤ 3) {l : CTCodeCandidateListUI} (hl : l.candidates.length < 2 ^ 31) :
    rowCount l = 0 ∨ 6 + 32 * (rowCount l : ℤ) ≤ (CTCodeCandidateListUI.finalWindowHeight
      (CTCodeCandidateListUI.itemCountOnThisPage l.getCurrentPage l.candidates.length)).toInt -
        2 * border := by
  have hitems := itemCount_eq_rowCount hl
  have hnine := rowCount_le l
  rw [CTCodeCandidateListUI.finalWindowHeight_toInt (by omega) (by omega), hitems]
  omega

theorem fits_setCandidates_iff (hborder : border ≤ 3) {candidates : List WString}
    (hcount : candidates.length < 2 ^ 31) (layout : LayoutOutcomes) (i : Int32) :
    Fits border (p.setCandidates layout candidates i) ↔
      (layout.rcText = none → ∀ w, p.window = some w →
        fits border (p.list.setCandidates candidates i) w) := by
  unfold setCandidates
  obtain ⟨h, hno⟩ | ⟨rcText, hrc, h⟩ := sizeWindow_cases layout
    (p.setElement { p.element with list := p.list.setCandidates candidates i })
  · rw [h]
    rcases hno with hno | hno
    · rw [setElement_window] at hno
      simp [Fits, hno]
    · simp only [hno, forall_true_left]
      rfl
  · rw [h]
    refine iff_of_true (fun w hw => ?_) (fun hnone => ?_)
    · rw [placeWindow, adjust_window, Option.map_eq_some_iff] at hw
      obtain ⟨v, -, rfl⟩ := hw
      rw [placeWindow, adjust_list, fits_iff]
      exact fits_sized hborder hcount
    · rw [hrc] at hnone
      cases hnone

theorem fits_updateCandidateList_iff (hborder : border ≤ 3) {candidates : List WString}
    (hcount : candidates.length < 2 ^ 31) {o : UIOutcomes} {layout : LayoutOutcomes}
    (hready : p.pThreadMgr ∧ o.getFocus ∧ o.getTop ∧ o.queryElementMgr) (shown : ShowOutcomes)
    (i : Int32) :
    Fits border (p.updateCandidateList o layout shown candidates i) ↔
      (layout.rcText = none → ∀ w, p.window = some w →
        fits border (p.list.setCandidates candidates i) w) := by
  rw [← fits_setCandidates_iff hborder hcount, updateCandidateList, if_pos hready]
  dsimp only
  split_ifs
  · cases o.beginUIElement with
    | none => exact Iff.rfl
    | some element =>
      apply (fits_setElement_iff rfl).trans
      apply (fits_showUI_iff hborder shown element.2).trans
      exact fits_setElement_iff rfl
  · exact fits_setElement_iff rfl

theorem fits_hideCandidateList_iff (hborder : border ≤ 3) {o : UIOutcomes} {p' : CandidatePopup}
    (h : p.hideCandidateList o = some p') : Fits border p' ↔ Fits border p := by
  have hshow : Fits border (p.showUI {} false) ↔ Fits border p := fits_showUI_iff hborder {} false
  unfold hideCandidateList at h
  dsimp only at h
  split_ifs at h
  all_goals
    cases h
    exact hshow

theorem fits_positionWindow_iff (o : LayoutOutcomes) : Fits border (p.positionWindow o) ↔ Fits border p := by
  unfold positionWindow
  split_ifs
  · exact Iff.rfl
  · cases o.rcText with
    | none => exact Iff.rfl
    | some rcText =>
      dsimp only
      split_ifs
      · rw [showWindow, fits_adjust_iff, moveWindow, fits_adjust_iff] <;> exact fun _ => rfl
      · rw [moveWindow, fits_adjust_iff]
        exact fun _ => rfl

theorem fits_onLayoutChange_iff (o : LayoutOutcomes) : Fits border (p.onLayoutChange o) ↔ Fits border p := by
  unfold onLayoutChange
  split_ifs
  · obtain ⟨h, -⟩ | ⟨rcText, -, -, h⟩ := triggerPositionUpdate_cases o p
    · rw [h]
    · rw [h, moveWindow, fits_adjust_iff]
      exact fun _ => rfl
  · exact Iff.rfl

end Fits

theorem step_fits_iff {border : ℤ} (hborder : border ≤ 3) {p : CandidatePopup} (hp : p.Kept)
    {e : PopupEvent} (he : e.bounded) (hfits : Fits border p) :
    Fits border (p.step e) ↔ p.keepsRows border e := by
  obtain ⟨p', hattempt, -⟩ := attempt_kept hp e
  have hstep : p.step e = p' := by rw [step, hattempt, Option.getD_some]
  rw [hstep]
  cases e with
  | activate =>
    cases hattempt
    exact iff_of_true hfits trivial
  | deactivate o =>
    refine iff_of_true ?_ trivial
    unfold attempt deactivate at hattempt
    dsimp only at hattempt
    split_ifs at hattempt
    · obtain ⟨q, hq, rfl⟩ := Option.map_eq_some_iff.mp hattempt
      exact (fits_hideCandidateList_iff hborder hq).mpr hfits
    · cases hattempt
      exact hfits
  | sync o layout shown candidates i =>
    unfold attempt syncCandidateList at hattempt
    dsimp only at hattempt
    unfold keepsRows UpdatesList
    split_ifs at hattempt with hempty
    · rw [List.isEmpty_iff] at hempty
      refine iff_of_true ((fits_hideCandidateList_iff hborder hattempt).mpr hfits) ?_
      intro hupdates
      exact absurd hempty hupdates.1
    · cases hattempt
      rw [List.isEmpty_iff] at hempty
      have hcount : (CandidateElement.wideCandidates candidates).length < 2 ^ 31 := by
        rw [CandidateElement.wideCandidates, List.length_map]
        exact Nat.lt_of_le_of_lt (List.length_filter_le ..) he
      by_cases hready : p.pThreadMgr ∧ o.getFocus ∧ o.getTop ∧ o.queryElementMgr
      · rw [fits_updateCandidateList_iff hborder hcount hready]
        exact ⟨fun h _ => h, fun h => h ⟨hempty, hready⟩⟩
      · rw [updateCandidateList, if_neg hready]
        exact iff_of_true hfits fun hupdates => absurd hupdates.2 hready
  | hide o => exact iff_of_true ((fits_hideCandidateList_iff hborder hattempt).mpr hfits) trivial
  | editSession layout =>
    cases hattempt
    exact iff_of_true ((fits_positionWindow_iff layout).mpr hfits) trivial
  | layoutChange layout =>
    cases hattempt
    exact iff_of_true ((fits_onLayoutChange_iff layout).mpr hfits) trivial
  | hostShow shown bShow =>
    cases hattempt
    exact iff_of_true ((fits_showUI_iff hborder shown bShow).mpr hfits) trivial
  | ownerDestroyed =>
    cases hattempt
    refine iff_of_true (fun w hw => ?_) trivial
    rw [withoutWindow_window] at hw
    cases hw

theorem rows_inside_iff {border : ℤ} (hborder : border ≤ 3) {es : List PopupEvent}
    (hes : ∀ e ∈ es, e.bounded) :
    Throughout step (Fits border) {} es ↔ Along step (keepsRows border) {} es := by
  have hall : Along step (fun _ e => e.bounded) {} es := along_of_forall (fun _ => hes) _
  refine throughout_iff_along (I := fun p => p.Kept ∧ Fits border p) (fun p hp => hp.2) ?_ ?_ ?_ hall
  · rintro p e ⟨hp, hfits⟩ he
    exact step_fits_iff hborder hp he hfits
  · rintro p e ⟨hp, hfits⟩ he hok
    exact ⟨step_kept hp e, (step_fits_iff hborder hp he hfits).mpr hok⟩
  · refine ⟨kept_start, fun w hw => ?_⟩
    cases hw

theorem rows_inside_moved :
    Throughout step (Fits 1) {} [.activate, .sync {} {} {} ["化".toList] 0,
      .sync {} { getTextExt := some (40, 60) } {} ["化".toList, "下".toList] 0] := by
  have hes : ∀ e ∈ [PopupEvent.activate, .sync {} {} {} ["化".toList] 0,
      .sync {} { getTextExt := some (40, 60) } {} ["化".toList, "下".toList] 0], e.bounded := by
    simp [PopupEvent.bounded]
  refine (rows_inside_iff (by decide) hes).mpr ⟨trivial, ?_, ?_, trivial⟩
  · intro _ hnone
    cases hnone
  · intro _ hnone
    cases hnone

/-! A window is created in the corner of the screen, and moved under the text before it is shown. -/

def Placed (p : CandidatePopup) : Prop := ∀ w, p.window = some w → w.visible = true → w.moved = true

def findsText (p : CandidatePopup) : PopupEvent → Prop
  | .sync o _ shown candidates _ =>
    p.UpdatesList o candidates → p.element.elementId = TF_INVALID_UIELEMENTID → p.window = none →
      (∃ id, o.beginUIElement = some (id, true)) → shown.createWindow = true → shown.layout.rcText.isSome
  | .hostShow shown bShow =>
    bShow = true → p.window = none → shown.createWindow = true →
      p.pThreadMgr = true ∧ shown.layout.rcText.isSome
  | _ => True

section Placed

variable {p : CandidatePopup}

def Moved (p : CandidatePopup) : Prop := ∀ w, p.window = some w → w.moved = true

theorem Moved.placed (hp : p.Moved) : p.Placed := fun w hw _ => hp w hw

theorem moved_adjust {f : Window → Window} (hf : ∀ w, w.moved = true → (f w).moved = true)
    (hp : p.Moved) : (p.adjust f).Moved := by
  intro w hw
  rw [adjust_window, Option.map_eq_some_iff] at hw
  obtain ⟨v, hv, rfl⟩ := hw
  exact hf v (hp v hv)

theorem moved_triggerPositionUpdate (hp : p.Moved) (o : LayoutOutcomes) :
    (p.triggerPositionUpdate o).Moved := by
  obtain ⟨h, -⟩ | ⟨rcText, -, -, h⟩ := triggerPositionUpdate_cases o p
  · rwa [h]
  · rw [h]
    exact moved_adjust (fun _ _ => rfl) hp

theorem moved_setCandidates (hp : p.Moved) (layout : LayoutOutcomes) (candidates : List WString)
    (i : Int32) : (p.setCandidates layout candidates i).Moved := by
  unfold setCandidates
  obtain ⟨h, -⟩ | ⟨rcText, -, h⟩ := sizeWindow_cases layout
    (p.setElement { p.element with list := p.list.setCandidates candidates i })
  · rw [h]
    exact hp
  · rw [h]
    exact moved_adjust (fun _ _ => rfl) hp

theorem setCandidates_window_none_iff (layout : LayoutOutcomes) (candidates : List WString) (i : Int32) :
    (p.setCandidates layout candidates i).window = none ↔ p.window = none := by
  unfold setCandidates
  obtain ⟨h, -⟩ | ⟨rcText, -, h⟩ := sizeWindow_cases layout
    (p.setElement { p.element with list := p.list.setCandidates candidates i })
  · rw [h]
    rfl
  · rw [h, placeWindow, adjust_window, Option.map_eq_none_iff]
    rfl

theorem showUI_placed (hp : p.Moved) (o : ShowOutcomes) (bShow : Bool) :
    ((p.showUI o bShow).Placed ↔ (bShow = true → p.window = none → o.createWindow = true →
        p.pThreadMgr = true ∧ o.layout.rcText.isSome)) ∧
      ((p.showUI o bShow).Placed → (p.showUI o bShow).Moved) := by
  cases hwindow : p.window with
  | some v =>
    have hmoved : (p.showUI o bShow).Moved := by
      intro w hw
      rw [showUI_window_of_some hwindow, Option.some.injEq] at hw
      rw [← hw]
      exact hp v hwindow
    refine ⟨iff_of_true hmoved.placed ?_, fun _ => hmoved⟩
    intro _ hnone
    cases hnone
  | none =>
    simp only [Placed, Moved, showUI_window_of_none hwindow]
    by_cases hcreated : bShow ∧ o.createWindow
    · simp only [hcreated.1, hcreated.2, forall_true_left]
      cases p.pThreadMgr <;> simp [createdWindow]
    · simp only [if_neg hcreated, reduceCtorEq, false_implies, implies_true, true_iff, and_true]
      intro hshow _ hok
      exact absurd ⟨hshow, hok⟩ hcreated

theorem updateCandidateList_placed (hp : p.Moved) {o : UIOutcomes}
    (hready : p.pThreadMgr ∧ o.getFocus ∧ o.getTop ∧ o.queryElementMgr) (layout : LayoutOutcomes)
    (shown : ShowOutcomes)
    (candidates : List WString) (i : Int32) :
    let p' := p.updateCandidateList o layout shown candidates i
    (p'.Placed ↔ (p.element.elementId = TF_INVALID_UIELEMENTID → p.window = none →
        (∃ id, o.beginUIElement = some (id, true)) → shown.createWindow = true →
        shown.layout.rcText.isSome)) ∧ (p'.Placed → p'.Moved) := by
  have hset := moved_setCandidates hp layout candidates i
  have hsame : (p.setCandidates layout candidates i).element.elementId = p.element.elementId := by
    rw [setCandidates_element]
  intro p'
  rw [show p' = p.updateCandidateList o layout shown candidates i from rfl, updateCandidateList,
    if_pos hready]
  dsimp only
  rw [hsame]
  by_cases hid : p.element.elementId = TF_INVALID_UIELEMENTID
  · rw [if_pos hid]
    cases hbegin : o.beginUIElement with
    | none =>
      refine ⟨iff_of_true hset.placed ?_, fun _ => hset⟩
      rintro _ _ ⟨id, h⟩
      cases h
    | some element =>
      obtain ⟨id, bShow⟩ := element
      have hshow := showUI_placed (p := (p.setCandidates layout candidates i).setElement
        ((p.setCandidates layout candidates i).element.beginUIElement id)) hset shown bShow
      rw [setElement_window, setCandidates_window_none_iff, setElement_pThreadMgr,
        setCandidates_pThreadMgr] at hshow
      refine ⟨Iff.trans hshow.1 ?_, hshow.2⟩
      simp only [hid, hready.1, Option.some.injEq, Prod.mk.injEq, exists_eq_left', forall_true_left, true_and]
      exact ⟨fun h hnone hshown => h hshown hnone, fun h hshown hnone => h hnone hshown⟩
  · rw [if_neg hid]
    exact ⟨iff_of_true hset.placed fun h => absurd h hid, fun _ => hset⟩

theorem moved_hideCandidateList (hp : p.Moved) {o : UIOutcomes} {p' : CandidatePopup}
    (h : p.hideCandidateList o = some p') : p'.Moved := by
  obtain ⟨hplaced, hmoved⟩ := showUI_placed hp {} false
  have hshow : (p.showUI {} false).Moved := hmoved (hplaced.mpr (by simp))
  unfold hideCandidateList at h
  dsimp only at h
  split_ifs at h
  all_goals
    cases h
    exact hshow

theorem moved_positionWindow (hp : p.Moved) (layout : LayoutOutcomes) : (p.positionWindow layout).Moved := by
  unfold positionWindow
  split_ifs
  · exact hp
  · cases layout.rcText with
    | none => exact hp
    | some rcText =>
      have hmove : (p.moveWindow rcText).Moved := moved_adjust (fun _ _ => rfl) hp
      dsimp only
      split_ifs
      · exact moved_adjust (fun _ h => h) hmove
      · exact hmove

theorem moved_onLayoutChange (hp : p.Moved) (layout : LayoutOutcomes) : (p.onLayoutChange layout).Moved := by
  unfold onLayoutChange
  split_ifs
  · exact moved_triggerPositionUpdate hp layout
  · exact hp

theorem moved_deactivate (hp : p.Moved) (o : UIOutcomes) : (p.step (.deactivate o)).Moved := by
  unfold step attempt deactivate
  dsimp only
  split_ifs
  · cases h : p.hideCandidateList o with
    | none => exact hp
    | some p' =>
      have hmoved : p'.Moved := moved_hideCandidateList hp h
      exact hmoved
  · exact hp

theorem moved_hide (hp : p.Moved) (o : UIOutcomes) : ((p.hideCandidateList o).getD p).Moved := by
  cases h : p.hideCandidateList o with
  | none => exact hp
  | some p' => exact moved_hideCandidateList hp h

theorem sync_placed (hp : p.Moved) (o : UIOutcomes) (layout : LayoutOutcomes) (shown : ShowOutcomes)
    (candidates : List Str) (i : Int32) :
    ((p.step (.sync o layout shown candidates i)).Placed ↔ p.findsText (.sync o layout shown candidates i)) ∧
      ((p.step (.sync o layout shown candidates i)).Placed →
        (p.step (.sync o layout shown candidates i)).Moved) := by
  unfold step attempt syncCandidateList findsText UpdatesList
  dsimp only
  by_cases hempty : (CandidateElement.wideCandidates candidates).isEmpty = true
  · rw [if_pos hempty]
    rw [List.isEmpty_iff] at hempty
    refine ⟨iff_of_true (moved_hide hp o).placed ?_, fun _ => moved_hide hp o⟩
    intro hupdates
    exact absurd hempty hupdates.1
  · rw [if_neg hempty, Option.getD_some]
    rw [List.isEmpty_iff] at hempty
    by_cases hready : p.pThreadMgr ∧ o.getFocus ∧ o.getTop ∧ o.queryElementMgr
    · have hupdate := updateCandidateList_placed hp hready layout shown
        (CandidateElement.wideCandidates candidates) i
      refine ⟨hupdate.1.trans ?_, hupdate.2⟩
      exact ⟨fun h _ => h, fun h => h ⟨hempty, hready⟩⟩
    · rw [updateCandidateList, if_neg hready]
      refine ⟨iff_of_true hp.placed ?_, fun _ => hp⟩
      intro hupdates
      exact absurd hupdates.2 hready

theorem step_placed (hp : p.Moved) (e : PopupEvent) :
    ((p.step e).Placed ↔ p.findsText e) ∧ ((p.step e).Placed → (p.step e).Moved) := by
  have hquiet : ∀ {p' : CandidatePopup}, p'.Moved → (p'.Placed ↔ True) ∧ (p'.Placed → p'.Moved) :=
    fun h => ⟨iff_of_true h.placed trivial, fun _ => h⟩
  cases e with
  | activate => exact hquiet hp
  | deactivate o => exact hquiet (moved_deactivate hp o)
  | sync o layout shown candidates i => exact sync_placed hp o layout shown candidates i
  | hide o => exact hquiet (moved_hide hp o)
  | editSession layout => exact hquiet (moved_positionWindow hp layout)
  | layoutChange layout => exact hquiet (moved_onLayoutChange hp layout)
  | hostShow shown bShow => exact showUI_placed hp shown bShow
  | ownerDestroyed =>
    apply hquiet
    intro w hw
    rw [show (p.step .ownerDestroyed).window = none from withoutWindow_window p] at hw
    cases hw

end Placed

theorem visible_placed_iff (es : List PopupEvent) :
    Throughout step Placed {} es ↔ Along step findsText {} es := by
  have hall : Along step (fun _ _ => True) {} es := along_of_forall (fun _ _ _ => trivial) _
  refine throughout_iff_along (I := Moved) (fun p hp => hp.placed) ?_ ?_ ?_ hall
  · intro p e hp _
    exact (step_placed hp e).1
  · intro p e hp _ hok
    obtain ⟨hplaced, hmoved⟩ := step_placed hp e
    exact hmoved (hplaced.mpr hok)
  · intro w hw
    cases hw

end CandidatePopup

end TCodeIME
