import TCodeIME.GlazeModels
import Mathlib.Data.List.Basic

namespace TCodeIME

structure CTCodeCandidateListUI where
  candidates : List WString := []
  selectedIndex : Int32 := -1
  isShown : Bool := false
  updatedFlags : UInt32 := 0
  currentPage : ℕ := 0
  pageIndex : List ℕ := []

namespace CTCodeCandidateListUI

def TF_CLUIE_COUNT : UInt32 := 0x02
def TF_CLUIE_SELECTION : UInt32 := 0x04
def TF_CLUIE_STRING : UInt32 := 0x08
def TF_CLUIE_PAGEINDEX : UInt32 := 0x10
def TF_CLUIE_CURRENTPAGE : UInt32 := 0x20

def CANDIDATES_PER_PAGE : ℕ := 9

def pageStarts (count i : ℕ) : List ℕ :=
  if i < count then i :: pageStarts count (i + CANDIDATES_PER_PAGE) else []
termination_by count - i
decreasing_by simp only [CANDIDATES_PER_PAGE]; omega

def setCandidates (candidates : List WString) (selectedIndex : Int32) (l : CTCodeCandidateListUI) :
    CTCodeCandidateListUI :=
  let pageIndex := pageStarts candidates.length 0
  let flags := TF_CLUIE_COUNT ||| TF_CLUIE_STRING ||| TF_CLUIE_SELECTION
  { l with
    candidates := candidates
    selectedIndex := selectedIndex
    pageIndex := pageIndex
    currentPage :=
      if 0 ≤ selectedIndex then selectedIndex.toInt.toNat / CANDIDATES_PER_PAGE else l.currentPage
    updatedFlags :=
      if pageIndex.isEmpty then flags else flags ||| TF_CLUIE_PAGEINDEX ||| TF_CLUIE_CURRENTPAGE }

def showWindow (bShow : Bool) (l : CTCodeCandidateListUI) : CTCodeCandidateListUI :=
  { l with isShown := bShow }

end CTCodeCandidateListUI

inductive ElementCall where
  | beginElement (id : UInt32)
  | updateElement (id : UInt32)
  | endElement (id : UInt32)
deriving DecidableEq

def TF_INVALID_UIELEMENTID : UInt32 := 0xFFFFFFFF

/-- The candidate list with `_dwCandidateListUIElementId`, the elements open at the UI element
manager and the calls made to it, oldest first. -/
structure CandidateElement where
  list : CTCodeCandidateListUI := {}
  elementId : UInt32 := TF_INVALID_UIELEMENTID
  openElements : List UInt32 := []
  calls : List ElementCall := []

/-- `beginUIElement` is the id and the `bShow` that a successful `BeginUIElement` returns. -/
structure UIOutcomes where
  getFocus : Bool := true
  getTop : Bool := true
  queryElementMgr : Bool := true
  beginUIElement : Option (UInt32 × Bool) := some (0, true)

def UIOutcomes.succeed (o : UIOutcomes) : Bool :=
  o.getFocus && o.getTop && o.queryElementMgr &&
    o.beginUIElement.any fun element => element.1 != TF_INVALID_UIELEMENTID

theorem UIOutcomes.queryElementMgr_of_succeed {o : UIOutcomes} (h : o.succeed = true) :
    o.queryElementMgr = true := by
  simp only [succeed, Bool.and_eq_true] at h
  exact h.1.2

namespace CandidateElement

def beginUIElement (id : UInt32) (u : CandidateElement) : CandidateElement :=
  { u with
    elementId := id
    openElements := u.openElements ++ [id]
    calls := u.calls ++ [.beginElement id] }

def updateUIElement (u : CandidateElement) : CandidateElement :=
  { u with calls := u.calls ++ [.updateElement u.elementId] }

def endUIElement (u : CandidateElement) : CandidateElement :=
  { u with
    openElements := u.openElements.erase u.elementId
    calls := u.calls ++ [.endElement u.elementId] }

def updateCandidateList (o : UIOutcomes) (pThreadMgr : Bool) (candidates : List WString)
    (selectedIndex : Int32) (u : CandidateElement) : CandidateElement :=
  if pThreadMgr ∧ o.getFocus ∧ o.getTop ∧ o.queryElementMgr then
    let u := { u with list := u.list.setCandidates candidates selectedIndex }
    if u.elementId = TF_INVALID_UIELEMENTID then
      match o.beginUIElement with
      | none => u
      | some (id, bShow) =>
        let u := u.beginUIElement id
        { u with list := u.list.showWindow bShow }.updateUIElement
    else u.updateUIElement
  else u

/-- An open element is ended through `_pThreadMgr`, which is not tested for null here. -/
def hideCandidateList (o : UIOutcomes) (pThreadMgr : Bool) (u : CandidateElement) :
    Option CandidateElement :=
  let u := { u with list := u.list.showWindow false }
  if u.elementId = TF_INVALID_UIELEMENTID then some u
  else if pThreadMgr then
    let u := if o.queryElementMgr then u.endUIElement else u
    some { u with elementId := TF_INVALID_UIELEMENTID }
  else none

def wideCandidates (candidates : List Str) : List WString :=
  (candidates.filter (fun utf8Str => !utf8Str.isEmpty)).map utf8ToWide

def syncCandidateList (o : UIOutcomes) (pThreadMgr : Bool) (candidates : List Str)
    (selectedIndex : Int32) (u : CandidateElement) : Option CandidateElement :=
  if (wideCandidates candidates).isEmpty then u.hideCandidateList o pThreadMgr
  else some (u.updateCandidateList o pThreadMgr (wideCandidates candidates) selectedIndex)

theorem hideCandidateList_isSome (o : UIOutcomes) (u : CandidateElement) :
    (u.hideCandidateList o true).isSome := by
  simp only [hideCandidateList, ↓reduceIte]
  split_ifs <;> rfl

theorem syncCandidateList_isSome (o : UIOutcomes) (candidates : List Str) (selectedIndex : Int32)
    (u : CandidateElement) : (u.syncCandidateList o true candidates selectedIndex).isSome := by
  unfold syncCandidateList
  split_ifs
  · exact hideCandidateList_isSome o u
  · rfl

def tracks (u : CandidateElement) : Prop :=
  u.openElements = if u.elementId = TF_INVALID_UIELEMENTID then [] else [u.elementId]

theorem hideCandidateList_closes {o : UIOutcomes} (ho : o.queryElementMgr = true) {pThreadMgr : Bool}
    {u u' : CandidateElement} (hu : u.tracks) (h : u.hideCandidateList o pThreadMgr = some u') :
    u'.elementId = TF_INVALID_UIELEMENTID ∧ u'.openElements = [] := by
  unfold tracks at hu
  simp only [hideCandidateList, ho, if_true] at h
  split_ifs at h with hid hp
  · cases h
    rw [if_pos hid] at hu
    exact ⟨hid, hu⟩
  · cases h
    rw [if_neg hid] at hu
    exact ⟨rfl, by simp [endUIElement, hu]⟩

theorem hideCandidateList_tracks {o : UIOutcomes} (ho : o.queryElementMgr = true) {pThreadMgr : Bool}
    {u u' : CandidateElement} (hu : u.tracks) (h : u.hideCandidateList o pThreadMgr = some u') :
    u'.tracks := by
  obtain ⟨hid, hopen⟩ := hideCandidateList_closes ho hu h
  rw [tracks, if_pos hid, hopen]

theorem updateCandidateList_tracks {o : UIOutcomes} (ho : o.succeed = true) (pThreadMgr : Bool)
    (candidates : List WString) (selectedIndex : Int32) {u : CandidateElement} (hu : u.tracks) :
    (u.updateCandidateList o pThreadMgr candidates selectedIndex).tracks := by
  simp only [UIOutcomes.succeed, Bool.and_eq_true] at ho
  obtain ⟨-, hbegin⟩ := ho
  unfold updateCandidateList
  split_ifs with hready
  · dsimp only
    split_ifs with hid
    · unfold tracks at hu
      rw [if_pos hid] at hu
      cases hb : o.beginUIElement with
      | none =>
        rw [hb] at hbegin
        cases hbegin
      | some element =>
        have hne : element.1 ≠ TF_INVALID_UIELEMENTID := by simpa [hb] using hbegin
        simp [tracks, beginUIElement, updateUIElement, hu, hne]
    · exact hu
  · exact hu

theorem syncCandidateList_tracks {o : UIOutcomes} (ho : o.succeed = true) {pThreadMgr : Bool}
    {candidates : List Str} {selectedIndex : Int32} {u u' : CandidateElement} (hu : u.tracks)
    (h : u.syncCandidateList o pThreadMgr candidates selectedIndex = some u') : u'.tracks := by
  unfold syncCandidateList at h
  split_ifs at h
  · exact hideCandidateList_tracks (UIOutcomes.queryElementMgr_of_succeed ho) hu h
  · cases h
    exact updateCandidateList_tracks ho pThreadMgr _ selectedIndex hu

end CandidateElement

end TCodeIME
