import TCodeIME.CandidateWindow
import TCodeIME.Library.Runs

namespace TCodeIME

open PageTable Runs

namespace CTCodeCandidateListUI

def getCount (l : CTCodeCandidateListUI) : ℕ := l.candidates.length

def getSelection (l : CTCodeCandidateListUI) : ℕ :=
  if 0 ≤ l.selectedIndex then l.selectedIndex.toInt.toNat else 0

def getString (uIndex : ℕ) (l : CTCodeCandidateListUI) : Option WString := l.candidates[uIndex]?

/-- The page count, and the table where the buffer of the host has room for it. -/
def getPageIndex (uPageSize : ℕ) (l : CTCodeCandidateListUI) : ℕ × Option (List ℕ) :=
  (l.pageIndex.length, if l.pageIndex.length ≤ uPageSize then some l.pageIndex else none)

def getUpdatedFlags (l : CTCodeCandidateListUI) : UInt32 × CTCodeCandidateListUI :=
  (l.updatedFlags, { l with updatedFlags := 0 })

def setPageIndex (pageIndex : List ℕ) (l : CTCodeCandidateListUI) : CTCodeCandidateListUI :=
  { l with pageIndex := pageIndex }

def clearCandidates (l : CTCodeCandidateListUI) : CTCodeCandidateListUI :=
  { l with
    candidates := []
    selectedIndex := -1
    pageIndex := []
    currentPage := 0
    updatedFlags := TF_CLUIE_COUNT }

end CTCodeCandidateListUI

inductive ListWrite where
  | setCandidates (candidates : List WString) (selectedIndex : Int32)
  | clearCandidates
  | setPageIndex (pageIndex : List ℕ)

namespace ListWrite

def write (l : CTCodeCandidateListUI) : ListWrite → CTCodeCandidateListUI
  | setCandidates candidates selectedIndex => l.setCandidates candidates selectedIndex
  | clearCandidates => l.clearCandidates
  | setPageIndex pageIndex => l.setPageIndex pageIndex

/-- An index from -1 to the last position, and a table that cuts the positions of the list. -/
def wellFormed (l : CTCodeCandidateListUI) : ListWrite → Prop
  | setCandidates candidates selectedIndex =>
    -1 ≤ selectedIndex ∧ selectedIndex.toInt < candidates.length
  | clearCandidates => True
  | setPageIndex pageIndex => Cuts l.getCount pageIndex

def keepsPage (l : CTCodeCandidateListUI) : ListWrite → Prop
  | setCandidates candidates selectedIndex =>
    candidates = [] ∨ 0 ≤ selectedIndex ∨ l.currentPage = 0
  | clearCandidates => True
  | setPageIndex pageIndex => Shows l.getCount pageIndex l.currentPage l.getSelection

end ListWrite

namespace CTCodeCandidateListUI

def Consistent (l : CTCodeCandidateListUI) : Prop :=
  l.candidates ≠ [] →
    l.getCurrentPage < (l.getPageIndex 0).1 ∧
      Shows l.getCount l.pageIndex l.getCurrentPage l.getSelection

theorem consistent_iff {l : CTCodeCandidateListUI} (h : l.candidates ≠ []) :
    l.Consistent ↔ Shows l.getCount l.pageIndex l.currentPage l.getSelection := by
  constructor
  · intro hl
    exact (hl h).2
  · intro hshows _
    refine ⟨?_, hshows⟩
    obtain ⟨start, hstart, -⟩ := hshows
    exact (List.getElem?_eq_some_iff.mp hstart).1

theorem pageStarts_shows {count p i : ℕ} (hi : i < count) :
    Shows count (pageStarts count 0) p i ↔ p = i / 9 := by
  simp only [Shows, pageStarts_next]
  rw [pageStarts_getElem?]
  constructor
  · rintro ⟨start, hstart, hle, hlt⟩
    split_ifs at hstart with hp
    cases hstart
    omega
  · rintro rfl
    exact ⟨9 * (i / 9), if_pos (by omega), by omega, by omega⟩

theorem setCandidates_consistent_iff {l : CTCodeCandidateListUI} {candidates : List WString}
    {selectedIndex : Int32} (hlt : selectedIndex.toInt < candidates.length) :
    (l.setCandidates candidates selectedIndex).Consistent ↔
      candidates = [] ∨ 0 ≤ selectedIndex ∨ l.currentPage = 0 := by
  by_cases hempty : candidates = []
  · exact iff_of_true (fun h => absurd hempty h) (Or.inl hempty)
  · have hpos : 0 < candidates.length := List.length_pos_iff.mpr hempty
    rw [consistent_iff (l := l.setCandidates candidates selectedIndex) hempty]
    by_cases hsel : 0 ≤ selectedIndex
    · have hnonneg := Int32.le_iff_toInt_le.mp hsel
      rw [Int32.toInt_zero] at hnonneg
      have hshows : Shows candidates.length (pageStarts candidates.length 0)
          (selectedIndex.toInt.toNat / 9) selectedIndex.toInt.toNat :=
        (pageStarts_shows (by omega)).mpr rfl
      simpa [setCandidates, getCount, getSelection, hsel, CANDIDATES_PER_PAGE] using hshows
    · have hshows := pageStarts_shows (p := l.currentPage) hpos
      simpa [setCandidates, getCount, getSelection, hsel, hempty] using hshows

end CTCodeCandidateListUI

open CTCodeCandidateListUI ListWrite

theorem write_consistent_iff {l : CTCodeCandidateListUI} {w : ListWrite} (hw : w.wellFormed l) :
    (w.write l).Consistent ↔ w.keepsPage l := by
  cases w with
  | setCandidates candidates selectedIndex => exact setCandidates_consistent_iff hw.2
  | clearCandidates => exact iff_of_true (fun h => absurd rfl h) trivial
  | setPageIndex pageIndex =>
    have hcount : l.candidates ≠ [] := by
      intro hnil
      have hfirst := hw.below 0 (List.mem_of_mem_head? hw.first)
      rw [getCount, hnil] at hfirst
      cases hfirst
    exact consistent_iff (l := l.setPageIndex pageIndex) hcount

theorem consistent_throughout_iff {ws : List ListWrite}
    (hws : Along write (fun l w => w.wellFormed l) {} ws) :
    Throughout write Consistent {} ws ↔ Along write (fun l w => w.keepsPage l) {} ws := by
  apply throughout_iff_along (I := Consistent) (fun l h => h) ?_ ?_ ?_ hws
  · intro l w _ hw
    exact write_consistent_iff hw
  · intro l w _ hw hkeep
    exact (write_consistent_iff hw).mpr hkeep
  · intro h
    exact absurd rfl h

theorem consistent_throughout_reselected :
    Throughout write Consistent {} [.setCandidates [[0x4E00], [0x4E8C]] 1, .setPageIndex [0]] := by
  have hws : Along write (fun l w => w.wellFormed l) {}
      [.setCandidates [[0x4E00], [0x4E8C]] 1, .setPageIndex [0]] :=
    ⟨⟨by decide, by decide⟩, ⟨rfl, by decide, by decide⟩, trivial⟩
  exact (consistent_throughout_iff hws).mpr
    ⟨Or.inr (Or.inl (by decide)), ⟨0, rfl, by decide, by decide⟩, trivial⟩

/-- A host that repaginates two candidates into a page each, while the second one is selected, is
still told that the first page is current. -/
theorem repaginated_page_inconsistent :
    let ws := [.setCandidates [[0x4E00], [0x4E8C]] 1, .setPageIndex [0, 1]]
    Along write (fun l w => w.wellFormed l) {} ws ∧ ¬ Throughout write Consistent {} ws := by
  refine ⟨⟨⟨by decide, by decide⟩, ⟨rfl, by decide, by decide⟩, trivial⟩, ?_⟩
  rintro ⟨-, -, h⟩
  have hshows : Shows 2 [0, 1] 0 1 := (h (List.cons_ne_nil _ _)).2
  exact absurd hshows (by decide)

end TCodeIME
