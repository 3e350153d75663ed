import TCodeIME.CandidateListUI
import TCodeIME.Library.PageTable
import Mathlib.Data.UInt

namespace TCodeIME

open PageTable

structure Rect where
  left : ℤ
  top : ℤ
  right : ℤ
  bottom : ℤ
deriving DecidableEq

inductive RowBackground where
  | selected
  | alternate
  | plain
deriving DecidableEq

structure PaintedRow where
  indexStr : WString
  candidateStr : WString
  rcRow : Rect
  rcIndex : Rect
  rcText : Rect
  background : RowBackground
deriving DecidableEq

namespace CTCodeCandidateListUI

/-- The loop over a `UINT` that `SetCandidates` builds the page table with. Its counter wraps, so
it is given fuel. -/
def pageIndexLoop (size : UInt32) : ℕ → UInt32 → List UInt32 → Option (List UInt32)
  | 0, _, _ => none
  | fuel + 1, i, pageIndex =>
    if i < size then
      pageIndexLoop size fuel (i + UInt32.ofNat CANDIDATES_PER_PAGE) (pageIndex ++ [i])
    else some pageIndex

def getCurrentPage (l : CTCodeCandidateListUI) : ℕ := l.currentPage

/-! `WM_PAINT`. The product of the page and 9 is a `UINT`. -/

def startIndex (currentPage : ℕ) : ℕ := currentPage * 9 % 2 ^ 32

def endIndex (l : CTCodeCandidateListUI) : ℕ :=
  if l.candidates.length < startIndex l.currentPage + 9 then l.candidates.length
  else startIndex l.currentPage + 9

def indexStr (displayIndex : ℕ) : WString := Utf16.encode ((toString displayIndex).toList ++ [' '])

def paintRow (l : CTCodeCandidateListUI) (width : ℤ) (i : ℕ) (verticalPadding : ℤ) : PaintedRow :=
  let rcRow : Rect := ⟨1, verticalPadding, width - 1, verticalPadding + 32⟩
  let rcIndex : Rect := ⟨rcRow.left + 12, rcRow.top, rcRow.left + 35, rcRow.bottom⟩
  { indexStr := indexStr (i - startIndex l.currentPage + 1)
    candidateStr := l.candidates.getD i []
    rcRow := rcRow
    rcIndex := rcIndex
    rcText := ⟨rcIndex.right, rcRow.top, rcRow.right - 12, rcRow.bottom⟩
    background :=
      if Int32.ofNat i = l.selectedIndex then .selected
      else if (i - startIndex l.currentPage) % 2 = 1 then .alternate
      else .plain }

def paintRows (l : CTCodeCandidateListUI) (width : ℤ) : ℕ → ℕ → ℤ → List PaintedRow
  | 0, _, _ => []
  | rows + 1, i, verticalPadding =>
    l.paintRow width i verticalPadding :: l.paintRows width rows (i + 1) (verticalPadding + 32)

def paint (l : CTCodeCandidateListUI) (width : ℤ) : List PaintedRow :=
  l.paintRows width (l.endIndex - startIndex l.currentPage) (startIndex l.currentPage) 6

/-! The window sizing of `UpdateCandidateList`. -/

def itemCountOnThisPage (currentPage totalCandidates : ℕ) : Int32 :=
  if startIndex currentPage < totalCandidates then
    let itemCount := Int32.ofNat (totalCandidates - startIndex currentPage)
    if 9 < itemCount then 9 else itemCount
  else 0

def finalWindowHeight (itemCount : Int32) : Int32 := itemCount * 32 + 12

theorem pageStarts_from (count k : ℕ) :
    pageStarts count (9 * k) = (List.range' k ((count + 8) / 9 - k)).map (9 * ·) := by
  induction h : (count + 8) / 9 - k generalizing k with
  | zero =>
    rw [pageStarts, if_neg (by omega)]
    rfl
  | succ m ih =>
    have hnext := ih (k + 1) (by omega)
    rw [pageStarts, if_pos (by omega), List.range'_succ, List.map_cons, ← hnext]
    rfl

theorem pageStarts_zero (count : ℕ) :
    pageStarts count 0 = (List.range ((count + 8) / 9)).map (9 * ·) := by
  have h := pageStarts_from count 0
  rw [Nat.mul_zero, Nat.sub_zero, ← List.range_eq_range'] at h
  exact h

theorem pageStarts_getElem? (count p : ℕ) :
    (pageStarts count 0)[p]? = if 9 * p < count then some (9 * p) else none := by
  rw [pageStarts_zero, List.getElem?_map]
  split_ifs with h
  · rw [List.getElem?_range (by omega)]
    rfl
  · rw [List.getElem?_eq_none (by rw [List.length_range]; omega)]
    rfl

theorem pageStarts_next (count p : ℕ) :
    (pageStarts count 0)[p + 1]?.getD count = min (9 * (p + 1)) count := by
  rw [pageStarts_getElem?]
  split_ifs with h
  · exact (Nat.min_eq_left (Nat.le_of_lt h)).symm
  · exact (Nat.min_eq_right (Nat.le_of_not_lt h)).symm

theorem pageStarts_cuts {count : ℕ} (hpos : 0 < count) : Cuts count (pageStarts count 0) where
  first := by
    rw [List.head?_eq_getElem?, pageStarts_getElem?, if_pos hpos]
  ascending := by
    rw [pageStarts_zero, List.pairwise_map]
    apply List.pairwise_lt_range.imp
    intro a b hab
    omega
  below := by
    intro start hstart
    rw [pageStarts_zero, List.mem_map] at hstart
    obtain ⟨p, hp, rfl⟩ := hstart
    rw [List.mem_range] at hp
    omega

theorem pageStarts_pages_length {count : ℕ} {page : List ℕ}
    (hpage : page ∈ pages count (pageStarts count 0)) :
    0 < page.length ∧ page.length ≤ CANDIDATES_PER_PAGE := by
  refine pages_length_bounds ?_ hpage
  intro p start hstart
  rw [pageStarts_getElem?] at hstart
  rw [pageStarts_next, CANDIDATES_PER_PAGE]
  split_ifs at hstart with hp
  cases hstart
  omega

theorem pageStarts_page {count p : ℕ} (hp : 9 * p < count) :
    (pages count (pageStarts count 0))[p]? = some (List.range' (9 * p) (min 9 (count - 9 * p))) := by
  rw [pages_getElem?, pageStarts_next, pageStarts_getElem?, if_pos hp, Option.map_some]
  congr 2
  omega

theorem pageIndexLoop_eq {count i fuel : ℕ} {pageIndex : List UInt32} (hcount : count < 2 ^ 31)
    (hi : i < 2 ^ 31 + 9) (hfuel : (pageStarts count i).length < fuel) :
    pageIndexLoop (UInt32.ofNat count) fuel (UInt32.ofNat i) pageIndex =
      some (pageIndex ++ (pageStarts count i).map UInt32.ofNat) := by
  induction fuel generalizing i pageIndex with
  | zero => cases hfuel
  | succ fuel ih =>
    have hlt : UInt32.ofNat i < UInt32.ofNat count ↔ i < count := by
      rw [UInt32.lt_iff_toNat_lt, UInt32.toNat_ofNat', UInt32.toNat_ofNat']
      omega
    simp only [pageIndexLoop, hlt]
    split_ifs with h
    · have hstarts : pageStarts count i = i :: pageStarts count (i + 9) := by
        rw [pageStarts, if_pos h]
        rfl
      have hlength : (pageStarts count (i + 9)).length < fuel := by
        rw [hstarts, List.length_cons] at hfuel
        omega
      have hadd : UInt32.ofNat i + UInt32.ofNat CANDIDATES_PER_PAGE = UInt32.ofNat (i + 9) :=
        (UInt32.ofNat_add i 9).symm
      rw [hadd, ih (by omega) hlength, hstarts, List.map_cons, List.append_assoc]
      rfl
    · rw [pageStarts, if_neg h, List.map_nil, List.append_nil]

theorem paintRows_eq (l : CTCodeCandidateListUI) (width : ℤ) (rows i : ℕ) (verticalPadding : ℤ) :
    l.paintRows width rows i verticalPadding =
      (List.range rows).map fun j => l.paintRow width (i + j) (verticalPadding + 32 * j) := by
  induction rows generalizing i verticalPadding with
  | zero => rfl
  | succ rows ih =>
    rw [paintRows, ih, List.range_succ_eq_map, List.map_cons, List.map_map]
    rw [List.cons.injEq]
    constructor
    · simp
    · apply List.map_congr_left
      intro j _
      have hrow : i + 1 + j = i + (j + 1) := by omega
      have hpadding : verticalPadding + 32 + 32 * (j : ℤ) = verticalPadding + 32 * ((j + 1 : ℕ) : ℤ) := by
        push_cast
        omega
      rw [Function.comp_apply, Nat.succ_eq_add_one, hrow, hpadding]

section

variable {l : CTCodeCandidateListUI} {sel : ℕ}

structure ShowsSelected (l : CTCodeCandidateListUI) (sel : ℕ) : Prop where
  count : l.candidates.length < 2 ^ 31
  bound : sel < l.candidates.length
  selected : l.selectedIndex = Int32.ofNat sel
  table : l.pageIndex = pageStarts l.candidates.length 0
  page : l.currentPage = sel / 9

def pageOf (count sel : ℕ) : List ℕ := List.range' (9 * (sel / 9)) (min 9 (count - 9 * (sel / 9)))

theorem mem_pageOf {count : ℕ} (h : sel < count) : sel ∈ pageOf count sel := by
  rw [pageOf, List.mem_range'_1]
  omega

theorem setCandidates_showsSelected {candidates : List WString} {selectedIndex : Int32}
    (hn : candidates.length < 2 ^ 31) (hsel : 0 ≤ selectedIndex)
    (hlt : selectedIndex.toInt < candidates.length) :
    (l.setCandidates candidates selectedIndex).ShowsSelected selectedIndex.toInt.toNat where
  count := hn
  bound := by
    have hnonneg := Int32.le_iff_toInt_le.mp hsel
    rw [Int32.toInt_zero] at hnonneg
    change selectedIndex.toInt.toNat < candidates.length
    omega
  selected := by
    have hnonneg := Int32.le_iff_toInt_le.mp hsel
    rw [Int32.toInt_zero] at hnonneg
    apply Int32.toInt_inj.mp
    rw [Int32.toInt_ofNat_of_lt (by omega)]
    exact (Int.toNat_of_nonneg hnonneg).symm
  table := rfl
  page := by
    simp only [setCandidates, if_pos hsel]
    rfl

theorem ShowsSelected.startIndex_eq (h : l.ShowsSelected sel) :
    startIndex l.currentPage = 9 * (sel / 9) := by
  have hcount := h.count
  have hbound := h.bound
  rw [startIndex, h.page]
  omega

theorem ShowsSelected.page_shown (h : l.ShowsSelected sel) :
    (pages l.candidates.length l.pageIndex)[l.getCurrentPage]? = some (pageOf l.candidates.length sel) := by
  have hbound := h.bound
  rw [getCurrentPage, h.table, h.page]
  exact pageStarts_page (by omega)

theorem ShowsSelected.paint_eq (h : l.ShowsSelected sel) (width : ℤ) :
    l.paint width = (List.range (pageOf l.candidates.length sel).length).map fun j =>
      l.paintRow width (9 * (sel / 9) + j) (6 + 32 * j) := by
  have hend : l.endIndex - startIndex l.currentPage = (pageOf l.candidates.length sel).length := by
    have hbound := h.bound
    rw [pageOf, List.length_range', endIndex, h.startIndex_eq]
    split_ifs <;> omega
  rw [paint, paintRows_eq, hend, h.startIndex_eq]

theorem ShowsSelected.map_paint (h : l.ShowsSelected sel) (width : ℤ) {β : Type}
    {f : PaintedRow → β} {g : ℕ → β}
    (hfg : ∀ j : ℕ, 9 * (sel / 9) + j < l.candidates.length →
      f (l.paintRow width (9 * (sel / 9) + j) (6 + 32 * j)) = g (9 * (sel / 9) + j)) :
    (l.paint width).map f = (pageOf l.candidates.length sel).map g := by
  rw [h.paint_eq, pageOf, List.length_range', List.range'_eq_map_range, List.map_map, List.map_map]
  apply List.map_congr_left
  intro j hj
  rw [List.mem_range] at hj
  exact hfg j (by omega)

theorem ShowsSelected.painted_entries (h : l.ShowsSelected sel) (width : ℤ) :
    ((l.paint width).map fun row => some row.candidateStr) =
      (pageOf l.candidates.length sel).map fun i => l.candidates[i]? := by
  apply h.map_paint
  intro j hj
  simp [paintRow, List.getElem?_eq_getElem hj]

theorem pageOf_length_le (count sel : ℕ) : (pageOf count sel).length ≤ 9 := by
  rw [pageOf, List.length_range']
  omega

theorem indexStr_digit : ∀ j < 9, indexStr (j + 1) = [0x30 + UInt16.ofNat (j + 1), 0x20] := by decide

theorem ShowsSelected.painted_labels (h : l.ShowsSelected sel) (width : ℤ) :
    (l.paint width).map PaintedRow.indexStr =
      (List.range (pageOf l.candidates.length sel).length).map fun j =>
        [0x30 + UInt16.ofNat (j + 1), 0x20] := by
  rw [h.paint_eq, List.map_map]
  apply List.map_congr_left
  intro j hj
  have hnine := pageOf_length_le l.candidates.length sel
  rw [List.mem_range] at hj
  have hlabel : (l.paintRow width (9 * (sel / 9) + j) (6 + 32 * j)).indexStr = indexStr (j + 1) := by
    simp [paintRow, h.startIndex_eq]
  exact hlabel.trans (indexStr_digit j (by omega))

theorem ShowsSelected.painted_edges (h : l.ShowsSelected sel) (width : ℤ) :
    ((l.paint width).map fun row => (row.rcRow.top, row.rcRow.bottom)) =
      (List.range (pageOf l.candidates.length sel).length).map fun j : ℕ =>
        (6 + 32 * (j : ℤ), 6 + 32 * (j + 1 : ℤ)) := by
  rw [h.paint_eq, List.map_map]
  apply List.map_congr_left
  intro j _
  have hbottom : 6 + 32 * (j : ℤ) + 32 = 6 + 32 * ((j : ℤ) + 1) := by omega
  simp only [Function.comp_apply, paintRow, hbottom]

theorem ShowsSelected.painted_selection (h : l.ShowsSelected sel) (width : ℤ) :
    ((l.paint width).map fun row => decide (row.background = .selected)) =
      (pageOf l.candidates.length sel).map fun i => decide (i = sel) := by
  apply h.map_paint
  intro j hj
  have hcount := h.count
  have hbound := h.bound
  have hcast : Int32.ofNat (9 * (sel / 9) + j) = Int32.ofNat sel ↔ 9 * (sel / 9) + j = sel := by
    rw [← Int32.toInt_inj, Int32.toInt_ofNat_of_lt (by omega), Int32.toInt_ofNat_of_lt (by omega)]
    omega
  simp only [paintRow, h.selected, hcast, decide_eq_decide]
  split_ifs with hi <;> simp [hi]

theorem ShowsSelected.itemCount (h : l.ShowsSelected sel) :
    (itemCountOnThisPage l.getCurrentPage l.candidates.length).toInt =
      (pageOf l.candidates.length sel).length := by
  have hcount := h.count
  have hbound := h.bound
  have hrest := Int32.toInt_ofNat_of_lt (n := l.candidates.length - 9 * (sel / 9)) (by omega)
  rw [itemCountOnThisPage, getCurrentPage, h.startIndex_eq, if_pos (by omega), pageOf,
    List.length_range']
  simp only [Int32.lt_iff_toInt_lt, hrest]
  split_ifs with hnine
  · change (9 : ℤ) < _ at hnine
    change (9 : ℤ) = _
    omega
  · change ¬ (9 : ℤ) < _ at hnine
    rw [hrest]
    omega

theorem finalWindowHeight_toInt {itemCount : Int32} (hlo : 0 ≤ itemCount.toInt)
    (hhi : itemCount.toInt ≤ 9) : (finalWindowHeight itemCount).toInt = 32 * itemCount.toInt + 12 := by
  rw [finalWindowHeight, Int32.toInt_add, Int32.toInt_mul]
  change ((itemCount.toInt * 32).bmod (2 ^ 32) + 12).bmod (2 ^ 32) = _
  simp only [Int.bmod_def]
  omega

theorem ShowsSelected.painted_inside (h : l.ShowsSelected sel) (width : ℤ) {row : PaintedRow}
    (hrow : row ∈ l.paint width) :
    0 ≤ row.rcRow.top ∧ row.rcRow.bottom ≤
      (finalWindowHeight (itemCountOnThisPage l.getCurrentPage l.candidates.length)).toInt := by
  have hitems := h.itemCount
  have hnine := pageOf_length_le l.candidates.length sel
  rw [h.paint_eq, List.mem_map] at hrow
  obtain ⟨j, hj, rfl⟩ := hrow
  rw [List.mem_range] at hj
  rw [finalWindowHeight_toInt (by omega) (by omega), hitems]
  simp only [paintRow]
  omega

end

theorem setCandidates_views_agree (l : CTCodeCandidateListUI) (candidates : List WString)
    (selectedIndex : Int32) (width : ℤ) (hpos : 0 < candidates.length)
    (hn : candidates.length < 2 ^ 31) (hsel : 0 ≤ selectedIndex)
    (hlt : selectedIndex.toInt < candidates.length) :
    let n := candidates.length
    let l' := l.setCandidates candidates selectedIndex
    l'.pageIndex = (List.range ((n + 8) / 9)).map (9 * ·) ∧
    (∀ fuel, (n + 8) / 9 < fuel → pageIndexLoop (UInt32.ofNat n) fuel 0 [] =
      some (l'.pageIndex.map UInt32.ofNat)) ∧
    (pages n l'.pageIndex).flatten = List.range n ∧
    (∀ page ∈ pages n l'.pageIndex, 0 < page.length ∧ page.length ≤ 9) ∧
    ∃ page, (pages n l'.pageIndex)[l'.getCurrentPage]? = some page ∧
      selectedIndex.toInt.toNat ∈ page ∧
      ((l'.paint width).map fun row => some row.candidateStr) = page.map (fun i => candidates[i]?) ∧
      (l'.paint width).map PaintedRow.indexStr =
        (List.range page.length).map (fun j => [0x30 + UInt16.ofNat (j + 1), 0x20]) ∧
      ((l'.paint width).map fun row => decide (row.background = .selected)) =
        page.map (fun i => decide (i = selectedIndex.toInt.toNat)) ∧
      page.count selectedIndex.toInt.toNat = 1 ∧
      (itemCountOnThisPage l'.getCurrentPage n).toInt = page.length ∧
      ((l'.paint width).map fun row => (row.rcRow.top, row.rcRow.bottom)) =
        (List.range page.length).map (fun j : ℕ => (6 + 32 * (j : ℤ), 6 + 32 * (j + 1 : ℤ))) ∧
      ∀ row ∈ l'.paint width, 0 ≤ row.rcRow.top ∧ row.rcRow.bottom ≤
        (finalWindowHeight (itemCountOnThisPage l'.getCurrentPage n)).toInt := by
  intro n l'
  have h : l'.ShowsSelected selectedIndex.toInt.toNat := setCandidates_showsSelected hn hsel hlt
  have hmem := mem_pageOf h.bound
  refine ⟨pageStarts_zero n, ?_, flatten_pages (pageStarts_cuts hpos),
    fun page hpage => pageStarts_pages_length hpage,
    pageOf n selectedIndex.toInt.toNat, h.page_shown, hmem, h.painted_entries width,
    h.painted_labels width, h.painted_selection width, ?_, h.itemCount, h.painted_edges width,
    fun row hrow => h.painted_inside width hrow⟩
  · intro fuel hfuel
    have hlength : (pageStarts n 0).length < fuel := by
      rw [pageStarts_zero, List.length_map, List.length_range]
      exact hfuel
    exact pageIndexLoop_eq (i := 0) hn (by decide) hlength
  · exact List.count_eq_one_of_mem (List.nodup_range' ..) hmem

theorem setCandidates_views_agree_eleven :
    let candidates := List.replicate 11 [0x4E00]
    let l' := ({} : CTCodeCandidateListUI).setCandidates candidates 10
    (itemCountOnThisPage l'.getCurrentPage candidates.length).toInt = 2 ∧
    (l'.paint 240).map (fun row => some row.candidateStr) = [candidates[9]?, candidates[10]?] ∧
    (l'.paint 240).map PaintedRow.indexStr = [[0x31, 0x20], [0x32, 0x20]] := by
  obtain ⟨-, -, -, -, page, hpage, -, hentries, hlabels, -, -, hitems, -⟩ :=
    setCandidates_views_agree {} (List.replicate 11 [0x4E00]) 10 240 (by decide) (by decide)
      (by decide) (by decide)
  have htwo : page = [9, 10] := by
    have htable : (pages 11 (pageStarts 11 0))[1]? = some [9, 10] := pageStarts_page (by decide)
    exact Option.some.inj (hpage.symm.trans htable)
  rw [htwo] at hentries hlabels hitems
  exact ⟨hitems, hentries, hlabels⟩

end CTCodeCandidateListUI

end TCodeIME
