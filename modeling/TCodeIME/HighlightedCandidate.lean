import TCodeIME.Library.FilteredPositions
import TCodeIME.ScriptedServer

/-!
The candidate shown as selected against the candidate the selected index names.
-/

namespace TCodeIME

namespace CandidateElement

def isOpen (u : CandidateElement) : Prop := u.elementId ≠ TF_INVALID_UIELEMENTID

def highlighted (u : CandidateElement) : Option WString :=
  if 0 ≤ u.list.selectedIndex.toInt then u.list.candidates[u.list.selectedIndex.toInt.toNat]? else none

theorem updateCandidateList_shows {o : UIOutcomes} (ho : o.succeed = true) (candidates : List WString)
    (selectedIndex : Int32) (u : CandidateElement) :
    (u.updateCandidateList o true candidates selectedIndex).isOpen ∧
      (u.updateCandidateList o true candidates selectedIndex).list.candidates = candidates ∧
      (u.updateCandidateList o true candidates selectedIndex).list.selectedIndex = selectedIndex := by
  simp only [UIOutcomes.succeed, Bool.and_eq_true] at ho
  obtain ⟨⟨⟨hfocus, htop⟩, hquery⟩, hbegin⟩ := ho
  unfold updateCandidateList
  rw [if_pos ⟨rfl, hfocus, htop, hquery⟩]
  dsimp only
  split_ifs with hid
  · cases hb : o.beginUIElement with
    | none =>
      rw [hb] at hbegin
      cases hbegin
    | some element =>
      have hne : element.1 ≠ TF_INVALID_UIELEMENTID := by simpa [hb] using hbegin
      exact ⟨hne, rfl, rfl⟩
  · exact ⟨hid, rfl, rfl⟩

theorem hideCandidateList_closed {o : UIOutcomes} {u u' : CandidateElement}
    (h : u.hideCandidateList o true = some u') : ¬ u'.isOpen := by
  simp only [hideCandidateList, if_true] at h
  unfold isOpen
  split_ifs at h with hid
  · cases h
    simpa using hid
  · cases h
    simp
  · cases h
    simp

end CandidateElement

def namesHighlighted (candidates : List Str) (i : ℕ) : Prop :=
  (∀ text ∈ candidates.take (i + 1), (!text.isEmpty) = true) ∨
    ∃ j text, i < j ∧ candidates[j]? = some text ∧ (!text.isEmpty) = true ∧
      (candidates.take j).countP (fun text => !text.isEmpty) = i ∧
      some (utf8ToWide text) = candidates[i]?.map utf8ToWide

variable {E : Type}

namespace CTCodeIME

theorem highlighted_candidate_iff {o : UIOutcomes} (ho : o.succeed = true) {s : CTCodeIME E}
    (hp : s.pThreadMgr = true) (hlo : 0 ≤ s.selectedIndex.toInt)
    (hhi : s.selectedIndex.toInt.toNat < s.client.lastResponse.getCandidates.length) :
    (∃ s', s.syncCandidateList o = some s' ∧
      (s'.candidateUI.isOpen ↔ s.client.lastResponse.hasCandidates = true) ∧
      s'.candidateUI.highlighted =
        some (utf8ToWide (s.client.lastResponse.getCandidates.get ⟨s.selectedIndex.toInt.toNat, hhi⟩))) ↔
      namesHighlighted s.client.lastResponse.getCandidates s.selectedIndex.toInt.toNat := by
  have hhas : s.client.lastResponse.hasCandidates = true := by
    rw [BufferStatusResponse.hasCandidates_eq_true]
    exact List.ne_nil_of_length_pos (Nat.lt_of_le_of_lt (Nat.zero_le _) hhi)
  have hget : s.client.lastResponse.getCandidates[s.selectedIndex.toInt.toNat]? =
      some (s.client.lastResponse.getCandidates.get ⟨s.selectedIndex.toInt.toNat, hhi⟩) :=
    List.getElem?_eq_getElem hhi
  have hpositions := FilteredPositions.getElem?_map_filter_iff (fun text : Str => !text.isEmpty)
    utf8ToWide hhi
  unfold namesHighlighted
  simp only [hget, Option.map_some, Option.some.injEq]
  rw [← hpositions]
  unfold syncCandidateList
  rw [hp]
  unfold CandidateElement.syncCandidateList
  change _ ↔ (CandidateElement.wideCandidates _)[_]? = _
  by_cases hempty : (CandidateElement.wideCandidates s.client.lastResponse.getCandidates).isEmpty = true
  · rw [if_pos hempty, List.isEmpty_iff.mp hempty]
    refine iff_of_false ?_ (by simp)
    rintro ⟨s', hs', hopen, -⟩
    obtain ⟨u, hu, rfl⟩ := Option.map_eq_some_iff.mp hs'
    exact CandidateElement.hideCandidateList_closed hu (hopen.mpr hhas)
  · rw [if_neg hempty]
    obtain ⟨hopen, hcandidates, hindex⟩ := CandidateElement.updateCandidateList_shows ho
      (CandidateElement.wideCandidates s.client.lastResponse.getCandidates) s.selectedIndex s.candidateUI
    have hshown : (s.candidateUI.updateCandidateList o true
        (CandidateElement.wideCandidates s.client.lastResponse.getCandidates)
        s.selectedIndex).highlighted =
        (CandidateElement.wideCandidates s.client.lastResponse.getCandidates)[
          s.selectedIndex.toInt.toNat]? := by
      rw [CandidateElement.highlighted, hindex, hcandidates, if_pos hlo]
    rw [← hshown]
    constructor
    · rintro ⟨s', hs', -, hhighlighted⟩
      cases hs'
      exact hhighlighted
    · exact fun h => ⟨_, rfl, iff_of_true hopen hhas, h⟩

theorem highlighted_candidate_of_nonempty :
    let s : CTCodeIME ℕ :=
      { fresh with
        pThreadMgr := true
        client := { engine := 0, lastResponse := { candidates := [['化'], ['下'], []] } }
        selectedIndex := 1 }
    ∃ s', s.syncCandidateList {} = some s' ∧
      (s'.candidateUI.isOpen ↔ s.client.lastResponse.hasCandidates = true) ∧
      s'.candidateUI.highlighted = some (utf8ToWide ['下']) :=
  (highlighted_candidate_iff (by decide) rfl (by decide) (by decide)).mpr (.inl (by decide))

/-- An empty candidate in the middle: 下 is highlighted, 化 is what index 2 names to the engine. -/
theorem highlighted_candidate_shifted :
    let srv := Server.scripted
      [.status ⟨[], "か".toList, ["可".toList, [], "化".toList, "下".toList], "None".toList, true⟩]
    let s := Runs.run (step srv) fresh [.activate {}, .ctrlSlash, .key 0x4A, .key VK_DOWN, .key VK_DOWN]
    s.selectedIndex = 2 ∧ s.client.lastResponse.getCandidates[2]? = some "化".toList ∧
      (s.syncCandidateList {}).map (·.candidateUI.highlighted) = some (some (utf8ToWide "下".toList)) := by
  decide +kernel

end CTCodeIME

end TCodeIME
