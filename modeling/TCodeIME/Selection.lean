import TCodeIME.Events
import TCodeIME.ScriptedServer

/-!
The selected index against the cached candidate list.
-/

namespace TCodeIME

theorem toInt_ofNat (n : ℕ) : (Int32.ofNat n).toInt = ((n : ℤ) + 2 ^ 31) % 2 ^ 32 - 2 ^ 31 := by
  rw [Int32.toInt_ofNat', Int.bmod_def]
  simp only [Int32.size]
  split_ifs <;> omega

theorem toInt_add_one (i : Int32) :
    (i + 1).toInt = if i.toInt + 1 < 2 ^ 31 then i.toInt + 1 else -2 ^ 31 := by
  have hlo := Int32.le_toInt i
  have hhi := Int32.toInt_lt i
  rw [Int32.toInt_add, Int32.toInt_one, Int.bmod_def]
  split_ifs <;> omega

theorem toInt_sub_one (i : Int32) :
    (i - 1).toInt = if -2 ^ 31 < i.toInt then i.toInt - 1 else 2 ^ 31 - 1 := by
  have hlo := Int32.le_toInt i
  have hhi := Int32.toInt_lt i
  rw [Int32.toInt_sub, Int32.toInt_one, Int.bmod_def]
  split_ifs <;> omega

def Request.namesCandidate (candidates : ℕ) : Request → Prop
  | .select n => 0 ≤ n.toInt ∧ n.toInt < candidates
  | _ => True

instance (candidates : ℕ) (request : Request) : Decidable (request.namesCandidate candidates) :=
  match request with
  | .select n => inferInstanceAs (Decidable (0 ≤ n.toInt ∧ n.toInt < candidates))
  | .put _ | .backspace | .left | .right | .convert | .reset | .commit => isTrue trivial

def BufferStatusResponse.fitsSelection (i : Int32) (r : BufferStatusResponse) : Prop :=
  r.getCandidates = [] ∨ i.toInt < r.getCandidates.length

def Keystroke.keepsSelection (candidates : ℕ) (i : Int32) (r : BufferStatusResponse) : Keystroke → Prop
  | .nextCandidate => i.toInt + 1 < candidates ∧ i.toInt + 1 < 2 ^ 31
  | .move _ => 1 ≤ candidates % 2 ^ 32 ∧ candidates % 2 ^ 32 ≤ 2 ^ 31
  | .put _ => r.fitsSelection i
  | .back => r.fitsSelection i
  | .convert => r.fitsSelection i
  | .inflect _ => r.fitsSelection i
  | .toDirect => r.fitsSelection i
  | _ => True

instance (i : Int32) (r : BufferStatusResponse) : Decidable (r.fitsSelection i) :=
  inferInstanceAs (Decidable (_ ∨ _))

instance (candidates : ℕ) (i : Int32) (r : BufferStatusResponse) (k : Keystroke) :
    Decidable (k.keepsSelection candidates i r) :=
  match k with
  | .nextCandidate | .move _ => inferInstanceAs (Decidable (_ ∧ _))
  | .put _ | .back | .convert | .inflect _ | .toDirect => inferInstanceAs (Decidable (r.fitsSelection i))
  | .passed | .toTcode | .select | .idle => isTrue trivial

variable {E : Type}

namespace CTCodeIME

theorem boundIndex_toInt {n : ℕ} (hn : 0 < n) (i : Int32) :
    0 ≤ (boundIndex n i).toInt ∧ (boundIndex n i).toInt < n ↔
      1 ≤ n % 2 ^ 32 ∧ n % 2 ^ 32 ≤ 2 ^ 31 := by
  have hhi := Int32.toInt_lt i
  have hofNat := toInt_ofNat n
  have hsub := toInt_sub_one (Int32.ofNat n)
  have hzero : (if i < 0 then 0 else i).toInt = max 0 i.toInt := by
    simp only [Int32.lt_iff_toInt_lt, Int32.toInt_zero]
    split_ifs <;> simp <;> omega
  unfold boundIndex
  dsimp only
  by_cases hle : Int32.ofNat n ≤ if i < 0 then 0 else i
  · rw [if_pos ⟨hn, hle⟩, hsub]
    rw [Int32.le_iff_toInt_le, hzero] at hle
    split_ifs <;> omega
  · rw [if_neg (fun h => hle h.2), hzero]
    rw [Int32.le_iff_toInt_le, hzero] at hle
    omega

def selectionInRange (s : CTCodeIME E) : Prop :=
  s.client.lastResponse.getCandidates ≠ [] →
    0 ≤ s.selectedIndex.toInt ∧ s.selectedIndex.toInt < s.client.lastResponse.getCandidates.length

def keepsSelection (srv : Server E) (s : CTCodeIME E) : Event → Prop
  | .keyDown o _ wParam keys =>
    let k := s.keystroke o.compartment wParam keys
    k.keepsSelection s.client.lastResponse.getCandidates.length s.selectedIndex (s.response srv k)
  | _ => True

def selectsExisting (srv : Server E) (s : CTCodeIME E) (e : Event) : Prop :=
  ∀ x ∈ s.exchangesSince (s.step srv e),
    x.request.namesCandidate s.client.lastResponse.getCandidates.length

instance (srv : Server E) (s : CTCodeIME E) (e : Event) : Decidable (s.keepsSelection srv e) :=
  match e with
  | .keyDown _ _ _ _ => inferInstanceAs (Decidable (Keystroke.keepsSelection _ _ _ _))
  | .click _ | .change _ _ | .terminated | .activate _ | .deactivate _ | .edited _ _ _ | .selected _ _ =>
    isTrue trivial

instance (s : CTCodeIME E) : Decidable s.selectionInRange :=
  inferInstanceAs (Decidable (_ → _ ∧ _))

instance (srv : Server E) (s : CTCodeIME E) (e : Event) : Decidable (s.selectsExisting srv e) :=
  inferInstanceAs (Decidable (∀ x ∈ _, _))

theorem fitsSelection_iff {s : CTCodeIME E} (hs : 0 ≤ s.selectedIndex.toInt) (r : BufferStatusResponse) :
    r.fitsSelection s.selectedIndex ↔ (r.getCandidates ≠ [] →
      0 ≤ s.selectedIndex.toInt ∧ s.selectedIndex.toInt < r.getCandidates.length) := by
  unfold BufferStatusResponse.fitsSelection
  tauto

theorem selectionInRange_onKeyDown {srv : Server E} {o : KeyOutcomes} {pic : ContextId} {wParam : ℕ}
    {keys : Modifiers} {s : CTCodeIME E} (hnonneg : 0 ≤ s.selectedIndex.toInt)
    (hs : s.selectionInRange)
    (hexit : (s.onKeyDown srv o pic wParam keys).exit ≠ .accessViolation) :
    (s.onKeyDown srv o pic wParam keys).ime.selectionInRange ↔
      s.keepsSelection srv (.keyDown o pic wParam keys) := by
  have hadmits := keystroke_admits o.compartment wParam keys s
  unfold selectionInRange
  rw [onKeyDown_lastResponse, onKeyDown_selectedIndex srv o pic wParam keys s hexit]
  simp only [keepsSelection]
  cases hk : s.keystroke o.compartment wParam keys with
  | nextCandidate =>
    rw [hk] at hadmits
    have hlt := hs hadmits.2
    have hadd := toInt_add_one s.selectedIndex
    simp only [response, Keystroke.request, Option.elim, Keystroke.selectedIndex,
      Keystroke.keepsSelection, hadd, BufferStatusResponse.getCandidates] at hlt ⊢
    constructor
    · intro h
      have := h hadmits.2
      split_ifs at this <;> omega
    · intro h _
      rw [if_pos h.2]
      omega
  | move key =>
    rw [hk] at hadmits
    have hbound := boundIndex_toInt (List.length_pos_iff.mpr hadmits.2.1)
      (movedIndex key s.selectedIndex)
    simp only [response, Keystroke.request, Option.elim, Keystroke.selectedIndex,
      Keystroke.keepsSelection, BufferStatusResponse.getCandidates] at hbound ⊢
    exact ⟨fun h => hbound.mp (h hadmits.2.1), fun h _ => hbound.mpr h⟩
  | select =>
    refine iff_of_true ?_ trivial
    intro hne
    have := List.length_pos_iff.mpr hne
    simp only [Keystroke.selectedIndex, Int32.toInt_zero]
    omega
  | put ch => exact (fitsSelection_iff hnonneg _).symm
  | back => exact (fitsSelection_iff hnonneg _).symm
  | convert => exact (fitsSelection_iff hnonneg _).symm
  | inflect command => exact (fitsSelection_iff hnonneg _).symm
  | toDirect => exact (fitsSelection_iff hnonneg _).symm
  | passed => exact iff_of_true hs trivial
  | toTcode => exact iff_of_true hs trivial
  | idle => exact iff_of_true hs trivial

theorem selectionInRange_of_not_keyDown {srv : Server E} {s : CTCodeIME E} {e : Event}
    (h : e.isKeyDown = false) : (s.step srv e).selectionInRange ↔ s.selectionInRange := by
  unfold selectionInRange
  rw [step_client h, step_selectedIndex h]

theorem selectedIndex_nonneg_step {srv : Server E} {s : CTCodeIME E} {e : Event}
    (hnonneg : 0 ≤ s.selectedIndex.toInt) (hsurvives : s.survives srv e)
    (hkeeps : s.keepsSelection srv e) : 0 ≤ (s.step srv e).selectedIndex.toInt := by
  cases e with
  | keyDown o pic wParam keys =>
    have hadmits := keystroke_admits o.compartment wParam keys s
    rw [step, onKeyDown_selectedIndex srv o pic wParam keys s hsurvives]
    simp only [keepsSelection] at hkeeps
    cases hk : s.keystroke o.compartment wParam keys with
    | nextCandidate =>
      rw [hk] at hkeeps
      have hadd := toInt_add_one s.selectedIndex
      rw [if_pos hkeeps.2] at hadd
      rw [Keystroke.selectedIndex, hadd]
      omega
    | move key =>
      rw [hk] at hkeeps hadmits
      exact ((boundIndex_toInt (List.length_pos_iff.mpr hadmits.2.1) _).mpr hkeeps).1
    | select => exact Int32.toInt_zero ▸ Int.le_refl 0
    | _ => exact hnonneg
  | _ =>
    rw [step_selectedIndex rfl]
    exact hnonneg

theorem selectsExisting_of_selectionInRange {srv : Server E} (s : CTCodeIME E) (e : Event)
    (hs : s.selectionInRange) : s.selectsExisting srv e := by
  unfold selectsExisting
  cases e with
  | keyDown o pic wParam keys =>
    have hadmits := keystroke_admits o.compartment wParam keys s
    rw [step, exchangesSince_onKeyDown]
    intro x hx
    rcases request_of_mem_exchanges hx with hrequest | hcommit
    · cases hk : s.keystroke o.compartment wParam keys with
      | select =>
        rw [hk] at hadmits hrequest
        rw [← Option.some.inj hrequest]
        exact hs hadmits.2
      | inflect command =>
        rw [hk] at hrequest
        rw [← Option.some.inj hrequest]
        cases command <;> trivial
      | toDirect | back | put ch | convert =>
        rw [hk] at hrequest
        rw [← Option.some.inj hrequest]
        trivial
      | _ =>
        rw [hk] at hrequest
        cases hrequest
    · rw [hcommit]
      trivial
  | _ =>
    rw [exchangesSince, step_client rfl, List.drop_length]
    simp

theorem selection_in_range_iff (srv : Server E) (engine : E)
    (contexts : ContextId → MarkedText WChar CompositionId) (hmarks : ∀ c i, (contexts c).marks i = none)
    (compartments : Compartments) (es : List Event)
    (hsurvives : Runs.Along (step srv) (survives srv)
      (construct engine contexts hmarks compartments) es) :
    (Runs.Throughout (step srv) selectionInRange (construct engine contexts hmarks compartments) es ∧
      Runs.Along (step srv) (selectsExisting srv) (construct engine contexts hmarks compartments) es) ↔
    Runs.Along (step srv) (keepsSelection srv) (construct engine contexts hmarks compartments) es := by
  have hstep (s : CTCodeIME E) (e : Event) (hs : 0 ≤ s.selectedIndex.toInt ∧ s.selectionInRange)
      (hsurvives : s.survives srv e) :
      (s.step srv e).selectionInRange ↔ s.keepsSelection srv e := by
    cases e with
    | keyDown o pic wParam keys => exact selectionInRange_onKeyDown hs.1 hs.2 hsurvives
    | _ =>
      rw [selectionInRange_of_not_keyDown rfl]
      exact iff_of_true hs.2 trivial
  have hiff := Runs.throughout_iff_along (fun s hs => hs.2) hstep
    (fun s e hs hsurvives hkeeps => ⟨selectedIndex_nonneg_step hs.1 hsurvives hkeeps,
      (hstep s e hs hsurvives).mpr hkeeps⟩)
    ⟨Int.le_of_eq Int32.toInt_zero.symm, fun h => absurd rfl h⟩ hsurvives
  rw [← hiff]
  exact and_iff_left_of_imp fun h => Runs.along_of_throughout selectsExisting_of_selectionInRange h

theorem selection_in_range_of_arrows :
    let srv := Server.scripted [.status ⟨[], "か".toList, ["化".toList, "下".toList], "None".toList, true⟩]
    let es := [.activate {}, .ctrlSlash, .key 0x4A, .key VK_DOWN, .key VK_NEXT, .key VK_RETURN]
    Runs.Throughout (step srv) selectionInRange fresh es ∧
      Runs.Along (step srv) (selectsExisting srv) fresh es :=
  (selection_in_range_iff _ 0 (fun _ => blank) (fun _ _ => rfl) ⟨none, none⟩ _ (by decide +kernel)).mpr
    (by decide +kernel)

theorem selection_leaves_range :
    let srv := Server.scripted [.status ⟨[], "か".toList, ["化".toList, "下".toList], "None".toList, true⟩]
    let es := [.activate {}, .ctrlSlash, .key 0x4A, .key VK_SPACE, .key VK_SPACE, .key VK_RETURN]
    Runs.Along (step srv) (survives srv) fresh es ∧
      ¬ Runs.Throughout (step srv) selectionInRange fresh es ∧
      ¬ Runs.Along (step srv) (selectsExisting srv) fresh es := by
  decide +kernel

end CTCodeIME

end TCodeIME
