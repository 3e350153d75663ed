import TCodeIME.HighlightedCandidate

/-!
What a new conversion takes over from a candidate list that was given up.
-/

namespace TCodeIME

variable {E : Type}

def Keystroke.startsConversion : Keystroke → Bool
  | .put _ => true
  | .convert => true
  | _ => false

theorem Keystroke.startsConversion_cases {k : Keystroke} (h : k.startsConversion = true) :
    (∃ ch, k = .put ch) ∨ k = .convert := by
  cases k with
  | put ch => exact .inl ⟨ch, rfl⟩
  | convert => exact .inr rfl
  | _ => cases h

namespace CTCodeIME

open CandidateElement

def indexReset (s : CTCodeIME E) : Prop :=
  s.client.lastResponse.getCandidates = [] → s.selectedIndex = 0

def givesUpFirst (srv : Server E) (s : CTCodeIME E) : Event → Prop
  | .keyDown o _ wParam keys =>
    let k := s.keystroke o.compartment wParam keys
    k = .select ∨ ((s.response srv k).getCandidates = [] → s.selectedIndex = 0)
  | _ => True

instance (srv : Server E) (s : CTCodeIME E) (e : Event) : Decidable (s.givesUpFirst srv e) :=
  match e with
  | .keyDown _ _ _ _ => inferInstanceAs (Decidable (_ ∨ (_ → _)))
  | .click _ | .change _ _ | .terminated | .activate _ | .deactivate _ | .edited _ _ _ | .selected _ _ =>
    isTrue trivial

theorem indexReset_step {srv : Server E} {s : CTCodeIME E} {e : Event} (hs : s.indexReset)
    (hsurvives : s.survives srv e) : (s.step srv e).indexReset ↔ s.givesUpFirst srv e := by
  cases e with
  | keyDown o pic wParam keys =>
    have hadmits := keystroke_admits o.compartment wParam keys s
    have hresponse := onKeyDown_lastResponse srv o pic wParam keys s
    have hindex := onKeyDown_selectedIndex srv o pic wParam keys s hsurvives
    simp only [indexReset, step, givesUpFirst]
    rw [hresponse, hindex]
    cases hk : s.keystroke o.compartment wParam keys with
    | select => exact iff_of_true (fun _ => rfl) (.inl rfl)
    | nextCandidate =>
      rw [hk] at hadmits
      have hcached : (s.response srv .nextCandidate).getCandidates ≠ [] := hadmits.2
      exact iff_of_true (fun h => absurd h hcached) (.inr fun h => absurd h hcached)
    | move key =>
      rw [hk] at hadmits
      have hcached : (s.response srv (.move key)).getCandidates ≠ [] := hadmits.2.1
      exact iff_of_true (fun h => absurd h hcached) (.inr fun h => absurd h hcached)
    | _ => simp [Keystroke.selectedIndex]
  | _ =>
    unfold indexReset
    rw [step_client rfl, step_selectedIndex rfl]
    exact iff_of_true hs trivial

theorem indexReset_throughout_iff {srv : Server E} {s : CTCodeIME E} {es : List Event}
    (hs : s.indexReset) (hsurvives : Runs.Along (step srv) (survives srv) s es) :
    Runs.Throughout (step srv) indexReset s es ↔ Runs.Along (step srv) (givesUpFirst srv) s es := by
  apply Runs.throughout_iff_along (I := indexReset) (fun s h => h) ?_ ?_ hs hsurvives
  · intro s e hs hsurvives
    exact indexReset_step hs hsurvives
  · intro s e hs hsurvives hgives
    exact (indexReset_step hs hsurvives).mpr hgives

structure BringsCandidates (srv : Server E) (s : CTCodeIME E) (o : KeyOutcomes) (pic : ContextId)
    (wParam : ℕ) (keys : Modifiers) (r : BufferStatusResponse) : Prop where
  cached : s.client.lastResponse.getCandidates = []
  converts : (s.keystroke o.compartment wParam keys).startsConversion = true
  answered : s.response srv (s.keystroke o.compartment wParam keys) = r
  candidates : r.getCandidates ≠ []
  survives : (s.onKeyDown srv o pic wParam keys).exit ≠ .accessViolation

section

variable {srv : Server E} {s : CTCodeIME E} {o : KeyOutcomes} {pic : ContextId} {wParam : ℕ}
  {keys : Modifiers} {r : BufferStatusResponse}

theorem BringsCandidates.selectedIndex (h : s.BringsCandidates srv o pic wParam keys r) :
    (s.onKeyDown srv o pic wParam keys).ime.selectedIndex = s.selectedIndex := by
  rw [onKeyDown_selectedIndex srv o pic wParam keys s h.survives]
  rcases Keystroke.startsConversion_cases h.converts with ⟨ch, hk⟩ | hk
  · rw [hk]
    rfl
  · rw [hk]
    rfl

theorem BringsCandidates.returned (h : s.BringsCandidates srv o pic wParam keys r) :
    (s.onKeyDown srv o pic wParam keys).exit = .returned := by
  obtain ⟨log, ⟨-, ha, what, hk⟩ | ⟨-, -, hk⟩ | ⟨-, t, u, -, -, hk⟩⟩ :=
    onKeyDown_cases srv o pic wParam keys s
  · -- a failed request leaves no candidates
    have hnone : s.response srv (s.keystroke o.compartment wParam keys) = {} ∨
        s.response srv (s.keystroke o.compartment wParam keys) = s.client.lastResponse := by
      unfold answer at ha
      unfold response
      cases hrequest : (s.keystroke o.compartment wParam keys).request s.selectedIndex with
      | none => exact .inr rfl
      | some request =>
        rw [hrequest, Option.bind_some] at ha
        exact .inl (by rw [Option.elim, ha]; rfl)
    rw [h.answered] at hnone
    rcases hnone with hr | hr
    · exact absurd (by rw [hr]; rfl) h.candidates
    · exact absurd (by rw [hr]; exact h.cached) h.candidates
  · exact absurd (by rw [hk]) h.survives
  · rw [hk]

theorem BringsCandidates.highlighted (h : s.BringsCandidates srv o pic wParam keys r)
    (ho : o.ui.succeed = true) (hfirst : s.selectedIndex = 0) (hshown : wideCandidates r.getCandidates ≠ []) :
    (s.onKeyDown srv o pic wParam keys).ime.candidateUI.highlighted =
      (wideCandidates r.getCandidates).head? := by
  have hadmits := keystroke_admits o.compartment wParam keys s
  have hindex := h.selectedIndex
  obtain ⟨-, -, hui, -⟩ := onKeyDown_returned srv o pic wParam keys s h.returned
  have hkey : s.getInputMode o.compartment = .tcode ∧
      (s.keystroke o.compartment wParam keys).list = .sync := by
    rcases Keystroke.startsConversion_cases h.converts with ⟨ch, hk⟩ | hk
    · rw [hk] at hadmits ⊢
      exact ⟨hadmits.1, rfl⟩
    · rw [hk] at hadmits ⊢
      exact ⟨hadmits.1, rfl⟩
  have hthread : s.pThreadMgr = true := Compartments.getInputMode_tcode hkey.1
  rw [← onKeyDown_selectedIndex srv o pic wParam keys s h.survives, hindex, hfirst, h.answered, hkey.2,
    hthread] at hui
  have hnonempty : (wideCandidates r.candidates).isEmpty = false := by
    rw [List.isEmpty_eq_false_iff]
    exact hshown
  simp only [updateUI, CandidateElement.syncCandidateList, hnonempty, Bool.false_eq_true,
    if_false, Option.some.injEq] at hui
  obtain ⟨-, hcandidates, hselected⟩ :=
    CandidateElement.updateCandidateList_shows ho (wideCandidates r.candidates) 0 s.candidateUI
  rw [← hui, CandidateElement.highlighted, hselected, hcandidates]
  exact (List.head?_eq_getElem?).symm

end

theorem new_conversion_selects_first (srv : Server E) (engine engine' : E)
    (contexts contexts' : ContextId → MarkedText WChar CompositionId)
    (hmarks : ∀ c i, (contexts c).marks i = none) (hmarks' : ∀ c i, (contexts' c).marks i = none)
    (compartments compartments' : Compartments) (es es' : List Event)
    (hsurvives : Runs.Along (step srv) (survives srv)
      (construct engine contexts hmarks compartments) es)
    (hsurvives' : Runs.Along (step srv) (survives srv)
      (construct engine' contexts' hmarks' compartments') es')
    (hgives : Runs.Along (step srv) (givesUpFirst srv)
      (construct engine contexts hmarks compartments) es)
    (hgives' : Runs.Along (step srv) (givesUpFirst srv)
      (construct engine' contexts' hmarks' compartments') es')
    (o o' : KeyOutcomes) (pic pic' : ContextId) (wParam : ℕ) (keys : Modifiers) (r : BufferStatusResponse)
    (h : (Runs.run (step srv) (construct engine contexts hmarks compartments) es).BringsCandidates
      srv o pic wParam keys r)
    (h' : (Runs.run (step srv) (construct engine' contexts' hmarks' compartments') es').BringsCandidates
      srv o' pic' wParam keys r) :
    let s := (Runs.run (step srv) (construct engine contexts hmarks compartments) es).onKeyDown
      srv o pic wParam keys
    let s' := (Runs.run (step srv) (construct engine' contexts' hmarks' compartments') es').onKeyDown
      srv o' pic' wParam keys
    s.ime.selectedIndex = s'.ime.selectedIndex ∧ s.ime.selectedIndex = 0 ∧
      (o.ui.succeed = true → o'.ui.succeed = true → wideCandidates r.getCandidates ≠ [] →
        s.ime.candidateUI.highlighted = s'.ime.candidateUI.highlighted ∧
          s.ime.candidateUI.highlighted = (wideCandidates r.getCandidates).head?) := by
  intro s s'
  have hreset := Runs.run_of_throughout ((indexReset_throughout_iff (fun _ => rfl) hsurvives).mpr hgives)
  have hreset' := Runs.run_of_throughout
    ((indexReset_throughout_iff (fun _ => rfl) hsurvives').mpr hgives')
  have hzero : s.ime.selectedIndex = 0 := h.selectedIndex.trans (hreset h.cached)
  have hzero' : s'.ime.selectedIndex = 0 := h'.selectedIndex.trans (hreset' h'.cached)
  refine ⟨hzero.trans hzero'.symm, hzero, fun ho ho' hshown => ?_⟩
  have hhead := h.highlighted ho (hreset h.cached) hshown
  have hhead' := h'.highlighted ho' (hreset' h'.cached) hshown
  exact ⟨hhead.trans hhead'.symm, hhead⟩

theorem new_conversion_after_return :
    let r : BufferStatusResponse := ⟨[], "か".toList, ["化".toList, "下".toList], "None".toList, true⟩
    let srv := Server.scripted [.status r, .status ⟨[], [], [], "None".toList, false⟩, .status r]
    let s := Runs.run (step srv) (construct 0 (fun _ => blank) blank_marks ⟨none, none⟩)
      [.activate {}, .ctrlSlash, .key 0x4A, .key VK_DOWN, .key VK_RETURN]
    let s' := Runs.run (step srv) (construct 2 (fun _ => blank) blank_marks ⟨none, none⟩)
      [.activate {}, .ctrlSlash]
    (s.onKeyDown srv {} 0 0x4A {}).ime.selectedIndex = (s'.onKeyDown srv {} 0 0x4A {}).ime.selectedIndex ∧
      (s.onKeyDown srv {} 0 0x4A {}).ime.candidateUI.highlighted = some (utf8ToWide "化".toList) := by
  intro r srv
  dsimp only
  have h := new_conversion_selects_first srv 0 2 (fun _ => blank) (fun _ => blank) blank_marks
    blank_marks ⟨none, none⟩ ⟨none, none⟩
    [.activate {}, .ctrlSlash, .key 0x4A, .key VK_DOWN, .key VK_RETURN] [.activate {}, .ctrlSlash]
    (by decide +kernel) (by decide +kernel) (by decide +kernel) (by decide +kernel) {} {} 0 0 0x4A {} r
    ⟨by decide +kernel, by decide +kernel, by decide +kernel, by decide +kernel, by decide +kernel⟩
    ⟨by decide +kernel, by decide +kernel, by decide +kernel, by decide +kernel, by decide +kernel⟩
  have hfirst : (wideCandidates r.getCandidates).head? = some (utf8ToWide "化".toList) := by
    decide +kernel
  obtain ⟨hsame, -, hshown⟩ := h
  have hnonempty : wideCandidates r.getCandidates ≠ [] := by decide +kernel
  have hhead := (hshown rfl rfl hnonempty).2
  exact ⟨hsame, hhead.trans hfirst⟩

/-- A stroke that ends a candidate list while its second candidate is selected leaves the index at
1, and so the next list comes up with its second candidate highlighted. -/
theorem new_conversion_after_stroke :
    let r : BufferStatusResponse := ⟨[], "か".toList, ["化".toList, "下".toList], "None".toList, true⟩
    let srv := Server.scripted [.status r, .status ⟨[], "かき".toList, [], "None".toList, true⟩, .status r]
    let s := Runs.run (step srv) (construct 0 (fun _ => blank) blank_marks ⟨none, none⟩)
      [.activate {}, .ctrlSlash, .key 0x4A, .key VK_DOWN, .key 0x4B]
    let s' := Runs.run (step srv) (construct 2 (fun _ => blank) blank_marks ⟨none, none⟩)
      [.activate {}, .ctrlSlash]
    s.BringsCandidates srv {} 0 0x4A {} r ∧ s'.BringsCandidates srv {} 0 0x4A {} r ∧
      (s.onKeyDown srv {} 0 0x4A {}).ime.selectedIndex = 1 ∧
      (s'.onKeyDown srv {} 0 0x4A {}).ime.selectedIndex = 0 ∧
      (s.onKeyDown srv {} 0 0x4A {}).ime.candidateUI.highlighted = some (utf8ToWide "下".toList) := by
  refine ⟨⟨?_, ?_, ?_, ?_, ?_⟩, ⟨?_, ?_, ?_, ?_, ?_⟩, ?_, ?_, ?_⟩ <;> decide +kernel

end CTCodeIME

end TCodeIME
