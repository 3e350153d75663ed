import TCodeIME.Preedit

/-!
The live composition against the engine status, over runs with terminations by the application.
-/

namespace TCodeIME

def BufferStatusResponse.hasPreedit (r : BufferStatusResponse) : Bool :=
  !r.isBufferEmpty || !r.isLastKeyEmpty

def Keystroke.keepsComposition (composing : Bool) (r : BufferStatusResponse) : Keystroke → Prop
  -- a buffer that starts with `U+0000` is shown as empty
  | .put _ => r.isBufferEmpty = true ∨ r.getBuffer ≠ [] ∨ r.isLastKeyEmpty = false
  | .back => r.isBufferEmpty = true ∨ r.getBuffer ≠ [] ∨ r.isLastKeyEmpty = false
  | .convert => r.isBufferEmpty = true ∨ r.getBuffer ≠ [] ∨ r.isLastKeyEmpty = false
  | .inflect _ => r.getBuffer ≠ [] ∨ (r.isBufferEmpty = true ∧ r.isLastKeyEmpty = true)
  | .select => r.hasPreedit = (!r.commandSucceed && composing)
  | .toDirect => r.hasPreedit = false
  | _ => True

variable {E : Type}

namespace CTCodeIME

def compositionFollows (s : CTCodeIME E) : Prop :=
  s.client.exchanges ≠ [] → s.text.pComposition.isSome = s.client.lastResponse.hasPreedit

def startsComposing (s : CTCodeIME E) : Prop :=
  s.client.exchanges = [] → s.text.pComposition = none

def inStep (s : CTCodeIME E) : Prop := s.startsComposing ∧ s.compositionFollows

def succeeds (srv : Server E) (s : CTCodeIME E) : Event → Prop
  | .keyDown o _ wParam keys =>
    (∀ x ∈ s.exchanges srv (s.keystroke o.compartment wParam keys), x.answer.isSome) ∧ o.session = {}
  | _ => True

def keepsComposition (srv : Server E) (s : CTCodeIME E) : Event → Prop
  | .keyDown o _ wParam keys =>
    let k := s.keystroke o.compartment wParam keys
    k.keepsComposition s.text.pComposition.isSome (s.response srv k)
  | .terminated => s.text.pComposition = none
  | _ => True

instance (composing : Bool) (r : BufferStatusResponse) (k : Keystroke) :
    Decidable (k.keepsComposition composing r) :=
  match k with
  | .put _ | .back | .convert | .inflect _ => inferInstanceAs (Decidable (_ ∨ _))
  | .select | .toDirect => inferInstanceAs (Decidable (_ = _))
  | .passed | .toTcode | .nextCandidate | .move _ | .idle => isTrue trivial

instance (s : CTCodeIME E) : Decidable s.compositionFollows :=
  inferInstanceAs (Decidable (_ → _))

instance (s : CTCodeIME E) : Decidable s.inStep :=
  inferInstanceAs (Decidable ((_ → _) ∧ _))

instance (srv : Server E) (s : CTCodeIME E) (e : Event) : Decidable (s.succeeds srv e) :=
  match e with
  | .keyDown _ _ _ _ => inferInstanceAs (Decidable (_ ∧ _))
  | .click _ | .change _ _ | .terminated | .activate _ | .deactivate _ | .edited _ _ _ | .selected _ _ =>
    isTrue trivial

instance (srv : Server E) (s : CTCodeIME E) (e : Event) : Decidable (s.keepsComposition srv e) :=
  match e with
  | .keyDown _ _ _ _ => inferInstanceAs (Decidable (Keystroke.keepsComposition _ _ _))
  | .terminated => inferInstanceAs (Decidable (_ = _))
  | .click _ | .change _ _ | .activate _ | .deactivate _ | .edited _ _ _ | .selected _ _ => isTrue trivial

theorem request_of_throws {k : Keystroke} (h : k.throws = true) (i : Int32) :
    (k.request i).isSome := by
  cases k <;> first | rfl | cases h

theorem onKeyDown_of_succeeds {srv : Server E} {o : KeyOutcomes} {pic : ContextId} {wParam : ℕ}
    {keys : Modifiers} {s : CTCodeIME E} (h : s.succeeds srv (.keyDown o pic wParam keys)) :
    (s.onKeyDown srv o pic wParam keys).exit = .returned ∧
      (s.onKeyDown srv o pic wParam keys).ime.text.pComposition.isSome =
        (s.requestedSession srv o.pastEnd (s.keystroke o.compartment wParam keys)).elim
          s.text.pComposition.isSome fun x => !x.2.isEmpty := by
  obtain ⟨hanswered, ho⟩ := h
  have hexit := onKeyDown_returns srv o pic wParam keys s ho fun hthrows =>
    answer_isSome hanswered (request_of_throws hthrows _)
  have ht := (onKeyDown_returned srv o pic wParam keys s hexit).2.1
  refine ⟨hexit, ?_⟩
  cases hsession : s.requestedSession srv o.pastEnd (s.keystroke o.compartment wParam keys) with
  | none =>
    rw [hsession] at ht
    rw [← Option.some.inj ht]
    rfl
  | some x =>
    rw [hsession, ho] at ht
    exact CManageCompositionEditSession.doEditSession_composing ht

theorem isEmpty_preedit (pastEnd : WChar) (r : BufferStatusResponse) :
    (r.preedit pastEnd).isEmpty = (r.getBuffer.isEmpty && r.isLastKeyEmpty) := by
  rw [Bool.eq_iff_iff, List.isEmpty_iff, r.preedit_eq_nil]
  simp

theorem keepsComposition_iff {k : Keystroke} {i : Int32} (hk : (k.request i).isSome)
    (pastEnd : WChar) (composing : Bool) (r : BufferStatusResponse) (drained : WString) :
    (k.session pastEnd composing r drained).elim composing (fun x => !x.2.isEmpty) = r.hasPreedit ↔
      k.keepsComposition composing r := by
  have hempty : r.isBufferEmpty = true → r.getBuffer = [] :=
    BufferStatusResponse.getBuffer_eq_nil_of_isBufferEmpty
  have hpreedit : (!(r.preedit pastEnd).isEmpty) = r.hasPreedit ↔
      (r.isBufferEmpty = true ∨ r.getBuffer ≠ [] ∨ r.isLastKeyEmpty = false) := by
    rw [isEmpty_preedit, BufferStatusResponse.hasPreedit]
    cases hb : r.isBufferEmpty <;> cases hl : r.isLastKeyEmpty <;> simp_all
  cases k with
  | put ch => exact hpreedit
  | back => exact hpreedit
  | convert => exact hpreedit
  | inflect command =>
    simp only [Keystroke.session, Option.elim, Keystroke.keepsComposition,
      BufferStatusResponse.hasPreedit]
    cases hb : r.isBufferEmpty <;> cases hl : r.isLastKeyEmpty <;> simp_all
  | select =>
    simp only [Keystroke.session, Keystroke.keepsComposition]
    cases r.commandSucceed <;> cases r.hasPreedit <;> cases composing <;> simp
  | toDirect =>
    simp only [Keystroke.session, Keystroke.keepsComposition]
    cases r.hasPreedit <;> cases composing <;> simp
  | _ => cases hk

theorem requestedSession_of_no_request {srv : Server E} {s : CTCodeIME E} {k : Keystroke}
    (hk : k.request s.selectedIndex = none) (pastEnd : WChar) :
    s.requestedSession srv pastEnd k = none := by
  cases k <;> first | rfl | cases hk

theorem keepsComposition_of_no_request {k : Keystroke} {i : Int32} (hk : k.request i = none)
    (composing : Bool) (r : BufferStatusResponse) : k.keepsComposition composing r := by
  cases k with
  | passed | toTcode | nextCandidate | move wParam | idle => trivial
  | _ => cases hk

theorem compositionFollows_onKeyDown {srv : Server E} {o : KeyOutcomes} {pic : ContextId} {wParam : ℕ}
    {keys : Modifiers} {s : CTCodeIME E} (hs : s.compositionFollows)
    (h : s.succeeds srv (.keyDown o pic wParam keys)) :
    (s.onKeyDown srv o pic wParam keys).ime.compositionFollows ↔
      s.keepsComposition srv (.keyDown o pic wParam keys) := by
  obtain ⟨-, hcomposing⟩ := onKeyDown_of_succeeds h
  unfold compositionFollows
  rw [hcomposing, onKeyDown_lastResponse, onKeyDown_exchanges]
  simp only [keepsComposition]
  generalize s.keystroke o.compartment wParam keys = k
  cases hk : k.request s.selectedIndex with
  | none =>
    refine iff_of_true ?_ (keepsComposition_of_no_request hk _ _)
    rw [requestedSession_of_no_request hk, exchanges_eq_nil_iff.mpr hk, List.append_nil, response, hk]
    exact hs
  | some request =>
    have hasked : s.client.exchanges ++ s.exchanges srv k ≠ [] := by
      rw [ne_eq, List.append_eq_nil_iff, exchanges_eq_nil_iff, hk]
      simp
    rw [← keepsComposition_iff (by rw [hk]; rfl) o.pastEnd _ _ (utf8ToWide (s.drainedText srv k))]
    exact ⟨fun h => h hasked, fun h _ => h⟩

theorem startsComposing_step {srv : Server E} {s : CTCodeIME E} {e : Event}
    (hs : s.startsComposing) (h : s.succeeds srv e) : (s.step srv e).startsComposing := by
  intro hasked
  cases e with
  | keyDown o pic wParam keys =>
    obtain ⟨-, hcomposing⟩ := onKeyDown_of_succeeds h
    rw [step] at hasked ⊢
    rw [onKeyDown_exchanges, List.append_eq_nil_iff, exchanges_eq_nil_iff] at hasked
    rw [requestedSession_of_no_request hasked.2, hs hasked.1] at hcomposing
    simpa using hcomposing
  | terminated => exact TextServices.terminate_pComposition s.text
  | _ =>
    rw [step_pComposition rfl (by simp)]
    rw [step_client rfl] at hasked
    exact hs hasked

theorem compositionFollows_step {srv : Server E} {s : CTCodeIME E} {e : Event}
    (hs : s.startsComposing ∧ s.compositionFollows) (h : s.succeeds srv e) :
    (s.step srv e).compositionFollows ↔ s.keepsComposition srv e := by
  cases e with
  | keyDown o pic wParam keys => exact compositionFollows_onKeyDown hs.2 h
  | terminated =>
    have hnone : (s.step srv .terminated).text.pComposition = none :=
      TextServices.terminate_pComposition s.text
    unfold compositionFollows at hs ⊢
    rw [hnone, step_client rfl]
    simp only [keepsComposition]
    constructor
    · intro h
      by_cases hasked : s.client.exchanges = []
      · exact hs.1 hasked
      · have hlive := hs.2 hasked
        rw [← h hasked] at hlive
        simpa using hlive
    · intro hlive hasked
      rw [← hs.2 hasked, hlive]
  | _ =>
    unfold compositionFollows
    rw [step_pComposition rfl (by simp), step_client rfl]
    exact iff_of_true hs.2 trivial

theorem inStep_step {srv : Server E} {s : CTCodeIME E} {e : Event} (hs : s.inStep)
    (h : s.succeeds srv e) : (s.step srv e).inStep ↔ s.keepsComposition srv e :=
  (and_iff_right (startsComposing_step hs.1 h)).trans (compositionFollows_step hs h)

theorem composition_follows_iff (srv : Server E) (engine : E)
    (contexts : ContextId → MarkedText WChar CompositionId) (hmarks : ∀ c i, (contexts c).marks i = none)
    (compartments : Compartments) (es : List Event)
    (hsucceeds : Runs.Along (step srv) (succeeds srv)
      (construct engine contexts hmarks compartments) es) :
    Runs.Throughout (step srv) inStep (construct engine contexts hmarks compartments) es ↔
      Runs.Along (step srv) (keepsComposition srv) (construct engine contexts hmarks compartments) es :=
  Runs.throughout_iff_along (fun _ hs => hs) (fun _ _ hs h => inStep_step hs h)
    (fun _ _ hs h hkeeps => (inStep_step hs h).mpr hkeeps)
    ⟨fun _ => rfl, fun h => absurd rfl h⟩ hsucceeds

theorem composition_follows_strokes :
    let srv := Server.scripted [.status ⟨[], [], [], "Some(j)".toList, true⟩,
      .status ⟨"の".toList, [], [], "None".toList, true⟩, .commit ⟨"の".toList⟩]
    Runs.Throughout (step srv) inStep fresh
      [.activate {}, .ctrlSlash, .key 0x4A, .key 0x46, .terminated] :=
  (composition_follows_iff _ 0 (fun _ => blank) (fun _ _ => rfl) ⟨none, none⟩ _ (by decide +kernel)).mpr
    (by decide +kernel)

theorem preedit_inserted_twice :
    let srv := Server.scripted [.status ⟨[], "か".toList, [], "None".toList, true⟩,
      .status ⟨[], "かき".toList, [], "None".toList, true⟩]
    let es := [.activate {}, .ctrlSlash, .key 0x4A, .terminated, .key 0x46]
    Runs.Along (step srv) (succeeds srv) fresh es ∧
      ¬ Runs.Throughout (step srv) inStep fresh es ∧
      ((Runs.run (step srv) fresh es).text.contexts 0).text = Utf16.encode "かかき".toList := by
  decide +kernel

end CTCodeIME

end TCodeIME
