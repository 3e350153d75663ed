import TCodeIME.ScriptedServer

/-!
What a failed request of a key press does to the document.
-/

namespace TCodeIME

def Keystroke.withstands (composing : Bool) (i : Int32) (r : BufferStatusResponse) : Keystroke → Prop
  | .put _ => r.getBuffer = [] ∧ r.isLastKeyEmpty = true ∧ composing = false
  | .select => i = 0 ∧ (r.commandSucceed = true → composing = false)
  | _ => True

instance (composing : Bool) (i : Int32) (r : BufferStatusResponse) (k : Keystroke) :
    Decidable (k.withstands composing i r) :=
  match k with
  | .put _ => inferInstanceAs (Decidable (_ ∧ _ ∧ _))
  | .select => inferInstanceAs (Decidable (_ ∧ (_ → _)))
  | .passed | .toTcode | .toDirect | .back | .nextCandidate | .convert | .move _ | .inflect _ | .idle =>
    isTrue trivial

variable {E : Type}

namespace CTCodeIME

structure Preserves (s s' : CTCodeIME E) : Prop where
  text : ∀ c, (s'.text.contexts c).text = (s.text.contexts c).text
  composition : s'.text.pComposition = s.text.pComposition
  range : ∀ k, s.text.pComposition = some k →
    (s'.text.contexts k.context).marks k.id = (s.text.contexts k.context).marks k.id
  selectedIndex : s'.selectedIndex = s.selectedIndex

theorem drainedText_of_failed {srv : Server E} {s : CTCodeIME E} {k : Keystroke}
    (h : ∃ x ∈ s.exchanges srv k, x.answer = none) : s.drainedText srv k = [] := by
  unfold exchanges at h
  unfold drainedText
  cases hk : k.request s.selectedIndex with
  | none => rfl
  | some request =>
    rw [hk] at h
    dsimp only [Option.elim] at h ⊢
    split_ifs at h ⊢ with hd
    · obtain ⟨x, hx, hnone⟩ := h
      simp only [List.mem_cons, List.not_mem_nil, or_false] at hx
      rcases hx with rfl | rfl
      · have hstatus : srv.status request s.client.engine = none := by simpa using hnone
        -- the default response asks for no commit
        have hdefault : k.drains {} = true := by simpa [CEngineClient.asked, hstatus] using hd
        cases k <;> simp [Keystroke.drains, BufferStatusResponse.isOutputBufferEmpty] at hdefault
      · have hcommit : srv.committed (s.client.asked srv request).engine = none := by simpa using hnone
        simp [CEngineClient.drainedText, hcommit]
    · rfl

theorem pComposition_ne_fresh (t : TextServices) (pic : ContextId) :
    t.pComposition ≠ some ⟨pic, t.nextComposition⟩ :=
  fun h => Nat.lt_irrefl _ (TextServices.id_lt_of_live h)

theorem withstands_iff {srv : Server E} {s : CTCodeIME E} {k : Keystroke} (pastEnd : WChar)
    (hk : k ≠ .toDirect) (hdrained : s.drainedText srv k = []) (hthrows : k.throws = false)
    (hfailed : (k.request s.selectedIndex).isSome) :
    (k.selectedIndex s.client.lastResponse.candidates.length s.selectedIndex = s.selectedIndex ∧
      ∀ x, s.requestedSession srv pastEnd k = some x → x = ([], []) ∧ s.text.pComposition = none) ↔
      k.withstands s.text.pComposition.isSome s.selectedIndex (s.response srv k) := by
  unfold requestedSession
  rw [hdrained]
  generalize s.response srv k = r
  cases k with
  | put ch =>
    simp only [Keystroke.selectedIndex, Keystroke.session, Keystroke.withstands, utf8ToWide_nil,
      Option.some.injEq, forall_eq', Prod.mk.injEq, true_and, BufferStatusResponse.preedit_eq_nil,
      Option.isSome_eq_false_iff, Option.isNone_iff_eq_none, and_assoc]
  | select =>
    simp only [Keystroke.selectedIndex, Keystroke.session, Keystroke.withstands, utf8ToWide_nil]
    rw [@eq_comm Int32 0]
    cases r.commandSucceed <;> simp
  | toDirect => exact absurd rfl hk
  | back => cases hthrows
  | convert => cases hthrows
  | inflect command => cases hthrows
  | _ => cases hfailed

theorem withstands_of_preserves {srv : Server E} {o : KeyOutcomes} {pic : ContextId} {wParam : ℕ}
    {keys : Modifiers} {s : CTCodeIME E} (ho : o.session = {})
    (hexit : (s.onKeyDown srv o pic wParam keys).exit = .returned)
    (h : s.Preserves (s.onKeyDown srv o pic wParam keys).ime)
    {x : WString × WString}
    (hx : s.requestedSession srv o.pastEnd (s.keystroke o.compartment wParam keys) = some x)
    (hdrained : x.1 = []) : x = ([], []) ∧ s.text.pComposition = none := by
  have ht := (onKeyDown_returned srv o pic wParam keys s hexit).2.1
  have hcomposition := h.composition
  rw [hx, ho] at ht
  rw [CManageCompositionEditSession.doEditSession_pComposition ht] at hcomposition
  split_ifs at hcomposition with hempty
  · exact ⟨Prod.ext hdrained (List.isEmpty_iff.mp hempty), hcomposition.symm⟩
  · exact absurd hcomposition.symm (pComposition_ne_fresh s.text pic)

theorem preserves_of_nil {srv : Server E} {o : KeyOutcomes} {pic : ContextId} {wParam : ℕ}
    {keys : Modifiers} {s : CTCodeIME E}
    (hexit : (s.onKeyDown srv o pic wParam keys).exit = .returned)
    (hindex : (s.keystroke o.compartment wParam keys).selectedIndex
      s.client.lastResponse.candidates.length s.selectedIndex = s.selectedIndex)
    (h : ∀ x, s.requestedSession srv o.pastEnd (s.keystroke o.compartment wParam keys) = some x →
      x = ([], []) ∧ s.text.pComposition = none) :
    s.Preserves (s.onKeyDown srv o pic wParam keys).ime := by
  have ht := (onKeyDown_returned srv o pic wParam keys s hexit).2.1
  have hi := onKeyDown_selectedIndex srv o pic wParam keys s (by rw [hexit]; simp)
  have htext : (s.onKeyDown srv o pic wParam keys).ime.text.contexts = s.text.contexts ∧
      (s.onKeyDown srv o pic wParam keys).ime.text.pComposition = s.text.pComposition := by
    cases hx : s.requestedSession srv o.pastEnd (s.keystroke o.compartment wParam keys) with
    | none =>
      rw [hx] at ht
      rw [← Option.some.inj ht]
      exact ⟨rfl, rfl⟩
    | some x =>
      obtain ⟨rfl, hnone⟩ := h x hx
      rw [hx, editText, Option.elim,
        CManageCompositionEditSession.requestEditSession_nil_of_none o.session pic hnone] at ht
      rw [← Option.some.inj ht]
      exact ⟨rfl, rfl⟩
  exact ⟨fun c => by rw [htext.1], htext.2, fun k _ => by rw [htext.1], hi.trans hindex⟩

theorem answer_of_failed {srv : Server E} {s : CTCodeIME E} {k : Keystroke} (hthrows : k.throws = true)
    (h : ∃ x ∈ s.exchanges srv k, x.answer = none) : s.answer srv k = none := by
  obtain ⟨x, hx, hnone⟩ := h
  have hdrains (r : BufferStatusResponse) : k.drains r = false := by
    cases k <;> first | rfl | cases hthrows
  unfold exchanges at hx
  unfold answer
  cases hk : k.request s.selectedIndex with
  | none => rfl
  | some request =>
    rw [hk] at hx
    simp only [Option.elim, hdrains, List.mem_cons, Bool.false_eq_true, if_false,
      List.not_mem_nil, or_false] at hx
    rw [hx] at hnone
    simpa using hnone

theorem failed_request_preserves_iff (srv : Server E) (o : CompartmentOutcomes) (pic : ContextId)
    (wParam : ℕ) (keys : Modifiers) (s : CTCodeIME E)
    (hfailed : ∃ x ∈ s.exchanges srv (s.keystroke o wParam keys), x.request ≠ .reset ∧ x.answer = none) :
    (∀ o' : KeyOutcomes, o'.compartment = o → (s.onKeyDown srv o' pic wParam keys).exit = .returned →
      s.Preserves (s.onKeyDown srv o' pic wParam keys).ime) ↔
      (s.keystroke o wParam keys).withstands s.text.pComposition.isSome s.selectedIndex
        (s.response srv (s.keystroke o wParam keys)) := by
  obtain ⟨x, hx, hreset, hnone⟩ := hfailed
  have hdirect : s.keystroke o wParam keys ≠ .toDirect := by
    intro hk
    rw [hk] at hx
    simp only [exchanges, Keystroke.request, Keystroke.drains, Option.elim, List.mem_cons,
      Bool.false_eq_true, if_false, List.not_mem_nil, or_false] at hx
    exact hreset (by rw [hx])
  cases hthrows : (s.keystroke o wParam keys).throws with
  | true =>
    have ha := answer_of_failed hthrows ⟨x, hx, hnone⟩
    refine iff_of_true ?_ ?_
    · rintro o' rfl hexit
      have := (onKeyDown_returned srv o' pic wParam keys s hexit).1 hthrows
      rw [ha] at this
      cases this
    · cases hk : s.keystroke o wParam keys <;> first | trivial | (rw [hk] at hthrows; cases hthrows)
  | false =>
    have hdrained := drainedText_of_failed ⟨x, hx, hnone⟩
    have hrequest : ((s.keystroke o wParam keys).request s.selectedIndex).isSome := by
      rw [Option.isSome_iff_ne_none]
      intro hk
      rw [exchanges_eq_nil_iff.mpr hk] at hx
      cases hx
    constructor
    · intro h
      have hexit := onKeyDown_returns srv { compartment := o } pic wParam keys s rfl fun ht => by
        rw [hthrows] at ht
        cases ht
      have hpreserves := h { compartment := o } rfl hexit
      have hindex := onKeyDown_selectedIndex srv { compartment := o } pic wParam keys s
        (by rw [hexit]; simp)
      refine (withstands_iff 0 hdirect hdrained hthrows hrequest).mp
        ⟨hindex.symm.trans hpreserves.selectedIndex, fun y hy => ?_⟩
      exact withstands_of_preserves rfl hexit hpreserves hy
        (requestedSession_committed hthrows hdrained hy)
    · rintro h o' rfl hexit
      obtain ⟨hindex, hsession⟩ := (withstands_iff o'.pastEnd hdirect hdrained hthrows hrequest).mpr h
      exact preserves_of_nil hexit hindex hsession

theorem failed_select_preserves :
    let srv := Server.scripted
      [.status ⟨[], "か".toList, ["化".toList, "下".toList], "None".toList, true⟩, .failure]
    let s := Runs.run (step srv) fresh [.activate {}, .ctrlSlash, .key 0x4A]
    s.Preserves (s.onKeyDown srv {} 0 VK_RETURN {}).ime :=
  (failed_request_preserves_iff _ {} 0 VK_RETURN {} _ ⟨⟨.select 0, none⟩, by decide +kernel⟩).mpr
    (by decide +kernel) {} rfl (by decide +kernel)

theorem failed_put_wipes_preedit :
    let srv := Server.scripted [.status ⟨[], "か".toList, [], "None".toList, true⟩, .failure]
    let s := Runs.run (step srv) fresh [.activate {}, .ctrlSlash, .key 0x4A]
    let result := s.onKeyDown srv {} 0 0x46 {}
    s.getInputMode {} = .tcode ∧ s.exchangesSince result.ime = [⟨.put ['f'], none⟩] ∧
      result.exit = .returned ∧ (s.text.contexts 0).text = Utf16.encode "か".toList ∧
      (result.ime.text.contexts 0).text = Utf16.encode "(\x00)".toList := by
  decide +kernel

end CTCodeIME

end TCodeIME
