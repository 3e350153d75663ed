import TCodeIME.CommittedText

/-!
Which contexts an edit session works on. All sessions share one `_pComposition`, and each brings its
own context.
-/

namespace TCodeIME

inductive EditMethod where
  | setText
  | endComposition
  | setSelection
deriving DecidableEq

/-- A call with the cookie of a session, and the context whose range or composition it is made on. -/
structure EditCall where
  method : EditMethod
  context : ContextId
deriving DecidableEq

namespace CManageCompositionEditSession

/-! The calls of the parts of `DoEditSession`, in their order. -/

def commitCalls (o : CommitOutcomes) (ec : ContextId) (committed : WString) (t : TextServices) :
    List EditCall :=
  if committed.isEmpty then []
  else
    match committedRange o ec t with
    | none => []
    | some r =>
      ⟨.setText, r.context⟩ ::
        (t.pComposition.toList.map fun k => ⟨.endComposition, k.context⟩) ++ [⟨.setSelection, r.context⟩]

def clearCalls (o : ClearOutcomes) (t : TextServices) : List EditCall :=
  match t.pComposition with
  | none => []
  | some k =>
    ((t.getRange o.getRange k).toList.map fun r => ⟨.setText, r.context⟩) ++ [⟨.endComposition, k.context⟩]

def startCalls (o : StartOutcomes) (ec : ContextId) (composition : WString) (t : TextServices) :
    List EditCall :=
  if composition.isEmpty ∨ o.queryInterface = false ∨ (t.getSelection o.getSelection ec).isNone ∨
      o.startComposition ≠ .started then []
  else
    let t := t.startComposition ec
    match t.pComposition.bind (t.getRange o.getRange ·) with
    | none => []
    | some r => [⟨.setText, r.context⟩, ⟨.setSelection, r.context⟩]

def sessionCalls (o : SessionOutcomes) (ec : ContextId) (committed composition : WString)
    (t : TextServices) : List EditCall :=
  let t₁ := commitText o.commit ec committed t
  let t₂ := clearComposition o.clear ec t₁
  commitCalls o.commit ec committed t ++ clearCalls o.clear t₁ ++ startCalls o.start ec composition t₂

section Calls

variable {ec : ContextId} {t : TextServices}

theorem context_of_getRange {ok : Bool} {k : Composition} {r : Range} (h : t.getRange ok k = some r) :
    r.context = k.context := by
  unfold TextServices.getRange at h
  split_ifs at h
  obtain ⟨m, -, rfl⟩ := Option.map_eq_some_iff.mp h
  rfl

theorem context_of_committedRange {o : CommitOutcomes} {r : Range}
    (hown : ∀ k, t.pComposition = some k → k.context = ec) (h : committedRange o ec t = some r) :
    r.context = ec := by
  unfold committedRange at h
  split at h
  · next k hk => exact (context_of_getRange h).trans (hown k hk)
  · unfold TextServices.getSelection at h
    split_ifs at h
    cases h
    rfl

theorem commitCalls_own (o : CommitOutcomes) (committed : WString)
    (hown : ∀ k, t.pComposition = some k → k.context = ec) :
    ∀ call ∈ commitCalls o ec committed t, call.context = ec := by
  unfold commitCalls
  split_ifs
  · simp
  · cases hr : committedRange o ec t with
    | none => simp
    | some r =>
      have hc := context_of_committedRange hown hr
      intro call hcall
      simp only [List.cons_append, List.mem_cons, List.mem_append, List.mem_map, Option.mem_toList,
        List.not_mem_nil, or_false] at hcall
      rcases hcall with rfl | ⟨k, hk, rfl⟩ | rfl
      · exact hc
      · exact hown k hk
      · exact hc

theorem clearCalls_own (o : ClearOutcomes) (hown : ∀ k, t.pComposition = some k → k.context = ec) :
    ∀ call ∈ clearCalls o t, call.context = ec := by
  unfold clearCalls
  split
  · simp
  · next k hk =>
    have hc := hown k hk
    intro call hcall
    simp only [List.mem_append, List.mem_map, Option.mem_toList, List.mem_singleton] at hcall
    rcases hcall with ⟨r, hr, rfl⟩ | rfl
    · exact (context_of_getRange hr).trans hc
    · exact hc

theorem startCalls_own (o : StartOutcomes) (composition : WString) :
    ∀ call ∈ startCalls o ec composition t, call.context = ec := by
  unfold startCalls
  split_ifs
  · simp
  · dsimp only
    split
    · simp
    · next r hr =>
      have hc : r.context = ec := context_of_getRange (k := ⟨ec, t.nextComposition⟩) hr
      simp [hc]

theorem commitText_own (o : CommitOutcomes) (committed : WString)
    (hown : ∀ k, t.pComposition = some k → k.context = ec) :
    ∀ k, (commitText o ec committed t).pComposition = some k → k.context = ec := by
  intro k hk
  by_cases hne : committed = []
  · rw [hne, commitText_nil] at hk
    exact hown k hk
  · rw [commitText_pComposition o ec hne] at hk
    split_ifs at hk
    exact hown k hk

theorem touched_by_calls (o : SessionOutcomes) (committed composition : WString) {k : Composition}
    (hk : t.pComposition = some k) :
    ∃ call ∈ sessionCalls o ec committed composition t, call.context = k.context := by
  by_cases hcommit : committed ≠ [] ∧ o.commit.getRange = true
  · obtain ⟨hne, hget⟩ := hcommit
    obtain ⟨span, hspan, -⟩ := TextServices.getRange_live hk
    have hrange : committedRange o.commit ec t = some ⟨k.context, span⟩ := by
      rw [committedRange, hk]
      dsimp only
      rw [hget, hspan]
    refine ⟨⟨.setText, k.context⟩, ?_, rfl⟩
    simp [sessionCalls, commitCalls, hne, hrange]
  · have hkeep : (commitText o.commit ec committed t).pComposition = some k := by
      by_cases hne : committed = []
      · rw [hne, commitText_nil, hk]
      · rw [commitText_pComposition o.commit ec hne, if_neg fun hget => hcommit ⟨hne, hget⟩, hk]
    refine ⟨⟨.endComposition, k.context⟩, ?_, rfl⟩
    simp [sessionCalls, clearCalls, hkeep]

theorem sessionCalls_own_iff (o : SessionOutcomes) (committed composition : WString) :
    (∀ call ∈ sessionCalls o ec committed composition t, call.context = ec) ↔
      ∀ k, t.pComposition = some k → k.context = ec := by
  constructor
  · intro h k hk
    obtain ⟨call, hcall, hc⟩ := touched_by_calls o committed composition hk
    exact hc.symm.trans (h call hcall)
  · intro hown call hcall
    simp only [sessionCalls, List.mem_append] at hcall
    rcases hcall with (hcall | hcall) | hcall
    · exact commitCalls_own o.commit committed hown call hcall
    · exact clearCalls_own o.clear (commitText_own o.commit committed hown) call hcall
    · exact startCalls_own o.start composition call hcall

theorem commitText_contexts (o : CommitOutcomes) (committed : WString) (t : TextServices)
    {c : ContextId} (hc : c ≠ ec) : (commitText o ec committed t).contexts c = t.contexts c := by
  unfold commitText
  split_ifs
  · rfl
  · cases committedRange o ec t with
    | none => rfl
    | some r =>
      simp [insertCommitted, TextServices.setSelection_contexts, TextServices.endComposition_contexts,
        TextServices.setText_contexts, hc]

theorem clearComposition_contexts (o : ClearOutcomes) (t : TextServices) {c : ContextId} (hc : c ≠ ec) :
    (clearComposition o ec t).contexts c = t.contexts c := by
  unfold clearComposition
  split
  · rfl
  · split <;> simp [TextServices.endComposition_contexts, TextServices.setText_contexts, hc]

theorem startPreedit_contexts {o : StartOutcomes} {composition : WString} {t' : TextServices}
    (h : startPreedit o ec composition t = some t') {c : ContextId} (hc : c ≠ ec) :
    t'.contexts c = t.contexts c := by
  unfold startPreedit at h
  split_ifs at h
  · rw [← Option.some.inj h]
  · split at h
    · rw [← Option.some.inj h]
    · split at h
      · rw [← Option.some.inj h]
      · cases h
      · rw [← Option.some.inj h]
        have hstart : (t.startComposition ec).contexts c = t.contexts c := by
          simp [TextServices.startComposition, hc]
        unfold insertComposition
        split
        · exact hstart
        · simpa [TextServices.setSelection_contexts, TextServices.setText_contexts, hc] using hstart

theorem doEditSession_contexts {o : SessionOutcomes} {committed composition : WString}
    {t' : TextServices} (h : doEditSession o ec committed composition t = some t') {c : ContextId}
    (hc : c ≠ ec) : t'.contexts c = t.contexts c := by
  rw [startPreedit_contexts h hc, clearComposition_contexts o.clear _ hc,
    commitText_contexts o.commit committed t hc]

theorem insertComposition_writes (composition : WString) (t : TextServices) :
    (insertComposition {} ec composition (t.startComposition ec)).writes =
      t.writes ++ [⟨ec, .composition, composition⟩] := by
  have hk : (t.startComposition ec).pComposition = some ⟨ec, t.nextComposition⟩ := rfl
  obtain ⟨span, hspan, -⟩ := TextServices.getRange_live hk
  have hlive : (t.startComposition ec).pComposition.bind ((t.startComposition ec).getRange true ·) =
      some ⟨ec, span⟩ := by
    rw [hk]
    exact hspan
  rw [insertComposition, hlive]
  simp only [TextServices.setSelection_writes]
  rw [setText_writes_live hk hspan]
  simp [TextServices.startComposition]

theorem doEditSession_writes {committed composition : WString} {t' : TextServices}
    (hown : ∀ k, t.pComposition = some k → k.context = ec)
    (h : doEditSession {} ec committed composition t = some t') :
    (committed ≠ [] → ⟨ec, .committed, committed⟩ ∈ t'.writes.drop t.writes.length) ∧
      (composition ≠ [] → ⟨ec, .composition, composition⟩ ∈ t'.writes.drop t.writes.length) := by
  have hcommit : ∃ new, (commitText {} ec committed t).writes = t.writes ++ new ∧
      (committed ≠ [] → ⟨ec, .committed, committed⟩ ∈ new) := by
    by_cases hne : committed = []
    · exact ⟨[], by rw [hne, commitText_nil, List.append_nil], fun h => absurd hne h⟩
    · have hinserts : inserts {} ec t := by
        unfold inserts
        cases hk : t.pComposition with
        | none => exact ⟨rfl, rfl⟩
        | some k => exact ⟨rfl, rfl, hown k hk⟩
      refine ⟨_, commitText_writes {} ec hne t, fun _ => ?_⟩
      rw [if_pos hinserts]
      exact List.mem_singleton_self _
  obtain ⟨new, hnew, hmem⟩ := hcommit
  rw [doEditSession, startPreedit_ok, Option.some.injEq] at h
  rw [← h]
  split_ifs with hempty
  · rw [clearComposition_writes, hnew, List.append_assoc, List.drop_left]
    exact ⟨fun hne => List.mem_append_left _ (hmem hne),
      fun hne => absurd (List.isEmpty_iff.mp hempty) hne⟩
  · rw [insertComposition_writes, clearComposition_writes, hnew, List.append_assoc, List.append_assoc,
      List.drop_left]
    exact ⟨fun hne => List.mem_append_left _ (hmem hne), fun _ => by simp⟩

end Calls

end CManageCompositionEditSession

variable {E : Type}

namespace CTCodeIME

def edits (srv : Server E) (s : CTCodeIME E) (k : Keystroke) : Bool :=
  match k with
  | .put _ => true
  | .back => (s.answer srv k).isSome
  | .convert => (s.answer srv k).isSome
  | .inflect _ => (s.answer srv k).isSome
  | .select => (s.response srv k).commandSucceed
  | .toDirect => s.text.pComposition.isSome
  | _ => false

def editCalls (srv : Server E) (s : CTCodeIME E) : Event → List EditCall
  | .keyDown o pic wParam keys =>
    match (s.effect srv o.pastEnd (s.keystroke o.compartment wParam keys)).session with
    | none => []
    | some x =>
      if o.session.request = .granted then
        CManageCompositionEditSession.sessionCalls o.session pic x.1 x.2 (s.text.request ⟨pic, x.1, x.2⟩)
      else []
  | _ => []

def deliversTo (srv : Server E) (s : CTCodeIME E) (pic : ContextId) (e : Event) : Prop :=
  ∀ x ∈ s.sessionsSince (s.step srv e), x.context = pic ∧
    (x.committed ≠ [] → ⟨pic, .committed, x.committed⟩ ∈ s.writesSince (s.step srv e)) ∧
    (x.composition ≠ [] → ⟨pic, .composition, x.composition⟩ ∈ s.writesSince (s.step srv e))

def keepsToContext (srv : Server E) (s : CTCodeIME E) (e : Event) : Prop :=
  match e with
  | .keyDown o pic _ _ =>
    (∀ call ∈ s.editCalls srv e, call.context = pic) ∧ (o.session = {} → s.deliversTo srv pic e)
  | _ => True

def findsOwnComposition (srv : Server E) (s : CTCodeIME E) : Event → Prop
  | .keyDown o pic wParam keys =>
    s.edits srv (s.keystroke o.compartment wParam keys) = true → o.session.request = .granted →
      ∀ k, s.text.pComposition = some k → k.context = pic
  | _ => True

instance (t : TextServices) (pic : ContextId) :
    Decidable (∀ k, t.pComposition = some k → k.context = pic) :=
  match h : t.pComposition with
  | none => isTrue (by simp)
  | some k => decidable_of_iff (k.context = pic) (by simp)

instance (srv : Server E) (s : CTCodeIME E) (e : Event) : Decidable (s.findsOwnComposition srv e) :=
  match e with
  | .keyDown _ _ _ _ => inferInstanceAs (Decidable (_ → _ → _))
  | .click _ | .change _ _ | .terminated | .activate _ | .deactivate _ | .edited _ _ _ | .selected _ _ =>
    isTrue trivial

theorem effect_session_isSome (srv : Server E) (pastEnd : WChar) (s : CTCodeIME E) (k : Keystroke) :
    (s.effect srv pastEnd k).session.isSome = s.edits srv k := by
  have command (c : EngineCommand) {answered : CEngineClient E → Effect E}
      (h : ∀ client, (answered client).session.isSome = true)
      (hk : k.request s.selectedIndex = some c.request) :
      (s.commandEffect srv c answered).session.isSome = (s.answer srv k).isSome := by
    rw [answer, hk, Option.bind_some]
    rcases commandEffect_cases srv c s answered with ⟨hr, what, hc⟩ | ⟨hr, hc⟩
    · rw [hc, hr]
      rfl
    · rw [hc, h, hr]
  cases k with
  | back => exact command .backspace (fun _ => rfl) rfl
  | convert => exact command .convert (fun _ => rfl) rfl
  | inflect c => exact command c (fun _ => rfl) rfl
  | put ch =>
    simp only [effect, edits]
    split_ifs <;> rfl
  | select =>
    have hr : (s.client.asked srv (.select s.selectedIndex)).lastResponse = s.response srv .select := rfl
    simp only [effect, edits, hr]
    by_cases hs : (s.response srv .select).commandSucceed = true
    · rw [if_pos hs, hs]
      rfl
    · rw [if_neg hs]
      simpa using hs
  | toDirect =>
    simp only [effect, edits]
    split_ifs with hc
    · rw [hc]
      rfl
    · simpa using hc
  | _ => rfl

theorem onKeyDown_text (srv : Server E) (o : KeyOutcomes) (pic : ContextId) (wParam : ℕ)
    (keys : Modifiers) (s : CTCodeIME E) :
    (s.onKeyDown srv o pic wParam keys).ime.text = s.text ∨
      editText o.session pic (s.effect srv o.pastEnd (s.keystroke o.compartment wParam keys)).session
        s.text = some (s.onKeyDown srv o pic wParam keys).ime.text := by
  rw [onKeyDown_eq]
  rcases realize_cases o pic _ s (effect_list srv o wParam keys s) with
    ⟨what, -, h⟩ | ⟨-, -, h⟩ | ⟨t, u, -, ht, -, h⟩
  · rw [h]
    exact .inl (enter_text o.compartment _ s)
  · rw [h]
    exact .inl (enter_text o.compartment _ s)
  · rw [h]
    exact .inr ht

theorem deliversTo_of_own {srv : Server E} {o : KeyOutcomes} {pic : ContextId} {wParam : ℕ}
    {keys : Modifiers} {s : CTCodeIME E} (ho : o.session = {})
    (hown : s.edits srv (s.keystroke o.compartment wParam keys) = true →
      ∀ k, s.text.pComposition = some k → k.context = pic) :
    s.deliversTo srv pic (.keyDown o pic wParam keys) := by
  intro x hx
  have hedits := effect_session_isSome srv o.pastEnd s (s.keystroke o.compartment wParam keys)
  rw [sessionsSince, step] at hx
  rw [writesSince, step]
  rcases onKeyDown_text srv o pic wParam keys s with h | h
  · rw [h, List.drop_length] at hx
    cases hx
  · rw [editText_sessions h, List.drop_left] at hx
    cases hs : (s.effect srv o.pastEnd (s.keystroke o.compartment wParam keys)).session with
    | none =>
      rw [hs] at hx
      cases hx
    | some session =>
      rw [hs] at h hx hedits
      rw [List.mem_singleton.mp hx]
      rw [ho] at h
      have hdo : CManageCompositionEditSession.doEditSession {} pic session.1 session.2
          (s.text.request ⟨pic, session.1, session.2⟩) =
            some (s.onKeyDown srv o pic wParam keys).ime.text := h
      have hown' : ∀ k, (s.text.request ⟨pic, session.1, session.2⟩).pComposition = some k →
          k.context = pic := hown hedits.symm
      have hwrites := CManageCompositionEditSession.doEditSession_writes hown' hdo
      exact ⟨rfl, hwrites⟩

theorem keepsToContext_iff (srv : Server E) (s : CTCodeIME E) (e : Event) :
    s.keepsToContext srv e ↔ s.findsOwnComposition srv e := by
  cases e with
  | keyDown o pic wParam keys =>
    have hedits := effect_session_isSome srv o.pastEnd s (s.keystroke o.compartment wParam keys)
    have hcalls : (∀ call ∈ s.editCalls srv (.keyDown o pic wParam keys), call.context = pic) ↔
        s.findsOwnComposition srv (.keyDown o pic wParam keys) := by
      rw [editCalls, findsOwnComposition, ← hedits]
      cases (s.effect srv o.pastEnd (s.keystroke o.compartment wParam keys)).session with
      | none => simp
      | some x =>
        by_cases hgranted : o.session.request = .granted
        · have hiff : (∀ call ∈ CManageCompositionEditSession.sessionCalls o.session pic x.1 x.2
              (s.text.request ⟨pic, x.1, x.2⟩), call.context = pic) ↔
                ∀ k, s.text.pComposition = some k → k.context = pic :=
            CManageCompositionEditSession.sessionCalls_own_iff o.session x.1 x.2
          simpa [hgranted] using hiff
        · simp [hgranted]
    refine ⟨fun h => hcalls.mp h.1, fun h => ⟨hcalls.mpr h, fun ho => ?_⟩⟩
    apply deliversTo_of_own ho
    intro hedit
    exact h hedit (by rw [ho])
  | _ => exact Iff.rfl

theorem text_stays_in_context_iff (srv : Server E) (engine : E)
    (contexts : ContextId → MarkedText WChar CompositionId) (hmarks : ∀ c i, (contexts c).marks i = none)
    (compartments : Compartments) (es : List Event) :
    Runs.Along (step srv) (keepsToContext srv) (construct engine contexts hmarks compartments) es ↔
      Runs.Along (step srv) (findsOwnComposition srv)
        (construct engine contexts hmarks compartments) es := by
  apply Runs.along_congr
  intro s e
  exact keepsToContext_iff srv s e

theorem text_stays_in_context_stroke :
    let srv := Server.scripted [.status ⟨[], [], [], "Some(j)".toList, true⟩,
      .status ⟨"の".toList, [], [], "None".toList, true⟩, .commit ⟨"の".toList⟩]
    Runs.Along (step srv) (keepsToContext srv) fresh [.activate {}, .ctrlSlash, .key 0x4A, .key 0x46] := by
  apply (text_stays_in_context_iff _ 0 (fun _ => blank) (fun _ _ => rfl) ⟨none, none⟩ _).mpr
  decide +kernel

/-- A stroke begun in one context and finished in another: its text is written nowhere. -/
theorem committed_text_lost_between_contexts :
    let srv := Server.scripted [.status ⟨[], [], [], "Some(j)".toList, true⟩,
      .status ⟨"の".toList, [], [], "None".toList, true⟩, .commit ⟨"の".toList⟩]
    let s := Runs.run (step srv) fresh [.activate {}, .ctrlSlash, .key 0x4A]
    let s' := s.step srv (.keyDown {} 1 0x46 {})
    s.sessionsSince s' = [⟨1, Utf16.encode "の".toList, []⟩] ∧ s.writesSince s' = [] ∧
      ¬ Runs.Along (step srv) (keepsToContext srv) fresh
        [.activate {}, .ctrlSlash, .key 0x4A, .keyDown {} 1 0x46 {}] := by
  intro srv s s'
  refine ⟨by decide +kernel, by decide +kernel, fun h => ?_⟩
  have hcalls : ∀ call ∈ s.editCalls srv (.keyDown {} 1 0x46 {}), call.context = 1 := h.2.2.2.1.1
  revert hcalls
  decide +kernel

end CTCodeIME

end TCodeIME
