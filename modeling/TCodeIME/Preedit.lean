import TCodeIME.ScriptedServer

/-!
The two strings of an edit session against the engine status they come from.
-/

namespace TCodeIME

namespace TextServices

def preedit (t : TextServices) : WString :=
  t.pComposition.elim [] fun k =>
    ((t.contexts k.context).marks k.id).elim [] (t.contexts k.context).covered

theorem preedit_of_none {t : TextServices} (h : t.pComposition = none) : t.preedit = [] := by
  rw [preedit, h, Option.elim]

theorem preedit_of_mark {t : TextServices} {k : Composition} (h : t.pComposition = some k) {m : Span}
    (hm : (t.contexts k.context).marks k.id = some m) :
    t.preedit = (t.contexts k.context).covered m := by
  rw [preedit, h, Option.elim, hm, Option.elim]

theorem preedit_congr {t u : TextServices} (h : t.pComposition = u.pComposition)
    (hmarks : ∀ c, (t.contexts c).marks = (u.contexts c).marks)
    (htext : ∀ c, (t.contexts c).text = (u.contexts c).text) : t.preedit = u.preedit := by
  unfold preedit
  rw [h]
  cases u.pComposition with
  | none => rfl
  | some k =>
    simp only [Option.elim, hmarks]
    cases (u.contexts k.context).marks k.id with
    | none => rfl
    | some m => simp only [MarkedText.covered, htext]

theorem setSelection_preedit (ok : Bool) (ec : ContextId) (r : Range) (t : TextServices) :
    (t.setSelection ok ec r).preedit = t.preedit :=
  preedit_congr (setSelection_pComposition ok ec r t) (setSelection_marks ok ec r t)
    (setSelection_text ok ec r t)

theorem setText_preedit {t : TextServices} {k : Composition} (h : t.pComposition = some k) {m : Span}
    (hm : (t.contexts k.context).marks k.id = some m) (kind : WriteKind) (text : WString) :
    (t.setText true k.context kind ⟨k.context, m⟩ text).1.preedit = text := by
  have hle := (t.contexts k.context).marks_le k.id m hm
  have hset : (t.setText true k.context kind ⟨k.context, m⟩ text).1.contexts k.context =
      (t.contexts k.context).write m text := by
    simp [setText, hle, adjust]
  have hlive : (t.setText true k.context kind ⟨k.context, m⟩ text).1.pComposition = some k := by
    rw [setText_pComposition, h]
  have hmark : ((t.setText true k.context kind ⟨k.context, m⟩ text).1.contexts k.context).marks k.id =
      some (m.written text.length) := by
    rw [hset, MarkedText.marks_write, MarkedText.marks_replace hle, hm, Option.map_some, Span.shift_self]
  rw [preedit_of_mark hlive hmark, hset]
  exact MarkedText.covered_write hle text

end TextServices

namespace CManageCompositionEditSession

theorem insertComposition_preedit (ec : ContextId) (composition : WString) (t : TextServices) :
    (insertComposition {} ec composition (t.startComposition ec)).preedit = composition := by
  have hlive : (t.startComposition ec).pComposition = some ⟨ec, t.nextComposition⟩ := rfl
  have hmark : ((t.startComposition ec).contexts ec).marks t.nextComposition =
      some (t.contexts ec).selection := by
    simp [TextServices.startComposition, MarkedText.mark]
  unfold insertComposition
  simp only [hlive, Option.bind_some, TextServices.getRange, hmark, if_true, Option.map_some,
    TextServices.setSelection_preedit]
  exact TextServices.setText_preedit hlive hmark .composition composition

theorem doEditSession_preedit {ec : ContextId} {committed composition : WString}
    {t t' : TextServices} (h : doEditSession {} ec committed composition t = some t') :
    t'.preedit = composition := by
  rw [doEditSession, startPreedit_ok, Option.some.injEq] at h
  rw [← h]
  by_cases hempty : composition.isEmpty = true
  · rw [if_pos hempty, TextServices.preedit_of_none (clearComposition_pComposition _ _ _)]
    exact (List.isEmpty_iff.mp hempty).symm
  · rw [if_neg hempty]
    exact insertComposition_preedit ec composition _

end CManageCompositionEditSession

/-- The two keys whose edit session does not follow the answer `r`: an arrow hands the pending key
over as committed, and `Return` always asks for an empty composition. -/
def Keystroke.mirrors (r : BufferStatusResponse) : Keystroke → Prop
  | .inflect _ => r.isLastKeyEmpty = true
  | .select => r.commandSucceed = true → r.getBuffer = [] ∧ r.isLastKeyEmpty = true
  | _ => True

variable {E : Type}

namespace CTCodeIME

structure Mirrors (pastEnd : WChar) (s s' : CTCodeIME E) (x : SessionRequest) : Prop where
  composition : x.composition =
    s'.client.lastResponse.getBuffer ++ s'.client.lastResponse.getLastKey pastEnd
  committed : x.committed = [] ∨
    ∃ e ∈ s.exchangesSince s', e.answer.map utf8ToWide = some x.committed

theorem mirrors_iff {pastEnd : WChar} {s s' : CTCodeIME E} {x : SessionRequest} :
    s.Mirrors pastEnd s' x ↔
      x.composition = s'.client.lastResponse.getBuffer ++ s'.client.lastResponse.getLastKey pastEnd ∧
        (x.committed = [] ∨ ∃ e ∈ s.exchangesSince s', e.answer.map utf8ToWide = some x.committed) :=
  ⟨fun h => ⟨h.composition, h.committed⟩, fun h => ⟨h.1, h.2⟩⟩

instance (pastEnd : WChar) (s s' : CTCodeIME E) (x : SessionRequest) :
    Decidable (s.Mirrors pastEnd s' x) := decidable_of_iff _ mirrors_iff.symm

theorem committed_reported {srv : Server E} {s : CTCodeIME E} {k : Keystroke} {text : Str}
    (h : ∃ x ∈ s.exchanges srv k, x.answer = some text) :
    ∃ x ∈ s.exchanges srv k, x.answer.map utf8ToWide = some (utf8ToWide text) := by
  obtain ⟨x, hx, ha⟩ := h
  exact ⟨x, hx, by rw [ha, Option.map_some]⟩

theorem session_mirrors_iff {srv : Server E} {s : CTCodeIME E} {k : Keystroke} (pastEnd : WChar)
    (hdirect : k ≠ .toDirect) (ha : (k.request s.selectedIndex).isSome →
      (s.answer srv k).isSome) :
    (∀ x ∈ s.requestedSession srv pastEnd k,
      x.2 = (s.response srv k).preedit pastEnd ∧
        (x.1 = [] ∨ ∃ e ∈ s.exchanges srv k, e.answer.map utf8ToWide = some x.1)) ↔
      k.mirrors (s.response srv k) := by
  have reported (hk : (k.request s.selectedIndex).isSome) :=
    committed_reported (response_reported (ha hk))
  have drained : utf8ToWide (s.drainedText srv k) = [] ∨ ∃ x ∈ s.exchanges srv k,
      x.answer.map utf8ToWide = some (utf8ToWide (s.drainedText srv k)) := by
    rcases drainedText_reported srv s k with h | h
    · exact .inl (by rw [h, utf8ToWide_nil])
    · exact .inr (committed_reported h)
  unfold requestedSession
  generalize s.response srv k = r at reported ⊢
  cases k with
  | toDirect => exact absurd rfl hdirect
  | back => exact iff_of_true (by rintro x ⟨⟩; exact ⟨rfl, .inr (reported rfl)⟩) trivial
  | convert => exact iff_of_true (by rintro x ⟨⟩; exact ⟨rfl, .inr (reported rfl)⟩) trivial
  | put ch => exact iff_of_true (by rintro x ⟨⟩; exact ⟨rfl, drained⟩) trivial
  | inflect command =>
    simp only [Keystroke.session, Keystroke.mirrors, Option.mem_def, Option.some.injEq,
      forall_eq']
    constructor
    · rintro ⟨hcomposition, -⟩
      have hkey : r.getLastKey pastEnd = [] := by simpa [BufferStatusResponse.preedit] using hcomposition
      exact (BufferStatusResponse.getLastKey_eq_nil pastEnd r).mp hkey
    · intro h
      have hkey := (BufferStatusResponse.getLastKey_eq_nil pastEnd r).mpr h
      rw [BufferStatusResponse.preedit, hkey, List.append_nil, List.append_nil]
      exact ⟨rfl, .inr (reported rfl)⟩
  | select =>
    simp only [Keystroke.session, Keystroke.mirrors]
    by_cases hflag : r.commandSucceed = true
    · simp only [hflag, if_true, Option.mem_def, Option.some.injEq, forall_eq', true_implies]
      rw [eq_comm, BufferStatusResponse.preedit_eq_nil]
      exact and_iff_left drained
    · simp [hflag]
  | _ => exact iff_of_true (by rintro x ⟨⟩) trivial

theorem preedit_onKeyDown {srv : Server E} {o : KeyOutcomes} {pic : ContextId} {wParam : ℕ}
    {keys : Modifiers} {s : CTCodeIME E} {x : WString × WString}
    (hexit : (s.onKeyDown srv o pic wParam keys).exit = .returned) (ho : o.session = {})
    (hx : s.requestedSession srv o.pastEnd (s.keystroke o.compartment wParam keys) = some x) :
    (s.onKeyDown srv o pic wParam keys).ime.text.preedit = x.2 := by
  have ht := (onKeyDown_returned srv o pic wParam keys s hexit).2.1
  rw [hx, ho] at ht
  exact CManageCompositionEditSession.doEditSession_preedit ht

theorem preedit_mirrors_engine_iff (srv : Server E) (o : KeyOutcomes) (pic : ContextId) (wParam : ℕ)
    (keys : Modifiers) (s : CTCodeIME E)
    (hdirect : s.keystroke o.compartment wParam keys ≠ .toDirect)
    (hanswered : ∀ x ∈ s.exchangesSince (s.onKeyDown srv o pic wParam keys).ime, x.answer.isSome)
    (hexit : (s.onKeyDown srv o pic wParam keys).exit = .returned) :
    (∀ x ∈ s.sessionsSince (s.onKeyDown srv o pic wParam keys).ime,
      s.Mirrors o.pastEnd (s.onKeyDown srv o pic wParam keys).ime x ∧
        (o.session = {} → (s.onKeyDown srv o pic wParam keys).ime.text.preedit =
          (s.onKeyDown srv o pic wParam keys).ime.client.lastResponse.preedit o.pastEnd)) ↔
      (s.keystroke o.compartment wParam keys).mirrors
        (s.response srv (s.keystroke o.compartment wParam keys)) := by
  have hpreedit := @preedit_onKeyDown E srv o pic wParam keys s
  rw [exchangesSince_onKeyDown] at hanswered
  rw [← session_mirrors_iff o.pastEnd hdirect (answer_isSome hanswered),
    sessionsSince_onKeyDown srv o pic wParam keys s hexit]
  simp only [List.mem_map, Option.mem_toList, forall_exists_index, and_imp,
    forall_apply_eq_imp_iff₂]
  refine forall₂_congr fun x hx => ?_
  rw [mirrors_iff, onKeyDown_lastResponse, exchangesSince_onKeyDown]
  refine and_iff_left_of_imp fun h ho => ?_
  rw [hpreedit hexit ho hx]
  exact h.1

theorem preedit_mirrors_put :
    let srv := Server.scripted [.status ⟨[], "か".toList, [], "Some(j)".toList, true⟩]
    let s := Runs.run (step srv) fresh [.activate {}, .ctrlSlash]
    let s' := (s.onKeyDown srv {} 0 0x4A {}).ime
    ∀ x ∈ s.sessionsSince s', s.Mirrors 0 s' x ∧
      (({} : SessionOutcomes) = {} → s'.text.preedit = s'.client.lastResponse.preedit 0) :=
  (preedit_mirrors_engine_iff _ {} 0 0x4A {} _ (by decide +kernel) (by decide +kernel)
    (by decide +kernel)).mpr trivial

theorem marker_committed :
    let srv := Server.scripted [.status ⟨[], "か".toList, [], "None".toList, true⟩,
      .status ⟨[], "か".toList, [], "Some(j)".toList, true⟩]
    let s := Runs.run (step srv) fresh [.activate {}, .ctrlSlash, .key 0x4A]
    let result := s.onKeyDown srv {} 0 VK_LEFT {}
    result.exit = .returned ∧ (∀ x ∈ s.exchangesSince result.ime, x.answer.isSome) ∧
      ¬ ∀ x ∈ s.sessionsSince result.ime, s.Mirrors 0 result.ime x := by
  decide +kernel

end CTCodeIME

end TCodeIME
