import TCodeIME.InputFields

/-!
The documents over a whole run, against the fields in which the strings of the granted edit sessions
are put and the application's own edits are made.
-/

namespace TCodeIME

variable {E : Type}

namespace CTCodeIME

theorem onKeyDown_editText {srv : Server E} {o : KeyOutcomes} {pic : ContextId} {wParam : ℕ}
    {keys : Modifiers} {s : CTCodeIME E} (h : s.survives srv (.keyDown o pic wParam keys)) :
    ∃ session, session.isSome = s.edits srv (s.keystroke o.compartment wParam keys) ∧
      (∀ x ∈ session, s.requestedSession srv o.pastEnd (s.keystroke o.compartment wParam keys) = some x) ∧
      editText o.session pic session s.text = some (s.onKeyDown srv o pic wParam keys).ime.text ∧
      s.sessionsSince (s.onKeyDown srv o pic wParam keys).ime =
        session.toList.map fun x => ⟨pic, x.1, x.2⟩ := by
  have hedits := effect_session_isSome srv o.pastEnd s (s.keystroke o.compartment wParam keys)
  have hthrown := effect_thrown srv o.pastEnd s (s.keystroke o.compartment wParam keys)
  have hsince {session : Option (WString × WString)}
      (ht : editText o.session pic session s.text = some (s.onKeyDown srv o pic wParam keys).ime.text) :
      s.sessionsSince (s.onKeyDown srv o pic wParam keys).ime =
        session.toList.map fun x => ⟨pic, x.1, x.2⟩ := by
    rw [sessionsSince, editText_sessions ht, List.drop_left]
  rw [survives, onKeyDown_eq] at h
  rw [onKeyDown_eq] at hsince ⊢
  rcases realize_cases o pic _ s (effect_list srv o wParam keys s) with
    ⟨what, hwhat, hk⟩ | ⟨-, -, hk⟩ | ⟨t, u, hnot, ht, -, hk⟩
  · rw [hk] at hsince ⊢
    refine ⟨none, ?_, by simp, ?_, hsince ?_⟩
    · rw [hwhat] at hthrown
      symm
      revert hthrown
      generalize s.keystroke o.compartment wParam keys = k
      cases k <;> simp [edits, Keystroke.throws]
    · exact congrArg some (enter_text o.compartment _ s).symm
    · exact congrArg some (enter_text o.compartment _ s).symm
  · rw [hk] at h
    exact absurd rfl h
  · rw [hk] at hsince ⊢
    have hsession := (effect_of_not_thrown srv o.pastEnd s
      (keystroke_ne_put_nil o.compartment wParam keys s) hnot).1
    exact ⟨_, hedits, fun x hx => hsession.symm.trans hx, ht, hsince ht⟩

end CTCodeIME

structure PresentedFields (E : Type) where
  ime : CTCodeIME E
  fields : ContextId → InputField WChar

namespace PresentedFields

def receive (fields : ContextId → InputField WChar) (x : SessionRequest) : ContextId → InputField WChar :=
  Function.update fields x.context ((fields x.context).input x.committed x.composition)

def step (srv : Server E) (p : PresentedFields E) (e : Event) : PresentedFields E where
  ime := p.ime.step srv e
  fields :=
    match e with
    | .keyDown o _ _ _ =>
      if o.session.request = .granted then (p.ime.sessionsSince (p.ime.step srv e)).foldl receive p.fields
      else p.fields
    | .terminated => fun c => (p.fields c).settle
    | .edited c r text => Function.update p.fields c ((p.fields c).replace r text)
    | .selected c r => Function.update p.fields c ((p.fields c).select r)
    | _ => p.fields

def presented (p : PresentedFields E) : Prop := ∀ c, p.ime.text.Presents c (p.fields c)

/-- No access violation ends the run, and no call inside a granted edit session fails. -/
def succeeds (srv : Server E) (p : PresentedFields E) (e : Event) : Prop :=
  p.ime.survives srv e ∧
    match e with
    | .keyDown o _ _ _ => o.session.request = .granted → o.session = {}
    | _ => True

def leavesPreedit (p : PresentedFields E) : Event → Prop
  | .selected c r => (p.fields c).composing = true → r.stop ≤ (p.fields c).text.length →
      r = (p.fields c).selection
  | _ => True

def keepsInPlace (srv : Server E) (p : PresentedFields E) (e : Event) : Prop :=
  p.ime.findsOwnComposition srv e ∧ p.leavesPreedit e

def start (s : CTCodeIME E) : PresentedFields E where
  ime := s
  fields c := ⟨(s.text.contexts c).text, (s.text.contexts c).selection, false, (s.text.contexts c).selection_le⟩

instance (srv : Server E) (p : PresentedFields E) (e : Event) : Decidable (p.succeeds srv e) :=
  match e with
  | .keyDown _ _ _ _ => inferInstanceAs (Decidable (_ ∧ (_ → _)))
  | .click _ | .change _ _ | .terminated | .activate _ | .deactivate _ | .edited _ _ _ | .selected _ _ =>
    inferInstanceAs (Decidable (_ ∧ True))

instance (p : PresentedFields E) (e : Event) : Decidable (p.leavesPreedit e) :=
  match e with
  | .selected _ _ => inferInstanceAs (Decidable (_ → _ → _))
  | .keyDown _ _ _ _ | .click _ | .change _ _ | .terminated | .activate _ | .deactivate _ | .edited _ _ _ =>
    isTrue trivial

instance (srv : Server E) (p : PresentedFields E) (e : Event) : Decidable (p.keepsInPlace srv e) :=
  inferInstanceAs (Decidable (_ ∧ _))

theorem presented_start {s : CTCodeIME E} (hmarks : ∀ c i, (s.text.contexts c).marks i = none)
    (hnone : s.text.pComposition = none) : (start s).presented := by
  intro c
  exact TextServices.Presents.of_unmarked rfl rfl rfl (hmarks c) (by simp [start, hnone])

section Session

variable {fields : ContextId → InputField WChar} {t t' : TextServices} {pic : ContextId}
  {committed composition : WString}

theorem presents_doEditSession_iff (h : ∀ c, t.Presents c (fields c))
    (ht : CManageCompositionEditSession.doEditSession {} pic committed composition t = some t') :
    (∀ c, t'.Presents c (receive fields ⟨pic, committed, composition⟩ c)) ↔
      ∀ k, t.pComposition = some k → k.context = pic := by
  have hcomposition := CManageCompositionEditSession.doEditSession_pComposition ht
  have hnot {c : ContextId} (hc : c ≠ pic) (i : CompositionId) : t'.pComposition ≠ some ⟨c, i⟩ := by
    rw [hcomposition]
    split_ifs
    · nofun
    · intro hk
      cases hk
      exact hc rfl
  constructor
  · intro h' k hk
    by_contra hc
    obtain ⟨m, hm⟩ := Option.isSome_iff_exists.mp (t.composition_live k hk)
    rw [← CManageCompositionEditSession.doEditSession_contexts ht hc] at hm
    exact hnot hc k.id (((h' k.context).marks k.id m).mp hm).1
  · intro hown c
    unfold receive
    by_cases hc : c = pic
    · subst hc
      obtain ⟨t'', ht'', hpresents⟩ :=
        CManageCompositionEditSession.doEditSession_presents (h c) hown committed composition
      rw [ht, Option.some.injEq] at ht''
      rw [Function.update_self, ht'']
      exact hpresents
    · rw [Function.update_of_ne hc]
      apply (h c).congr (CManageCompositionEditSession.doEditSession_contexts ht hc)
      intro i
      exact iff_of_false (hnot hc i) fun hk => hc (hown _ hk)

end Session

theorem presented_keyDown_iff {srv : Server E} {p : PresentedFields E} (hp : p.presented) {o : KeyOutcomes}
    {pic : ContextId} {wParam : ℕ} {keys : Modifiers} (hs : p.succeeds srv (.keyDown o pic wParam keys)) :
    (p.step srv (.keyDown o pic wParam keys)).presented ↔
      p.ime.findsOwnComposition srv (.keyDown o pic wParam keys) := by
  obtain ⟨session, hedits, -, htext, hsince⟩ := CTCodeIME.onKeyDown_editText hs.1
  simp only [presented, step, CTCodeIME.step, CTCodeIME.findsOwnComposition, hsince, ← hedits]
  cases session with
  | none =>
    rw [← Option.some.inj htext]
    refine iff_of_true ?_ (by simp)
    intro c
    split_ifs
    · exact hp c
    · exact hp c
  | some x =>
    simp only [CTCodeIME.editText, Option.elim, CManageCompositionEditSession.requestEditSession] at htext
    by_cases hgranted : o.session.request = .granted
    · rw [hs.2 hgranted] at htext
      have hrequested : ∀ c, (p.ime.text.request ⟨pic, x.1, x.2⟩).Presents c (p.fields c) :=
        fun c => (hp c).congr rfl fun _ => Iff.rfl
      simp only [hgranted, if_true, true_implies, Option.isSome_some]
      have hsession := presents_doEditSession_iff hrequested htext
      exact hsession
    · have hsame : p.ime.text.request ⟨pic, x.1, x.2⟩ =
          (p.ime.onKeyDown srv o pic wParam keys).ime.text := by
        cases ho : o.session.request with
        | granted => exact absurd ho hgranted
        | refused => simpa [ho] using htext
        | notGranted => simpa [ho] using htext
      rw [if_neg hgranted, ← hsame]
      refine iff_of_true ?_ fun _ h => absurd h hgranted
      intro c
      exact (hp c).congr rfl fun _ => Iff.rfl

theorem presented_kept {srv : Server E} {p : PresentedFields E} (hp : p.presented) {e : Event}
    (h : e.reachesText = false) (hfields : (p.step srv e).fields = p.fields) :
    (p.step srv e).presented := by
  have htext : (p.step srv e).ime.text = p.ime.text := CTCodeIME.step_text h
  intro c
  rw [hfields, htext]
  exact hp c

theorem presented_step_iff {srv : Server E} {p : PresentedFields E} (hp : p.presented) {e : Event}
    (hs : p.succeeds srv e) :
    (p.step srv e).presented ↔ p.keepsInPlace srv e := by
  unfold keepsInPlace
  cases e with
  | keyDown o pic wParam keys =>
    rw [presented_keyDown_iff hp hs]
    exact (and_iff_left trivial).symm
  | terminated => exact iff_of_true (fun c => (hp c).terminate) ⟨trivial, trivial⟩
  | edited d r text =>
    refine iff_of_true ?_ ⟨trivial, trivial⟩
    intro c
    simp only [step, CTCodeIME.step]
    by_cases hc : c = d
    · subst hc
      rw [Function.update_self]
      exact (hp c).replace r text (by simp [TextServices.adjust]) rfl
    · rw [Function.update_of_ne hc]
      exact (hp c).congr (by simp [TextServices.adjust, hc]) fun _ => Iff.rfl
  | selected d r =>
    have hd := TextServices.presents_select_iff (hp d) (r := r) fun e i => by rw [MarkedText.marks_select]
    simp only [presented, step, CTCodeIME.step, CTCodeIME.findsOwnComposition, leavesPreedit, true_and]
    rw [← hd]
    constructor
    · intro h
      simpa only [Function.update_self] using h d
    · intro h c
      by_cases hc : c = d
      · subst hc
        rw [Function.update_self]
        exact h
      · rw [Function.update_of_ne hc]
        exact (hp c).congr (by simp [TextServices.adjust, hc]) fun _ => Iff.rfl
  | click o => exact iff_of_true (presented_kept hp rfl rfl) ⟨trivial, trivial⟩
  | change guid val => exact iff_of_true (presented_kept hp rfl rfl) ⟨trivial, trivial⟩
  | activate o => exact iff_of_true (presented_kept hp rfl rfl) ⟨trivial, trivial⟩
  | deactivate o => exact iff_of_true (presented_kept hp rfl rfl) ⟨trivial, trivial⟩

end PresentedFields

end TCodeIME
