import TCodeIME.Library.OutsideText
import TCodeIME.EditedContexts

/-!
The text that the application's documents have outside the preedit, over runs in which any call of any
edit session may fail.
-/

namespace TCodeIME

open Runs

namespace TextServices

def preeditSpan (c : ContextId) (t : TextServices) : Option Span :=
  t.pComposition.bind fun k => if k.context = c then (t.contexts c).marks k.id else none

def outside (c : ContextId) (t : TextServices) : WString := (t.contexts c).outside (t.preeditSpan c)

def AtCarets (t : TextServices) : Prop := ∀ c, (t.contexts c).AtCaret

def Keeps (t t' : TextServices) : Prop :=
  t.AtCarets → t'.AtCarets ∧ ∀ c, (t.outside c).Sublist (t'.outside c)

section Keeps

variable {t t' t'' : TextServices}

theorem Keeps.refl (t : TextServices) : t.Keeps t := by
  intro h
  exact ⟨h, fun c => List.Sublist.refl _⟩

theorem Keeps.trans (h : t.Keeps t') (h' : t'.Keeps t'') : t.Keeps t'' := by
  intro hcarets
  obtain ⟨hcarets', hkept⟩ := h hcarets
  obtain ⟨hcarets'', hkept'⟩ := h' hcarets'
  exact ⟨hcarets'', fun c => (hkept c).trans (hkept' c)⟩

theorem outside_sublist (c : ContextId) (t : TextServices) : (t.outside c).Sublist (t.contexts c).text :=
  (t.contexts c).outside_sublist _

theorem outside_of_none (h : t.pComposition = none) (c : ContextId) :
    t.outside c = (t.contexts c).text := by
  rw [outside, preeditSpan, h]
  rfl

theorem keeps_of_released (hnone : t'.pComposition = none)
    (htext : ∀ c, (t'.contexts c).text = (t.contexts c).text)
    (hcaret : ∀ c, (t.contexts c).AtCaret → (t'.contexts c).AtCaret) : t.Keeps t' := by
  intro hcarets
  refine ⟨fun c => hcaret c (hcarets c), fun c => ?_⟩
  rw [outside_of_none hnone, htext]
  exact outside_sublist c t

theorem unmark_atCaret (k : Composition) (t : TextServices) (c : ContextId)
    (h : (t.contexts c).AtCaret) : ((t.unmark k).contexts c).AtCaret := by
  by_cases hc : c = k.context
  · subst hc
    rw [show (t.unmark k).contexts k.context = (t.contexts k.context).unmark k.id from
      Function.update_self _ _ _]
    exact h
  · rwa [show (t.unmark k).contexts c = t.contexts c from Function.update_of_ne hc _ _]

theorem keeps_terminate (t : TextServices) : t.Keeps t.terminate := by
  unfold terminate
  cases t.pComposition with
  | none => exact Keeps.refl t
  | some k => exact keeps_of_released rfl (unmark_text k t) (unmark_atCaret k t)

theorem keeps_endComposition (ok : Bool) (ec : ContextId) (t : TextServices) :
    t.Keeps (t.endComposition ok ec) := by
  apply keeps_of_released (endComposition_pComposition ok ec t) (endComposition_text ok ec t)
  intro c hcaret
  unfold endComposition
  split
  · exact hcaret
  · next k hk =>
    split_ifs
    · exact unmark_atCaret k t c hcaret
    · exact hcaret

theorem outside_congr {c : ContextId} (hk : t'.pComposition = t.pComposition)
    (htext : (t'.contexts c).text = (t.contexts c).text)
    (hmarks : (t'.contexts c).marks = (t.contexts c).marks) : t'.outside c = t.outside c := by
  unfold outside preeditSpan MarkedText.outside
  rw [hk, htext, hmarks]

section Adjust

variable {c : ContextId} {f : MarkedText WChar CompositionId → MarkedText WChar CompositionId}
  (hf : ∀ d i, ((f d).marks i).isSome = (d.marks i).isSome)

theorem keeps_adjust (hcaret : (t.contexts c).AtCaret → (f (t.contexts c)).AtCaret)
    (hkept : (t.outside c).Sublist ((t.adjust c f hf).outside c)) : t.Keeps (t.adjust c f hf) := by
  intro hcarets
  have hother {d : ContextId} (hd : d ≠ c) : (t.adjust c f hf).contexts d = t.contexts d :=
    Function.update_of_ne hd _ _
  refine ⟨fun d => ?_, fun d => ?_⟩
  · by_cases hd : d = c
    · rw [hd, show (t.adjust c f hf).contexts c = f (t.contexts c) from Function.update_self _ _ _]
      exact hcaret (hcarets c)
    · rw [hother hd]
      exact hcarets d
  · by_cases hd : d = c
    · rw [hd]
      exact hkept
    · have hsame : (t.adjust c f hf).outside d = t.outside d :=
        outside_congr rfl (congrArg MarkedText.text (hother hd)) (congrArg MarkedText.marks (hother hd))
      rw [hsame]

theorem preeditSpan_adjust : (t.adjust c f hf).preeditSpan c =
    t.pComposition.bind fun k => if k.context = c then (f (t.contexts c)).marks k.id else none := by
  simp only [preeditSpan, adjust, Function.update_self]

theorem outside_adjust :
    (t.adjust c f hf).outside c = (f (t.contexts c)).outside ((t.adjust c f hf).preeditSpan c) := by
  rw [outside, show (t.adjust c f hf).contexts c = f (t.contexts c) from Function.update_self _ _ _]

end Adjust

theorem keeps_edit {c : ContextId} {r : Span} {xs : WString}
    {f : MarkedText WChar CompositionId → MarkedText WChar CompositionId}
    (hr : t.preeditSpan c = some r ∨ r.IsCaret) (hf : ∀ d i, ((f d).marks i).isSome = (d.marks i).isSome)
    (hcaret : (t.contexts c).AtCaret → (f (t.contexts c)).AtCaret)
    (htext : (f (t.contexts c)).text = ((t.contexts c).replace r xs).text)
    (hmarks : (f (t.contexts c)).marks = ((t.contexts c).replace r xs).marks) : t.Keeps (t.adjust c f hf) := by
  apply keeps_adjust hf hcaret
  rw [outside_adjust, MarkedText.outside, htext]
  by_cases hle : r.stop ≤ (t.contexts c).text.length
  · have hspan : (t.adjust c f hf).preeditSpan c = (t.preeditSpan c).map (r.shift xs.length) := by
      rw [preeditSpan_adjust, preeditSpan, Option.map_bind]
      apply congrArg
      funext k
      rw [Function.comp_apply, hmarks, MarkedText.marks_replace hle]
      split_ifs
      · rfl
      · rfl
    rw [hspan]
    rcases hr with hpreedit | hcaret
    · rw [outside, hpreedit, Option.map_some, ← MarkedText.outside_replace_self hle xs]
      exact List.Sublist.refl _
    · exact MarkedText.outside_sublist_replace hle hcaret xs _
  · have hsame : (t.contexts c).replace r xs = t.contexts c := dif_neg hle
    rw [preeditSpan_adjust, hmarks, hsame]
    exact List.Sublist.refl _

theorem keeps_replace {c : ContextId} {r : Span} (hr : r.IsCaret) {xs : WString}
    (hf : ∀ d i, ((MarkedText.replace d r xs : MarkedText WChar CompositionId).marks i).isSome =
      (d.marks i).isSome) : t.Keeps (t.adjust c (·.replace r xs) hf) :=
  keeps_edit (.inr hr) hf (·.replace r xs) rfl rfl

theorem keeps_select {c : ContextId} {r : Span} (hr : r.IsCaret)
    (hf : ∀ d i, ((MarkedText.select d r : MarkedText WChar CompositionId).marks i).isSome =
      (d.marks i).isSome) : t.Keeps (t.adjust c (·.select r) hf) := by
  apply keeps_adjust hf (·.select hr)
  rw [outside_adjust, preeditSpan_adjust, MarkedText.marks_select]
  unfold MarkedText.outside
  rw [MarkedText.text_select]
  exact List.Sublist.refl _

theorem keeps_setText (ec : ContextId) {r : Range} (hr : t.preeditSpan r.context = some r.span ∨
    r.span.IsCaret) (ok : Bool) (kind : WriteKind) (text : WString) :
    t.Keeps (t.setText ok ec kind r text).1 := by
  unfold setText
  split_ifs with h
  · rw [h.2.1] at hr
    have hwritten : t.Keeps (t.adjust ec (·.write r.span text) fun d i => by simp) :=
      keeps_edit hr _ (·.write r.span text) (MarkedText.text_write _ _ _) (MarkedText.marks_write _ _ _)
    exact hwritten
  · exact Keeps.refl t

theorem keeps_setSelection {r : Range} (hr : r.span.IsCaret) (ok : Bool) (ec : ContextId) :
    t.Keeps (t.setSelection ok ec r) := by
  unfold setSelection
  split_ifs
  · exact keeps_select hr _
  · exact Keeps.refl t

theorem keeps_startComposition (ec : ContextId) : t.Keeps (t.startComposition ec) := by
  intro hcarets
  have hother {c : ContextId} (hc : c ≠ ec) : (t.startComposition ec).contexts c = t.contexts c :=
    Function.update_of_ne hc _ _
  have hself : (t.startComposition ec).contexts ec = (t.contexts ec).mark t.nextComposition :=
    Function.update_self _ _ _
  refine ⟨fun c => ?_, fun c => ?_⟩
  · by_cases hc : c = ec
    · rw [hc, hself]
      exact hcarets ec
    · rw [hother hc]
      exact hcarets c
  · apply (outside_sublist c t).trans
    by_cases hc : c = ec
    · have hspan : (t.startComposition ec).preeditSpan ec = some (t.contexts ec).selection := by
        simp [preeditSpan, startComposition, MarkedText.mark]
      rw [hc, outside, hself, hspan]
      change (t.contexts ec).text.Sublist (splice (t.contexts ec).text (t.contexts ec).selection [])
      rw [splice_caret_nil _ (hcarets ec).1]
    · have hspan : (t.startComposition ec).preeditSpan c = none := by
        simp [preeditSpan, startComposition, Ne.symm hc]
      rw [outside, hother hc, hspan]
      exact List.Sublist.refl _

theorem preeditSpan_of_getRange {ok : Bool} {k : Composition} {r : Range} (hk : t.pComposition = some k)
    (hr : t.getRange ok k = some r) : t.preeditSpan r.context = some r.span := by
  unfold getRange at hr
  split_ifs at hr
  obtain ⟨m, hm, rfl⟩ := Option.map_eq_some_iff.mp hr
  simp [preeditSpan, hk, hm]

end Keeps

end TextServices

namespace CManageCompositionEditSession

open TextServices

variable {t t' : TextServices}

theorem keeps_insertCommitted {ec : ContextId} {r : Range}
    (hr : t.preeditSpan r.context = some r.span ∨ r.span.IsCaret) (o : CommitOutcomes) (committed : WString) :
    t.Keeps (insertCommitted o ec committed r t) := by
  have hwritten := keeps_setText ec hr o.setText .committed committed
  apply (hwritten.trans (keeps_endComposition o.endComposition ec _)).trans
  exact keeps_setSelection (Span.isCaret_caret _) o.setSelection ec

theorem keeps_commitText (o : CommitOutcomes) (ec : ContextId) (committed : WString) (t : TextServices) :
    t.Keeps (commitText o ec committed t) := by
  unfold commitText
  split_ifs
  · exact Keeps.refl t
  · cases hrange : committedRange o ec t with
    | none => exact Keeps.refl t
    | some r =>
      intro hcarets
      refine keeps_insertCommitted ?_ o committed hcarets
      unfold committedRange at hrange
      cases hk : t.pComposition with
      | none =>
        -- the selection of the document, which is a caret
        rw [hk] at hrange
        simp only [getSelection] at hrange
        split_ifs at hrange
        rw [← Option.some.inj hrange]
        exact .inr (hcarets ec).1
      | some k =>
        rw [hk] at hrange
        exact .inl (preeditSpan_of_getRange hk hrange)

theorem keeps_clearComposition (o : ClearOutcomes) (ec : ContextId) (t : TextServices) :
    t.Keeps (clearComposition o ec t) := by
  unfold clearComposition
  cases hk : t.pComposition with
  | none => exact Keeps.refl t
  | some k =>
    cases hrange : t.getRange o.getRange k with
    | none =>
      simp only [hrange]
      exact keeps_endComposition o.endComposition ec t
    | some r =>
      simp only [hrange]
      have hcleared := keeps_setText ec (.inl (preeditSpan_of_getRange hk hrange)) o.setText .cleared []
      exact hcleared.trans (keeps_endComposition o.endComposition ec _)

theorem keeps_insertComposition (o : StartOutcomes) (ec : ContextId) (composition : WString)
    (t : TextServices) : t.Keeps (insertComposition o ec composition t) := by
  unfold insertComposition
  cases hrange : t.pComposition.bind (t.getRange o.getRange ·) with
  | none => exact Keeps.refl t
  | some r =>
    obtain ⟨k, hk, hr⟩ := Option.bind_eq_some_iff.mp hrange
    have hwritten := keeps_setText ec (.inl (preeditSpan_of_getRange hk hr)) o.setText .composition
      composition
    exact hwritten.trans (keeps_setSelection (Span.isCaret_caret _) o.setSelection ec)

theorem keeps_startPreedit {o : StartOutcomes} {ec : ContextId} {composition : WString}
    (h : startPreedit o ec composition t = some t') : t.Keeps t' := by
  unfold startPreedit at h
  split_ifs at h
  · rw [← Option.some.inj h]
    exact Keeps.refl t
  · split at h
    · rw [← Option.some.inj h]
      exact Keeps.refl t
    · split at h
      · rw [← Option.some.inj h]
        exact Keeps.refl t
      · cases h
      · rw [← Option.some.inj h]
        exact (keeps_startComposition ec).trans (keeps_insertComposition o ec composition _)

theorem keeps_doEditSession {o : SessionOutcomes} {ec : ContextId} {committed composition : WString}
    (h : doEditSession o ec committed composition t = some t') : t.Keeps t' := by
  have hcommitted := keeps_commitText o.commit ec committed t
  have hcleared := keeps_clearComposition o.clear ec (commitText o.commit ec committed t)
  exact (hcommitted.trans hcleared).trans (keeps_startPreedit h)

theorem keeps_requestEditSession {o : SessionOutcomes} {pic : ContextId} {committed composition : WString}
    (h : requestEditSession o pic committed composition t = some t') : t.Keeps t' := by
  unfold requestEditSession at h
  dsimp only at h
  have hrequested : t.Keeps (t.request ⟨pic, committed, composition⟩) := Keeps.refl t
  cases hgranted : o.request with
  | granted =>
    rw [hgranted] at h
    exact hrequested.trans (keeps_doEditSession h)
  | refused =>
    rw [hgranted] at h
    rwa [← Option.some.inj h]
  | notGranted =>
    rw [hgranted] at h
    rwa [← Option.some.inj h]

end CManageCompositionEditSession

variable {E : Type}

/-- The application itself deletes nothing, and selects nothing. -/
def Event.insertsOnly : Event → Prop
  | .edited _ r _ => r.IsCaret
  | .selected _ r => r.IsCaret
  | _ => True

instance (e : Event) : Decidable e.insertsOnly :=
  match e with
  | .edited _ r _ => inferInstanceAs (Decidable r.IsCaret)
  | .selected _ r => inferInstanceAs (Decidable r.IsCaret)
  | .keyDown _ _ _ _ | .click _ | .change _ _ | .terminated | .activate _ | .deactivate _ => isTrue trivial

namespace CTCodeIME

open TextServices

theorem keeps_step (srv : Server E) (s : CTCodeIME E) {e : Event} (he : e.insertsOnly) :
    s.text.Keeps (s.step srv e).text := by
  cases e with
  | keyDown o pic wParam keys =>
    rcases onKeyDown_text srv o pic wParam keys s with hsame | hedited
    · have hstep : (s.step srv (.keyDown o pic wParam keys)).text = s.text := hsame
      rw [hstep]
      exact Keeps.refl _
    · cases hsession :
        (s.effect srv o.pastEnd (s.keystroke o.compartment wParam keys)).session with
      | none =>
        rw [hsession] at hedited
        have hstep : (s.step srv (.keyDown o pic wParam keys)).text = s.text :=
          (Option.some.inj hedited).symm
        rw [hstep]
        exact Keeps.refl _
      | some x =>
        rw [hsession] at hedited
        exact CManageCompositionEditSession.keeps_requestEditSession hedited
  | terminated => exact keeps_terminate s.text
  | edited c r text => exact keeps_replace he fun d i => d.isSome_marks_replace r text i
  | selected c r => exact keeps_select he fun d i => by rw [MarkedText.marks_select]
  | click o =>
    rw [step_text rfl]
    exact Keeps.refl _
  | change guid val =>
    rw [step_text rfl]
    exact Keeps.refl _
  | activate o => exact Keeps.refl _
  | deactivate o =>
    rw [step_text rfl]
    exact Keeps.refl _

theorem text_outside_kept (srv : Server E) {s : CTCodeIME E} (hcarets : s.text.AtCarets) {es : List Event}
    (hes : Along (step srv) (fun s e => s.survives srv e ∧ e.insertsOnly) s es) (c : ContextId) :
    (s.text.outside c).Sublist ((run (step srv) s es).text.outside c) := by
  have hkeeps : s.text.Keeps (run (step srv) s es).text := by
    refine run_of_step (I := fun s' => s.text.Keeps s'.text) ?_ (Keeps.refl s.text) hes
    intro s' e hs' he
    exact hs'.trans (keeps_step srv s' he.2)
  exact (hkeeps hcarets).2 c

def typed : MarkedText WChar CompositionId where
  text := [0x61, 0x62]
  selection := .caret 1
  marks _ := none
  placements _ := .caret 0
  selection_le := Nat.le_succ 1
  marks_le := by simp

theorem text_outside_kept_uncleared :
    let srv := Server.scripted [.status ⟨[], "か".toList, [], "Some(j)".toList, true⟩,
      .status ⟨[], "の".toList, [], "None".toList, true⟩]
    let s : CTCodeIME ℕ := construct 0 (fun _ => typed) (fun _ _ => rfl) ⟨none, none⟩
    ([0x61, 0x62] : WString).Sublist ((run (step srv) s [.activate {}, .ctrlSlash, .key 0x4A,
      .edited 0 (.caret 0) [0x63], .keyDown { session := { clear := { setText := false } } } 0 0x46 {},
      .selected 0 (.caret 0)]).text.outside 0) :=
  text_outside_kept _ (s := construct 0 (fun _ => typed) (fun _ _ => rfl) ⟨none, none⟩) (fun _ => ⟨rfl, fun _ => rfl⟩)
    (by decide +kernel) 0

end CTCodeIME

end TCodeIME
