import TCodeIME.EngineOutput
import TCodeIME.Library.Utf16Reading
import TCodeIME.PreeditEditor
import TCodeIME.Preedit

/-!
What the engine has put out against what stands in the document it was typed into.
-/

namespace TCodeIME

variable {E : Type}

namespace TextServices

theorem Shows.preedit {c : ContextId} {before live after : WString} {t : TextServices}
    (h : t.Shows c before live after) (hlive : t.pComposition = none → live = []) : t.preedit = live := by
  cases hk : t.pComposition with
  | none => rw [preedit_of_none hk, hlive hk]
  | some k =>
    obtain ⟨context, i⟩ := k
    obtain rfl : context = c := h.context _ hk
    rw [preedit_of_mark hk ((h.marks i _).mpr ⟨hk, rfl⟩), MarkedText.covered, h.text]
    simp [liveSpan, Span.written, Span.caret, Span.length]

theorem Shows.congr {c : ContextId} {before live after : WString} {t t' : TextServices}
    (h : t.Shows c before live after) (hc : t'.contexts c = t.contexts c)
    (hk : t'.pComposition = t.pComposition) : t'.Shows c before live after := by
  refine ⟨⟨?_, ?_, ?_⟩, ?_⟩
  · rw [hc, h.text]
  · intro i m
    rw [hc, hk, h.marks]
  · rw [hk]
    exact h.context
  · rw [hc, h.selection]

end TextServices

namespace OutputLedger

variable {srv : Server E} {outputBuffer : E → Str} {l : OutputLedger E} {e : Event} {c : ContextId}
  {before after : WString}

/-- The user types into one document, whose edit sessions succeed and which nobody else touches. -/
def typedInto (c : ContextId) (_l : OutputLedger E) : Event → Prop
  | .keyDown o pic _ _ => pic = c ∧ o.session = {}
  | .terminated => False
  | .edited d _ _ => d ≠ c
  | .selected d _ => d ≠ c
  | _ => True

instance (c : ContextId) (l : OutputLedger E) (e : Event) : Decidable (l.typedInto c e) :=
  match e with
  | .keyDown _ _ _ _ => inferInstanceAs (Decidable (_ ∧ _))
  | .terminated => isFalse id
  | .edited _ _ _ | .selected _ _ => inferInstanceAs (Decidable (_ ≠ _))
  | .click _ | .change _ _ | .activate _ | .deactivate _ => isTrue trivial

def holdsDelivered (c : ContextId) (before after : WString) (l : OutputLedger E) : Prop :=
  ∃ live, l.ime.text.Shows c (before ++ l.delivered) live after ∧
    l.ime.text.pComposition.isSome = !live.isEmpty

theorem balanced_step (hsrv : KeepsOutputBuffer srv outputBuffer) (hl : l.balanced outputBuffer)
    (hs : l.succeeds srv e) (hd : l.delivers srv e) : (l.step srv outputBuffer e).balanced outputBuffer := by
  cases e with
  | keyDown o pic wParam keys => exact (balanced_keyDown_iff hsrv hl hs).mpr hd
  | _ =>
    rw [balanced_step_iff hl, CTCodeIME.committedSince, CTCodeIME.sessionsSince, CTCodeIME.step_sessions rfl,
      CTCodeIME.step_client rfl]
    simp [CTCodeIME.appendedOutput]

theorem delivered_step (h : e.isKeyDown = false) : (l.step srv outputBuffer e).delivered = l.delivered := by
  rw [step, CTCodeIME.committedSince, CTCodeIME.sessionsSince, CTCodeIME.step_sessions h]
  simp

theorem holdsDelivered_keyDown {o : KeyOutcomes} {wParam : ℕ} {keys : Modifiers}
    (hl : l.holdsDelivered c before after) (ho : o.session = {})
    (hexit : (l.ime.onKeyDown srv o c wParam keys).exit = .returned) :
    (l.step srv outputBuffer (.keyDown o c wParam keys)).holdsDelivered c before after := by
  obtain ⟨live, hshows, hcomposing⟩ := hl
  have hlive : l.ime.text.pComposition = none → live = [] := by
    intro hnone
    simpa [hnone] using hcomposing
  have htext := (CTCodeIME.onKeyDown_returned srv o c wParam keys l.ime hexit).2.1
  have hcommitted := committedSince_onKeyDown hexit
  simp only [holdsDelivered, step, CTCodeIME.step]
  rw [hcommitted]
  rw [ho] at htext
  cases hsession : l.ime.requestedSession srv o.pastEnd (l.ime.keystroke o.compartment wParam keys) with
  | none =>
    rw [hsession] at htext
    rw [← Option.some.inj htext, Option.elim, List.append_nil]
    exact ⟨live, hshows, hcomposing⟩
  | some x =>
    rw [hsession] at htext
    have hrequested : (l.ime.text.request ⟨c, x.1, x.2⟩).Shows c (before ++ l.delivered) live after :=
      hshows.congr rfl rfl
    obtain ⟨t', ht', hshows'⟩ :=
      CManageCompositionEditSession.doEditSession_shows hrequested hlive x.1 x.2
    have hsame : t' = (l.ime.onKeyDown srv o c wParam keys).ime.text :=
      Option.some.inj (ht'.symm.trans htext)
    rw [List.append_assoc, hsame] at hshows'
    rw [hsame] at ht'
    exact ⟨x.2, hshows', CManageCompositionEditSession.doEditSession_composing ht'⟩

theorem holdsDelivered_step (hl : l.holdsDelivered c before after) (hs : l.succeeds srv e)
    (ht : l.typedInto c e) : (l.step srv outputBuffer e).holdsDelivered c before after := by
  have kept (hkey : e.isKeyDown = false) (hcontext : (l.ime.step srv e).text.contexts c = l.ime.text.contexts c)
      (hcomposition : (l.ime.step srv e).text.pComposition = l.ime.text.pComposition) :
      (l.step srv outputBuffer e).holdsDelivered c before after := by
    obtain ⟨live, hshows, hcomposing⟩ := hl
    refine ⟨live, ?_, by rw [← hcomposing]; exact congrArg _ hcomposition⟩
    rw [delivered_step hkey]
    exact hshows.congr hcontext hcomposition
  cases e with
  | keyDown o pic wParam keys =>
    obtain ⟨rfl, ho⟩ := ht
    exact holdsDelivered_keyDown hl ho hs.2.2
  | terminated => exact ht.elim
  | edited d r text => exact kept rfl (by simp [CTCodeIME.step, TextServices.adjust, Ne.symm ht]) rfl
  | selected d r => exact kept rfl (by simp [CTCodeIME.step, TextServices.adjust, Ne.symm ht]) rfl
  | click o => exact kept rfl (by rw [CTCodeIME.step_text rfl]) (by rw [CTCodeIME.step_text rfl])
  | change guid val => exact kept rfl (by rw [CTCodeIME.step_text rfl]) (by rw [CTCodeIME.step_text rfl])
  | activate o => exact kept rfl rfl rfl
  | deactivate o => exact kept rfl (by rw [CTCodeIME.step_text rfl]) (by rw [CTCodeIME.step_text rfl])

def Stands (outputBuffer : E → Str) (c : ContextId) (before after : WString) (l : OutputLedger E) : Prop :=
  l.balanced outputBuffer ∧ l.holdsDelivered c before after

theorem Stands.text {outputBuffer : E → Str} (h : l.Stands outputBuffer c before after) :
    ∃ output, l.appended = output ++ outputBuffer l.ime.client.engine ∧
      (l.ime.text.contexts c).text = before ++ Utf16.encode output ++ l.ime.text.preedit ++ after := by
  obtain ⟨hbalanced, live, hshows, hcomposing⟩ := h
  obtain ⟨output, happended, hdelivered⟩ := Utf16.eq_encode_of_append hbalanced
  have hpreedit : l.ime.text.preedit = live := by
    apply hshows.preedit
    intro hnone
    simpa [hnone] using hcomposing
  refine ⟨output, happended, ?_⟩
  rw [hpreedit, ← hdelivered]
  exact hshows.text

theorem stands_start (outputBuffer : E → Str) (engine : E)
    (contexts : ContextId → MarkedText WChar CompositionId) (hmarks : ∀ c i, (contexts c).marks i = none)
    (compartments : Compartments) (htext : (contexts c).text = before ++ after)
    (hcaret : (contexts c).selection = .caret before.length) :
    (start outputBuffer (.construct engine contexts hmarks compartments)).Stands outputBuffer c before after := by
  have hshows : (CTCodeIME.construct engine contexts hmarks compartments).text.Shows c before [] after := by
    refine ⟨⟨?_, ?_, nofun⟩, hcaret⟩
    · rw [List.append_nil]
      exact htext
    · intro i m
      have hmark : ((CTCodeIME.construct engine contexts hmarks compartments).text.contexts c).marks i = none :=
        hmarks c i
      rw [hmark]
      exact iff_of_false nofun fun h => nomatch h.1
  refine ⟨by simp [balanced, start], [], ?_, rfl⟩
  rw [start, List.append_nil]
  exact hshows

theorem stands_step (hsrv : KeepsOutputBuffer srv outputBuffer) (hl : l.Stands outputBuffer c before after)
    (hs : l.succeeds srv e) (hd : l.delivers srv e) (ht : l.typedInto c e) :
    (l.step srv outputBuffer e).Stands outputBuffer c before after :=
  ⟨balanced_step hsrv hl.1 hs hd, holdsDelivered_step hl.2 hs ht⟩

theorem output_stands_in_document (srv : Server E) (outputBuffer : E → Str)
    (hsrv : KeepsOutputBuffer srv outputBuffer) (engine : E)
    (contexts : ContextId → MarkedText WChar CompositionId) (hmarks : ∀ c i, (contexts c).marks i = none)
    (compartments : Compartments) (c : ContextId) (before after : WString)
    (htext : (contexts c).text = before ++ after) (hcaret : (contexts c).selection = .caret before.length)
    (es : List Event)
    (hok : Runs.Along (step srv outputBuffer)
      (fun l e => l.succeeds srv e ∧ l.delivers srv e ∧ l.typedInto c e)
      (start outputBuffer (.construct engine contexts hmarks compartments)) es) :
    let l := Runs.run (step srv outputBuffer)
      (start outputBuffer (.construct engine contexts hmarks compartments)) es
    ∃ output, l.appended = output ++ outputBuffer l.ime.client.engine ∧
      (l.ime.text.contexts c).text = before ++ Utf16.encode output ++ l.ime.text.preedit ++ after := by
  intro l
  have hl : l.Stands outputBuffer c before after :=
    Runs.run_of_step (I := Stands outputBuffer c before after)
      (fun l e hl hs => stands_step hsrv hl hs.1 hs.2.1 hs.2.2)
      (stands_start outputBuffer engine contexts hmarks compartments htext hcaret) hok
  exact hl.text

theorem output_stands_by_put :
    let script : List Answer :=
      [.status ⟨[], [], [], "Some(j)".toList, true⟩, .status ⟨"の".toList, [], [], "None".toList, true⟩,
        .commit ⟨"の".toList⟩]
    let outputBuffer : ℕ → Str := fun n => if n = 2 then "の".toList else []
    let l := Runs.run (step (.scripted script) outputBuffer) (start outputBuffer CTCodeIME.fresh)
      [.activate {}, .ctrlSlash, .key 0x4A, .edited 1 (.caret 0) [0x61], .key 0x46]
    ∃ output, l.appended = output ++ outputBuffer l.ime.client.engine ∧
      (l.ime.text.contexts 0).text = [] ++ Utf16.encode output ++ l.ime.text.preedit ++ [] :=
  output_stands_in_document _ _ (keepsOutputBuffer_scripted (by decide +kernel) (by decide +kernel)) 0
    (fun _ => blank) (fun _ _ => rfl) ⟨none, none⟩ 0 [] [] rfl rfl _ (by decide +kernel)

end OutputLedger

end TCodeIME
