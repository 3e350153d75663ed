import TCodeIME.Library.MarkedText
import TCodeIME.GlazeModels

/-!
The part of the Text Services Framework that edit sessions use. Every call takes as its first
argument whether it succeeds. A context is named by the edit cookie it hands out, and a call with
the cookie of another context fails.
-/

namespace TCodeIME

abbrev ContextId := ℕ

abbrev CompositionId := ℕ

structure Composition where
  context : ContextId
  id : CompositionId
deriving DecidableEq

structure Range where
  context : ContextId
  span : Span
deriving DecidableEq

structure SessionRequest where
  context : ContextId
  committed : WString
  composition : WString
deriving DecidableEq

inductive WriteKind where
  | committed
  | cleared
  | composition
deriving DecidableEq

structure Write where
  context : ContextId
  kind : WriteKind
  text : WString
deriving DecidableEq

/-- The contexts with the compositions live in them, the IME's `_pComposition`, the edit sessions
it has requested and the `SetText` calls of these sessions that took effect, oldest first. -/
structure TextServices where
  contexts : ContextId → MarkedText WChar CompositionId
  nextComposition : CompositionId
  pComposition : Option Composition
  sessions : List SessionRequest
  writes : List Write
  marks_fresh : ∀ c i, nextComposition ≤ i → (contexts c).marks i = none
  composition_live : ∀ k, pComposition = some k → ((contexts k.context).marks k.id).isSome

namespace TextServices

def adjust (c : ContextId) (f : MarkedText WChar CompositionId → MarkedText WChar CompositionId)
    (hf : ∀ d i, ((f d).marks i).isSome = (d.marks i).isSome) (t : TextServices) : TextServices :=
  { t with
    contexts := Function.update t.contexts c (f (t.contexts c))
    marks_fresh := by
      intro c' i hi
      by_cases hc : c' = c
      · subst hc
        have := hf (t.contexts c') i
        rw [t.marks_fresh c' i hi] at this
        simpa using this
      · simpa [hc] using t.marks_fresh c' i hi
    composition_live := by
      intro k hk
      have := t.composition_live k hk
      by_cases hc : k.context = c
      · subst hc
        simpa [hf] using this
      · simpa [hc] using this }

def getRange (ok : Bool) (k : Composition) (t : TextServices) : Option Range :=
  if ok then ((t.contexts k.context).marks k.id).map (Range.mk k.context) else none

def getSelection (ok : Bool) (c : ContextId) (t : TextServices) : Option Range :=
  if ok then some ⟨c, (t.contexts c).selection⟩ else none

def setText (ok : Bool) (ec : ContextId) (kind : WriteKind) (r : Range) (text : WString)
    (t : TextServices) : TextServices × Range :=
  if ok = true ∧ r.context = ec ∧ r.span.stop ≤ (t.contexts ec).text.length then
    ({ t.adjust ec (·.write r.span text) (fun d i => by simp) with
        writes := t.writes ++ [⟨ec, kind, text⟩] },
      ⟨ec, r.span.written text.length⟩)
  else (t, r)

def setSelection (ok : Bool) (ec : ContextId) (r : Range) (t : TextServices) : TextServices :=
  if ok = true ∧ r.context = ec then
    t.adjust ec (·.select r.span) (fun d i => by rw [MarkedText.marks_select])
  else t

def unmark (k : Composition) (t : TextServices) : TextServices :=
  { t with
    contexts := Function.update t.contexts k.context ((t.contexts k.context).unmark k.id)
    pComposition := none
    marks_fresh := by
      intro c i hi
      have := t.marks_fresh c i hi
      by_cases hc : c = k.context
      · subst hc
        by_cases hk : i = k.id <;> simp [MarkedText.unmark, hk, this]
      · simpa [hc] using this
    composition_live := by simp }

def onCompositionTerminated (t : TextServices) : TextServices :=
  { t with pComposition := none, composition_live := by simp }

/-- `EndComposition`, then `Release` and the null assignment that always follow it. -/
def endComposition (ok : Bool) (ec : ContextId) (t : TextServices) : TextServices :=
  match t.pComposition with
  | none => t
  | some k => if ok = true ∧ k.context = ec then t.unmark k else t.onCompositionTerminated

/-- The application ends the live composition; its text stays, and the sink is told. -/
def terminate (t : TextServices) : TextServices :=
  match t.pComposition with
  | none => t
  | some k => (t.unmark k).onCompositionTerminated

def startComposition (c : ContextId) (t : TextServices) : TextServices :=
  { t with
    contexts := Function.update t.contexts c ((t.contexts c).mark t.nextComposition)
    nextComposition := t.nextComposition + 1
    pComposition := some ⟨c, t.nextComposition⟩
    marks_fresh := by
      intro c' i hi
      have := t.marks_fresh c' i (Nat.le_of_succ_le hi)
      have hne : i ≠ t.nextComposition := Nat.ne_of_gt (Nat.lt_of_succ_le hi)
      by_cases hc : c' = c
      · subst hc
        simpa [MarkedText.mark, hne] using this
      · simpa [hc] using this
    composition_live := by
      intro k hk
      cases hk
      simp [MarkedText.mark] }

def request (s : SessionRequest) (t : TextServices) : TextServices :=
  { t with sessions := t.sessions ++ [s] }

theorem id_lt_of_live {t : TextServices} {k : Composition} (h : t.pComposition = some k) :
    k.id < t.nextComposition := by
  have hlive := t.composition_live k h
  by_contra hk
  rw [t.marks_fresh k.context k.id (Nat.le_of_not_lt hk)] at hlive
  simp at hlive

theorem unmark_text (k : Composition) (t : TextServices) (c : ContextId) :
    ((t.unmark k).contexts c).text = (t.contexts c).text := by
  by_cases hc : c = k.context
  · subst hc
    simp [unmark, MarkedText.unmark]
  · simp [unmark, hc]

theorem unmark_selection (k : Composition) (t : TextServices) (c : ContextId) :
    ((t.unmark k).contexts c).selection = (t.contexts c).selection := by
  by_cases hc : c = k.context
  · subst hc
    simp [unmark, MarkedText.unmark]
  · simp [unmark, hc]

section Fields

variable (ok : Bool) (ec : ContextId) (kind : WriteKind) (r : Range) (text : WString)
  (t : TextServices)

@[simp] theorem setText_pComposition : (t.setText ok ec kind r text).1.pComposition = t.pComposition := by
  unfold setText
  split_ifs <;> rfl

@[simp] theorem setText_nextComposition :
    (t.setText ok ec kind r text).1.nextComposition = t.nextComposition := by
  unfold setText
  split_ifs <;> rfl

@[simp] theorem setText_sessions : (t.setText ok ec kind r text).1.sessions = t.sessions := by
  unfold setText
  split_ifs <;> rfl

theorem setText_writes : (t.setText ok ec kind r text).1.writes =
    if ok = true ∧ r.context = ec ∧ r.span.stop ≤ (t.contexts ec).text.length then
      t.writes ++ [⟨ec, kind, text⟩] else t.writes := by
  unfold setText
  split_ifs <;> rfl

@[simp] theorem setSelection_pComposition : (t.setSelection ok ec r).pComposition = t.pComposition := by
  unfold setSelection
  split_ifs <;> rfl

@[simp] theorem setSelection_nextComposition :
    (t.setSelection ok ec r).nextComposition = t.nextComposition := by
  unfold setSelection
  split_ifs <;> rfl

@[simp] theorem setSelection_sessions : (t.setSelection ok ec r).sessions = t.sessions := by
  unfold setSelection
  split_ifs <;> rfl

@[simp] theorem setSelection_writes : (t.setSelection ok ec r).writes = t.writes := by
  unfold setSelection
  split_ifs <;> rfl

theorem setSelection_marks (c : ContextId) :
    ((t.setSelection ok ec r).contexts c).marks = (t.contexts c).marks := by
  unfold setSelection
  split_ifs
  · by_cases hc : c = ec
    · subst hc
      simp [adjust]
    · simp [adjust, hc]
  · rfl

theorem setSelection_text (c : ContextId) :
    ((t.setSelection ok ec r).contexts c).text = (t.contexts c).text := by
  unfold setSelection
  split_ifs
  · by_cases hc : c = ec
    · subst hc
      simp [adjust]
    · simp [adjust, hc]
  · rfl

theorem setSelection_contexts {c : ContextId} (hc : c ≠ ec) :
    (t.setSelection ok ec r).contexts c = t.contexts c := by
  unfold setSelection
  split_ifs
  · simp [adjust, hc]
  · rfl

theorem setText_contexts {c : ContextId} (hc : c ≠ ec) :
    (t.setText ok ec kind r text).1.contexts c = t.contexts c := by
  unfold setText
  split_ifs
  · simp [adjust, hc]
  · rfl

theorem endComposition_contexts {c : ContextId} (hc : c ≠ ec) :
    (t.endComposition ok ec).contexts c = t.contexts c := by
  unfold endComposition
  split
  · rfl
  · next k hk =>
    split_ifs with h
    · rw [← h.2] at hc
      simp [unmark, hc]
    · rfl

theorem endComposition_text (c : ContextId) :
    ((t.endComposition ok ec).contexts c).text = (t.contexts c).text := by
  unfold endComposition
  split
  · rfl
  · next k hk =>
    split_ifs
    · exact unmark_text k t c
    · rfl

theorem endComposition_selection (c : ContextId) :
    ((t.endComposition ok ec).contexts c).selection = (t.contexts c).selection := by
  unfold endComposition
  split
  · rfl
  · next k hk =>
    split_ifs
    · exact unmark_selection k t c
    · rfl

theorem setText_text (c : ContextId) :
    ((t.setText ok ec kind r text).1.contexts c).text = (t.contexts c).text ∨
      c = r.context ∧ ((t.setText ok ec kind r text).1.contexts c).text =
        splice (t.contexts c).text r.span text := by
  unfold setText
  split_ifs with h
  · by_cases hc : c = ec
    · subst hc
      exact .inr ⟨h.2.1.symm, by simp [adjust, MarkedText.text_replace h.2.2]⟩
    · exact .inl (by simp [adjust, hc])
  · exact .inl rfl

@[simp] theorem endComposition_pComposition : (t.endComposition ok ec).pComposition = none := by
  unfold endComposition
  split
  · assumption
  · split_ifs <;> rfl

@[simp] theorem endComposition_nextComposition :
    (t.endComposition ok ec).nextComposition = t.nextComposition := by
  unfold endComposition
  split
  · rfl
  · split_ifs <;> rfl

@[simp] theorem endComposition_sessions : (t.endComposition ok ec).sessions = t.sessions := by
  unfold endComposition
  split
  · rfl
  · split_ifs <;> rfl

@[simp] theorem endComposition_writes : (t.endComposition ok ec).writes = t.writes := by
  unfold endComposition
  split
  · rfl
  · split_ifs <;> rfl

end Fields

theorem terminate_eq_endComposition {c : ContextId} {t : TextServices}
    (h : ∀ k, t.pComposition = some k → k.context = c) : t.terminate = t.endComposition true c := by
  unfold terminate endComposition
  split
  · rfl
  · next k hk =>
    rw [if_pos ⟨rfl, h k hk⟩]
    rfl

@[simp] theorem terminate_pComposition (t : TextServices) : t.terminate.pComposition = none := by
  unfold terminate
  split
  · assumption
  · rfl

theorem getRange_live {t : TextServices} {k : Composition} (h : t.pComposition = some k) :
    ∃ span, t.getRange true k = some ⟨k.context, span⟩ ∧
      span.stop ≤ (t.contexts k.context).text.length := by
  obtain ⟨span, hspan⟩ := Option.isSome_iff_exists.mp (t.composition_live k h)
  exact ⟨span, by simp [getRange, hspan], (t.contexts k.context).marks_le k.id span hspan⟩

end TextServices

end TCodeIME
