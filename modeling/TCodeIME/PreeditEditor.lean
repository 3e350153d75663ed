import TCodeIME.EditSession

/-!
A document with a preedit, in its own terms and as the edit sessions keep it.
-/

/-- What has been put into a document so far, and the preedit behind it. -/
structure PreeditEditor (α : Type) where
  acc : List α := []
  live : List α := []

namespace PreeditEditor

variable {α : Type}

inductive Action (α : Type) where
  | session (committed composition : List α)
  | terminated

def perform (e : PreeditEditor α) : Action α → PreeditEditor α
  | .session committed composition => ⟨e.acc ++ committed, composition⟩
  | .terminated => ⟨e.acc ++ e.live, []⟩

def document (pre post : List α) (e : PreeditEditor α) : List α := pre ++ e.acc ++ e.live ++ post

end PreeditEditor

namespace TCodeIME

namespace TextServices

def liveSpan (before live : WString) : Span := (Span.caret before.length).written live.length

/-- The context `c` reads `before`, `live`, `after`, and no mark stands in it but that of the IME's
composition, which is on `live`. -/
structure Reads (c : ContextId) (before live after : WString) (t : TextServices) : Prop where
  text : (t.contexts c).text = before ++ live ++ after
  marks : ∀ i m, (t.contexts c).marks i = some m ↔
    t.pComposition = some ⟨c, i⟩ ∧ m = liveSpan before live
  context : ∀ k, t.pComposition = some k → k.context = c

structure Shows (c : ContextId) (before live after : WString) (t : TextServices) : Prop
    extends Reads c before live after t where
  selection : (t.contexts c).selection = (liveSpan before live).collapseEnd

section Shows

variable {c : ContextId} {before live after : WString} {t : TextServices}

theorem liveSpan_append_nil (before live : WString) :
    (liveSpan (before ++ live) []).collapseEnd = (liveSpan before live).collapseEnd := by
  simp [liveSpan, Span.collapseEnd, Span.written, Span.caret]

theorem Reads.liveSpan_le (h : t.Reads c before live after) :
    (liveSpan before live).stop ≤ (t.contexts c).text.length := by
  rw [h.text]
  simp only [liveSpan, Span.written, Span.caret, List.length_append]
  omega

theorem Reads.getRange (h : t.Reads c before live after) {k : Composition}
    (hk : t.pComposition = some k) : t.getRange true k = some ⟨c, liveSpan before live⟩ := by
  obtain ⟨context, id⟩ := k
  obtain rfl : context = c := h.context _ hk
  have hmark := (h.marks id _).mpr ⟨hk, rfl⟩
  simp [TextServices.getRange, hmark]

theorem Reads.setText_eq (h : t.Reads c before live after) (kind : WriteKind) (xs : WString) :
    (t.setText true c kind ⟨c, liveSpan before live⟩ xs).1.contexts c =
        (t.contexts c).write (liveSpan before live) xs ∧
      (t.setText true c kind ⟨c, liveSpan before live⟩ xs).2 = ⟨c, liveSpan before xs⟩ := by
  rw [TextServices.setText, if_pos ⟨rfl, rfl, h.liveSpan_le⟩]
  exact ⟨Function.update_self _ _ _, rfl⟩

theorem Reads.setText (h : t.Reads c before live after) (kind : WriteKind) (xs : WString) :
    (t.setText true c kind ⟨c, liveSpan before live⟩ xs).1.Reads c before xs after := by
  have hle := h.liveSpan_le
  have hcontext := (h.setText_eq kind xs).1
  refine ⟨?_, ?_, by simpa using h.context⟩
  · rw [hcontext, MarkedText.text_write, MarkedText.text_replace hle, h.text]
    exact splice_middle before live after xs
  · intro i m
    rw [hcontext, MarkedText.marks_write, MarkedText.marks_replace hle, Option.map_eq_some_iff,
      setText_pComposition]
    simp only [h.marks i]
    constructor
    · rintro ⟨m', ⟨hk, rfl⟩, rfl⟩
      exact ⟨hk, Span.shift_self _ _⟩
    · rintro ⟨hk, rfl⟩
      exact ⟨_, ⟨hk, rfl⟩, Span.shift_self _ _⟩

theorem Shows.clearText (h : t.Shows c before live after) (kind : WriteKind) :
    (t.setText true c kind ⟨c, liveSpan before live⟩ []).1.Shows c before [] after where
  toReads := h.toReads.setText kind []
  selection := by
    rw [(h.setText_eq kind []).1, MarkedText.write_nil, MarkedText.selection_replace h.liveSpan_le,
      h.selection, Span.follow_collapseEnd]
    rfl

theorem Reads.settle (h : t.Reads c before live after) (hnone : t.pComposition = none) :
    t.Reads c (before ++ live) [] after := by
  refine ⟨?_, ?_, h.context⟩
  · rw [h.text, List.append_nil]
  · intro i m
    rw [h.marks i m, hnone]
    simp

theorem Reads.unmark (h : t.Reads c before live after) {k : Composition}
    (hk : t.pComposition = some k) : (t.unmark k).Reads c before live after := by
  obtain ⟨context, id⟩ := k
  obtain rfl : context = c := h.context _ hk
  refine ⟨?_, ?_, nofun⟩
  · rw [unmark_text, h.text]
  · intro i m
    have hmark := h.marks i m
    simp only [TextServices.unmark, MarkedText.unmark, Function.update_self]
    by_cases hi : i = id
    · rw [hi]
      simp
    · rw [Function.update_of_ne hi, hmark, hk]
      simp [Ne.symm hi]

theorem Reads.endComposition (h : t.Reads c before live after) :
    (t.endComposition true c).Reads c (before ++ live) [] after := by
  unfold TextServices.endComposition
  split
  · next hnone => exact h.settle hnone
  · next k hk =>
    rw [if_pos ⟨rfl, h.context k hk⟩]
    exact (h.unmark hk).settle rfl

theorem Shows.endComposition (h : t.Shows c before live after) :
    (t.endComposition true c).Shows c (before ++ live) [] after where
  toReads := h.toReads.endComposition
  selection := by rw [endComposition_selection, h.selection, liveSpan_append_nil]

theorem Shows.terminate (h : t.Shows c before live after) :
    t.terminate.Shows c (before ++ live) [] after := by
  rw [terminate_eq_endComposition h.context]
  exact h.endComposition

theorem Reads.setSelection (h : t.Reads c before live after) :
    (t.setSelection true c ⟨c, (liveSpan before live).collapseEnd⟩).Shows c before live after := by
  have hle : (liveSpan before live).collapseEnd.stop ≤ (t.contexts c).text.length := h.liveSpan_le
  rw [TextServices.setSelection, if_pos ⟨rfl, rfl⟩]
  refine ⟨⟨?_, ?_, h.context⟩, ?_⟩
  · simpa [adjust] using h.text
  · simpa [adjust] using h.marks
  · simp [adjust, MarkedText.selection_select hle]

theorem Shows.startComposition (h : t.Shows c before [] after) (hnone : t.pComposition = none) :
    (t.startComposition c).Shows c before [] after := by
  refine ⟨⟨?_, ?_, ?_⟩, ?_⟩
  · simpa [TextServices.startComposition, MarkedText.mark] using h.text
  · intro i m
    have hmark := h.marks i m
    simp only [TextServices.startComposition, MarkedText.mark, Function.update_self]
    by_cases hi : i = t.nextComposition
    · subst hi
      simp [h.selection, liveSpan, Span.collapseEnd, Span.written, Span.caret, eq_comm]
    · rw [Function.update_of_ne hi, hmark, hnone]
      simp [Ne.symm hi]
  · rintro k hk
    cases hk
    rfl
  · simpa [TextServices.startComposition, MarkedText.mark] using h.selection

end Shows

end TextServices

namespace CManageCompositionEditSession

section Session

variable {c : ContextId} {before live after : WString} {t : TextServices}

theorem committedRange_shows (h : t.Shows c before live after)
    (hlive : t.pComposition = none → live = []) :
    committedRange {} c t = some ⟨c, TextServices.liveSpan before live⟩ := by
  unfold committedRange
  split
  · next k hk => exact h.getRange hk
  · next hnone =>
    have hselection := h.selection
    rw [hlive hnone] at hselection ⊢
    rw [TextServices.getSelection, if_pos rfl, hselection]
    rfl

theorem commitText_shows (h : t.Shows c before live after)
    (hlive : t.pComposition = none → live = []) {committed : WString} (hne : committed ≠ []) :
    (commitText {} c committed t).Shows c (before ++ committed) [] after := by
  have hend := (h.setText .committed committed).endComposition.setSelection
  rw [TextServices.liveSpan_append_nil] at hend
  rw [commitText, if_neg (by simpa using hne), committedRange_shows h hlive]
  dsimp only [insertCommitted]
  rw [(h.setText_eq .committed committed).2]
  exact hend

theorem clearComposition_shows (h : t.Shows c before live after)
    (hlive : t.pComposition = none → live = []) :
    (clearComposition {} c t).Shows c before [] after := by
  unfold clearComposition
  split
  · next hnone => exact hlive hnone ▸ h
  · next k hk =>
    rw [h.getRange hk]
    have hend := (h.clearText .cleared).endComposition
    rwa [List.append_nil] at hend

theorem startPreedit_shows (h : t.Shows c before [] after) (hnone : t.pComposition = none)
    (composition : WString) :
    ∃ t', startPreedit {} c composition t = some t' ∧ t'.Shows c before composition after := by
  rw [startPreedit_ok]
  refine ⟨_, rfl, ?_⟩
  by_cases hempty : composition.isEmpty = true
  · rw [if_pos hempty, List.isEmpty_iff.mp hempty]
    exact h
  · rw [if_neg hempty]
    have hstart := h.startComposition hnone
    have hrange := hstart.getRange rfl
    have hlive : (t.startComposition c).pComposition.bind ((t.startComposition c).getRange true ·) =
        some ⟨c, TextServices.liveSpan before []⟩ := hrange
    rw [insertComposition, hlive]
    dsimp only
    rw [(hstart.setText_eq .composition composition).2]
    exact (hstart.setText .composition composition).setSelection

theorem doEditSession_shows (h : t.Shows c before live after)
    (hlive : t.pComposition = none → live = []) (committed composition : WString) :
    ∃ t', doEditSession {} c committed composition t = some t' ∧
      t'.Shows c (before ++ committed) composition after := by
  have hclear : (clearComposition {} c (commitText {} c committed t)).Shows c (before ++ committed) []
      after := by
    by_cases hne : committed = []
    · rw [hne, commitText_nil, List.append_nil]
      exact clearComposition_shows h hlive
    · exact clearComposition_shows (commitText_shows h hlive hne) fun _ => rfl
  exact startPreedit_shows hclear (clearComposition_pComposition _ _ _) composition

def act (c : ContextId) (t : TextServices) : PreeditEditor.Action WChar → Option TextServices
  | .session committed composition => doEditSession {} c committed composition t
  | .terminated => some t.terminate

structure Displays (c : ContextId) (pre post : WString) (e : PreeditEditor WChar) (t : TextServices) :
    Prop where
  text : (t.contexts c).text = e.document pre post
  caret : (t.contexts c).selection = .caret (pre ++ e.acc ++ e.live).length
  composing : t.pComposition.isSome ↔ e.live ≠ []
  covers : ∀ i m, (t.contexts c).marks i = some m →
    m.start = (pre ++ e.acc).length ∧ (t.contexts c).covered m = e.live
  unique : ∀ i j, ((t.contexts c).marks i).isSome → ((t.contexts c).marks j).isSome → i = j
  live : ∀ k, t.pComposition = some k → k.context = c ∧ ((t.contexts c).marks k.id).isSome

theorem displays_of_shows {pre post : WString} {e : PreeditEditor WChar}
    (h : t.Shows c (pre ++ e.acc) e.live post) (hcomposing : t.pComposition.isSome = !e.live.isEmpty) :
    Displays c pre post e t := by
  refine ⟨h.text, ?_, ?_, ?_, ?_, ?_⟩
  · rw [h.selection, List.length_append]
    rfl
  · rw [hcomposing]
    simp
  · intro i m hm
    obtain ⟨-, rfl⟩ := (h.marks i m).mp hm
    refine ⟨rfl, ?_⟩
    rw [MarkedText.covered, h.text]
    simp [TextServices.liveSpan, Span.written, Span.caret, Span.length]
  · intro i j hi hj
    obtain ⟨m, hm⟩ := Option.isSome_iff_exists.mp hi
    obtain ⟨n, hn⟩ := Option.isSome_iff_exists.mp hj
    have hk := ((h.marks i m).mp hm).1.symm.trans ((h.marks j n).mp hn).1
    simpa using hk
  · intro k hk
    obtain ⟨context, id⟩ := k
    obtain rfl : context = c := h.context _ hk
    exact ⟨rfl, by rw [(h.marks id _).mpr ⟨hk, rfl⟩]; rfl⟩

theorem act_shows {pre post : WString} {e : PreeditEditor WChar}
    (h : t.Shows c (pre ++ e.acc) e.live post) (hcomposing : t.pComposition.isSome = !e.live.isEmpty)
    (a : PreeditEditor.Action WChar) :
    ∃ t', act c t a = some t' ∧ t'.Shows c (pre ++ (e.perform a).acc) (e.perform a).live post ∧
      t'.pComposition.isSome = !(e.perform a).live.isEmpty := by
  have hlive : t.pComposition = none → e.live = [] := by
    intro hnone
    simpa [hnone] using hcomposing
  cases a with
  | session committed composition =>
    obtain ⟨t', ht, hshows⟩ := doEditSession_shows h hlive committed composition
    rw [List.append_assoc] at hshows
    exact ⟨t', ht, hshows, doEditSession_composing ht⟩
  | terminated =>
    have hshows := h.terminate
    rw [List.append_assoc] at hshows
    exact ⟨_, rfl, hshows, by simp [PreeditEditor.perform]⟩

theorem acts_shows {pre post : WString} {e : PreeditEditor WChar}
    (h : t.Shows c (pre ++ e.acc) e.live post) (hcomposing : t.pComposition.isSome = !e.live.isEmpty)
    (actions : List (PreeditEditor.Action WChar)) :
    ∃ t', actions.foldlM (act c) t = some t' ∧
      Displays c pre post (actions.foldl PreeditEditor.perform e) t' := by
  induction actions generalizing e t with
  | nil => exact ⟨t, rfl, displays_of_shows h hcomposing⟩
  | cons a actions ih =>
    obtain ⟨t', ht, hshows, hcomposing'⟩ := act_shows h hcomposing a
    obtain ⟨t'', ht', hdisplays⟩ := ih hshows hcomposing'
    exact ⟨t'', by rw [List.foldlM_cons, ht]; exact ht', hdisplays⟩

theorem edit_sessions_implement_editor {pre post : WString}
    (htext : (t.contexts c).text = pre ++ post) (hcaret : (t.contexts c).selection = .caret pre.length)
    (hmarks : ∀ i, (t.contexts c).marks i = none) (hnone : t.pComposition = none)
    (actions : List (PreeditEditor.Action WChar)) :
    ∃ t', actions.foldlM (act c) t = some t' ∧
      Displays c pre post (actions.foldl PreeditEditor.perform {}) t' := by
  refine acts_shows ⟨⟨?_, ?_, ?_⟩, ?_⟩ ?_ actions
  · simpa using htext
  · simp [hmarks, hnone]
  · simp [hnone]
  · simpa [TextServices.liveSpan, Span.collapseEnd, Span.written, Span.caret] using hcaret
  · simp [hnone]

end Session

theorem edit_sessions_implement_editor_stroke :
    let t : TextServices :=
      { contexts := fun _ => ⟨[0x61, 0x62], .caret 1, fun _ => none, fun n => .caret n, by decide,
          fun _ m h => absurd h.symm (Option.some_ne_none m)⟩
        nextComposition := 0
        pComposition := none
        sessions := []
        writes := []
        marks_fresh := fun _ _ _ => rfl
        composition_live := fun k h => absurd h.symm (Option.some_ne_none k) }
    ∃ t', [.session [] [0x6A], .terminated, .session [0x6B] [0x6C]].foldlM (act 0) t = some t' ∧
      Displays 0 [0x61] [0x62] ⟨[0x6A, 0x6B], [0x6C]⟩ t' := by
  intro t
  exact edit_sessions_implement_editor rfl rfl (fun _ => rfl) rfl
    [.session [] [0x6A], .terminated, .session [0x6B] [0x6C]]

end CManageCompositionEditSession

end TCodeIME
