import TCodeIME.Library.InputField
import TCodeIME.EditedContexts

/-!
The contexts as text fields: what each of them shows its user against what has been put in.
-/

namespace TCodeIME

namespace TextServices

/-- The context `c` has the text of the field `f`, and no mark but that of the composition the IME knows,
which is on the preedit. -/
structure Carries (c : ContextId) (f : InputField WChar) (t : TextServices) : Prop where
  text : (t.contexts c).text = f.text
  marks : ∀ i m, (t.contexts c).marks i = some m ↔ t.pComposition = some ⟨c, i⟩ ∧ m = f.region
  composing : f.composing = true ↔ ∃ i, t.pComposition = some ⟨c, i⟩

structure Presents (c : ContextId) (f : InputField WChar) (t : TextServices) : Prop
    extends Carries c f t where
  selection : (t.contexts c).selection = f.selection

section Presents

variable {c : ContextId} {f : InputField WChar} {t t' : TextServices}

theorem Carries.congr (h : t.Carries c f) (htext : (t'.contexts c).text = (t.contexts c).text)
    (hmarks : (t'.contexts c).marks = (t.contexts c).marks)
    (hk : ∀ i, t'.pComposition = some ⟨c, i⟩ ↔ t.pComposition = some ⟨c, i⟩) : t'.Carries c f where
  text := by rw [htext, h.text]
  marks := by
    intro i m
    rw [hmarks, h.marks, hk]
  composing := by rw [h.composing, exists_congr hk]

theorem Presents.congr (h : t.Presents c f) (hc : t'.contexts c = t.contexts c)
    (hk : ∀ i, t'.pComposition = some ⟨c, i⟩ ↔ t.pComposition = some ⟨c, i⟩) : t'.Presents c f where
  toCarries := h.toCarries.congr (by rw [hc]) (by rw [hc]) hk
  selection := by rw [hc, h.selection]

theorem Carries.unmarked (h : t.Carries c f) (hf : f.composing = false) (i : CompositionId) :
    (t.contexts c).marks i = none := by
  apply Option.eq_none_iff_forall_ne_some.mpr
  intro m hm
  have hcomposing := h.composing.mpr ⟨i, ((h.marks i m).mp hm).1⟩
  rw [hf] at hcomposing
  cases hcomposing

theorem Carries.of_unmarked (htext : (t.contexts c).text = f.text) (hf : f.composing = false)
    (hmarks : ∀ i, (t.contexts c).marks i = none) (hk : ∀ i, t.pComposition ≠ some ⟨c, i⟩) :
    t.Carries c f where
  text := htext
  marks := by
    intro i m
    rw [hmarks]
    exact iff_of_false (by simp) fun h => hk i h.1
  composing := by
    rw [hf]
    exact iff_of_false (by simp) fun h => h.elim hk

theorem Presents.of_unmarked (htext : (t.contexts c).text = f.text)
    (hselection : (t.contexts c).selection = f.region) (hf : f.composing = false)
    (hmarks : ∀ i, (t.contexts c).marks i = none) (hk : ∀ i, t.pComposition ≠ some ⟨c, i⟩) :
    t.Presents c f where
  toCarries := Carries.of_unmarked htext hf hmarks hk
  selection := by rw [hselection, InputField.selection, if_neg (by simp [hf])]

theorem Carries.getRange (h : t.Carries c f) {i : CompositionId}
    (hk : t.pComposition = some ⟨c, i⟩) : t.getRange true ⟨c, i⟩ = some ⟨c, f.region⟩ := by
  have hmark := (h.marks i f.region).mpr ⟨hk, rfl⟩
  rw [TextServices.getRange, if_pos rfl, hmark]
  rfl

theorem Presents.getSelection (h : t.Presents c f) (hf : f.composing = false) :
    t.getSelection true c = some ⟨c, f.region⟩ := by
  have hselection := h.selection
  rw [InputField.selection, if_neg (by simp [hf])] at hselection
  rw [TextServices.getSelection, if_pos rfl, hselection]

theorem Carries.replace (h : t.Carries c f) (r : Span) (xs : WString)
    (htext : (t'.contexts c).text = ((t.contexts c).replace r xs).text)
    (hmarks : (t'.contexts c).marks = ((t.contexts c).replace r xs).marks)
    (hk : t'.pComposition = t.pComposition) : t'.Carries c (f.replace r xs) := by
  by_cases hr : r.stop ≤ f.text.length
  · obtain ⟨hwritten, hregion, hcomposing⟩ := InputField.replace_of_le hr xs
    have hle : r.stop ≤ (t.contexts c).text.length := by rwa [h.text]
    refine ⟨?_, ?_, ?_⟩
    · rw [htext, MarkedText.text_replace hle, hwritten, h.text]
    · intro i m
      rw [hmarks, MarkedText.marks_replace hle, Option.map_eq_some_iff, hregion, hk]
      constructor
      · rintro ⟨m', hm', rfl⟩
        obtain ⟨hk, rfl⟩ := (h.marks i m').mp hm'
        rw [if_pos (h.composing.mpr ⟨i, hk⟩)]
        exact ⟨hk, rfl⟩
      · rintro ⟨hk, rfl⟩
        rw [if_pos (h.composing.mpr ⟨i, hk⟩)]
        exact ⟨f.region, (h.marks i f.region).mpr ⟨hk, rfl⟩, rfl⟩
    · rw [hcomposing, hk]
      exact h.composing
  · have hsame : (t.contexts c).replace r xs = t.contexts c := by
      rw [MarkedText.replace, dif_neg (by rwa [h.text])]
    have hfield : f.replace r xs = f := by rw [InputField.replace, dif_neg hr]
    rw [hsame] at htext hmarks
    rw [hfield]
    exact h.congr htext hmarks fun i => by rw [hk]

theorem Presents.replace (h : t.Presents c f) (r : Span) (xs : WString)
    (hc : t'.contexts c = (t.contexts c).replace r xs) (hk : t'.pComposition = t.pComposition) :
    t'.Presents c (f.replace r xs) where
  toCarries := h.toCarries.replace r xs (by rw [hc]) (by rw [hc]) hk
  selection := by
    by_cases hr : r.stop ≤ f.text.length
    · rw [hc, MarkedText.selection_replace (by rwa [h.text]), InputField.replace_selection hr, h.selection]
    · rw [hc, MarkedText.replace, dif_neg (by rwa [h.text]), InputField.replace, dif_neg hr, h.selection]

theorem Carries.setText_eq (h : t.Carries c f) (kind : WriteKind) (xs : WString) :
    (t.setText true c kind ⟨c, f.region⟩ xs).1.contexts c = (t.contexts c).write f.region xs ∧
      (t.setText true c kind ⟨c, f.region⟩ xs).2 = ⟨c, f.region.written xs.length⟩ := by
  have hle : f.region.stop ≤ (t.contexts c).text.length := by
    rw [h.text]
    exact f.region_le
  rw [TextServices.setText, if_pos ⟨rfl, rfl, hle⟩]
  exact ⟨Function.update_self _ _ _, rfl⟩

theorem Carries.setText (h : t.Carries c f) (kind : WriteKind) (xs : WString) :
    (t.setText true c kind ⟨c, f.region⟩ xs).1.Carries c (f.replace f.region xs) := by
  have hcontext := (h.setText_eq kind xs).1
  apply h.replace
  · rw [hcontext, MarkedText.text_write]
  · rw [hcontext, MarkedText.marks_write]
  · exact setText_pComposition _ _ _ _ _ _

theorem Presents.clearText (h : t.Presents c f) (kind : WriteKind) :
    (t.setText true c kind ⟨c, f.region⟩ []).1.Presents c (f.replace f.region []) := by
  apply h.replace
  · rw [(h.setText_eq kind []).1, MarkedText.write_nil]
  · exact setText_pComposition _ _ _ _ _ _

theorem Carries.unmark (h : t.Carries c f) {i : CompositionId} (hk : t.pComposition = some ⟨c, i⟩) :
    (t.unmark ⟨c, i⟩).Carries c f.settle := by
  refine Carries.of_unmarked ?_ f.settle_composing ?_ nofun
  · rw [unmark_text, h.text, InputField.settle_text]
  · intro j
    simp only [TextServices.unmark, MarkedText.unmark, Function.update_self]
    by_cases hj : j = i
    · rw [hj, Function.update_self]
    · rw [Function.update_of_ne hj]
      apply Option.eq_none_iff_forall_ne_some.mpr
      intro m hm
      have hother := ((h.marks j m).mp hm).1
      rw [hk] at hother
      cases hother
      exact hj rfl

theorem Carries.not_composing (h : t.Carries c f) (hk : ∀ i, t.pComposition ≠ some ⟨c, i⟩) :
    f.composing = false := by
  have hnone : ¬ f.composing = true := fun hf => (h.composing.mp hf).elim hk
  simpa using hnone

theorem Carries.endComposition (h : t.Carries c f) (hown : ∀ k, t.pComposition = some k → k.context = c) :
    (t.endComposition true c).Carries c f.settle := by
  unfold TextServices.endComposition
  split
  · next hnone =>
    rw [InputField.settle_of_not_composing (h.not_composing (by simp [hnone]))]
    exact h
  · next k hk =>
    obtain ⟨context, i⟩ := k
    obtain rfl : context = c := hown _ hk
    rw [if_pos ⟨rfl, rfl⟩]
    exact h.unmark hk

theorem Presents.endComposition (h : t.Presents c f) (hown : ∀ k, t.pComposition = some k → k.context = c) :
    (t.endComposition true c).Presents c f.settle where
  toCarries := h.toCarries.endComposition hown
  selection := by rw [endComposition_selection, h.selection, InputField.settle_selection]

theorem Presents.terminate (h : t.Presents c f) : t.terminate.Presents c f.settle := by
  by_cases hown : ∀ k, t.pComposition = some k → k.context = c
  · rw [terminate_eq_endComposition hown]
    exact h.endComposition hown
  · push Not at hown
    obtain ⟨k, hk, hc⟩ := hown
    have hnot : ∀ j, t.pComposition ≠ some ⟨c, j⟩ := by
      intro j hj
      rw [hk] at hj
      cases hj
      exact hc rfl
    rw [InputField.settle_of_not_composing (h.not_composing hnot)]
    refine h.congr ?_ fun j => iff_of_false (by simp) (hnot j)
    unfold TextServices.terminate
    rw [hk]
    exact Function.update_of_ne (Ne.symm hc) _ _

theorem presents_select_iff (h : t.Presents c f) {r : Span} (hadjust : ∀ d i,
      ((MarkedText.select d r : MarkedText WChar CompositionId).marks i).isSome = (d.marks i).isSome) :
    (t.adjust c (·.select r) hadjust).Presents c (f.select r) ↔
      (f.composing = true → r.stop ≤ f.text.length → r = f.selection) := by
  have hcontext : (t.adjust c (·.select r) hadjust).contexts c = (t.contexts c).select r := by
    simp only [adjust, Function.update_self]
  by_cases hr : r.stop ≤ f.text.length
  · have hselected : ((t.contexts c).select r).selection = r :=
      MarkedText.selection_select (by rwa [h.text])
    cases hf : f.composing with
    | false =>
      have hfield : f.select r = ⟨f.text, r, f.composing, hr⟩ := by
        rw [InputField.select, dif_pos ⟨hf, hr⟩]
      refine iff_of_true ?_ (by simp)
      rw [hfield]
      refine Presents.of_unmarked ?_ ?_ hf ?_ fun i hk => ?_
      · rw [hcontext, MarkedText.text_select, h.text]
      · rw [hcontext, hselected]
      · intro i
        rw [hcontext, MarkedText.marks_select, h.unmarked hf]
      · have hcomposing := h.composing.mpr ⟨i, hk⟩
        rw [hf] at hcomposing
        cases hcomposing
    | true =>
      have hfield : f.select r = f := by rw [InputField.select, dif_neg (by simp [hf])]
      rw [hfield]
      constructor
      · intro hselect _ _
        rw [← hselect.selection, hcontext, hselected]
      · intro hcaret
        refine ⟨h.toCarries.congr ?_ ?_ fun _ => Iff.rfl, ?_⟩
        · rw [hcontext, MarkedText.text_select]
        · rw [hcontext, MarkedText.marks_select]
        · rw [hcontext, hselected]
          exact hcaret rfl hr
  · have hfield : f.select r = f := by rw [InputField.select, dif_neg (fun hr' => hr hr'.2)]
    have hsame : (t.contexts c).select r = t.contexts c := by
      rw [MarkedText.select, dif_neg (by rwa [h.text])]
    refine iff_of_true ?_ fun _ hr' => absurd hr' hr
    rw [hfield]
    exact h.congr (hcontext.trans hsame) fun _ => Iff.rfl

theorem Carries.setSelection (h : t.Carries c f) : (t.setSelection true c ⟨c, f.selection⟩).Presents c f where
  toCarries := h.congr (setSelection_text _ _ _ _ _) (setSelection_marks _ _ _ _ _)
    fun i => by rw [setSelection_pComposition]
  selection := by
    have hle : f.selection.stop ≤ (t.contexts c).text.length := by
      rw [h.text]
      exact f.selection_le
    rw [TextServices.setSelection, if_pos ⟨rfl, rfl⟩]
    simp [adjust, MarkedText.selection_select hle]

end Presents

end TextServices

namespace CManageCompositionEditSession

section Session

variable {c : ContextId} {f : InputField WChar} {t : TextServices}

theorem committedRange_presents (h : t.Presents c f)
    (hown : ∀ k, t.pComposition = some k → k.context = c) :
    committedRange {} c t = some ⟨c, f.region⟩ := by
  unfold committedRange
  split
  · next k hk =>
    obtain ⟨context, i⟩ := k
    obtain rfl : context = c := hown _ hk
    exact h.getRange hk
  · next hnone => exact h.getSelection (h.not_composing (by simp [hnone]))

theorem commitText_presents (h : t.Presents c f) (hown : ∀ k, t.pComposition = some k → k.context = c)
    {committed : WString} (hne : committed ≠ []) :
    (commitText {} c committed t).Presents c (f.write committed []) := by
  have hended := (h.setText .committed committed).endComposition (by simpa using hown)
  rw [InputField.settle_replace_region] at hended
  have hcaret : (⟨f.region.start, f.region.start + committed.length, Nat.le_add_right _ _⟩ : Span).collapseEnd =
      (f.write committed []).selection := rfl
  rw [commitText, if_neg (by simpa using hne), committedRange_presents h hown]
  dsimp only [insertCommitted]
  rw [(h.setText_eq .committed committed).2]
  exact hcaret ▸ hended.setSelection

theorem clearComposition_presents (h : t.Presents c f) (hown : ∀ k, t.pComposition = some k → k.context = c) :
    (clearComposition {} c t).Presents c (if f.composing then f.write [] [] else f) := by
  by_cases hf : f.composing = true
  · obtain ⟨i, hk⟩ := h.composing.mp hf
    rw [if_pos hf, ← InputField.settle_replace_region]
    simp only [clearComposition, hk, h.getRange hk]
    exact (h.clearText .cleared).endComposition (by simpa using hown)
  · have hnone : t.pComposition = none := by
      apply Option.eq_none_iff_forall_ne_some.mpr
      intro k hk
      obtain ⟨context, i⟩ := k
      obtain rfl : context = c := hown _ hk
      exact hf (h.composing.mpr ⟨i, hk⟩)
    rw [if_neg hf, clearComposition_of_none _ _ hnone]
    exact h

theorem insertComposition_presents (h : t.Presents c f) (hnone : t.pComposition = none)
    {composition : WString} (hne : composition ≠ []) :
    (insertComposition {} c composition (t.startComposition c)).Presents c (f.write [] composition) := by
  have hf : f.composing = false := h.not_composing (by simp [hnone])
  have hselection : (t.contexts c).selection = f.region := by
    rw [h.selection, InputField.selection, if_neg (by simp [hf])]
  have hcontext : (t.startComposition c).contexts c = (t.contexts c).mark t.nextComposition := by
    simp [TextServices.startComposition]
  have hmarks (i : CompositionId) : ((t.contexts c).mark t.nextComposition).marks i =
      if i = t.nextComposition then some f.region else none := by
    by_cases hi : i = t.nextComposition
    · rw [if_pos hi, hi, ← hselection]
      simp [MarkedText.mark]
    · rw [if_neg hi]
      simp [MarkedText.mark, Function.update_of_ne hi, h.unmarked hf]
  have hle : f.region.stop ≤ ((t.contexts c).mark t.nextComposition).text.length :=
    hselection ▸ (t.contexts c).selection_le
  have hrange : (t.startComposition c).pComposition.bind ((t.startComposition c).getRange true ·) =
      some ⟨c, f.region⟩ := by
    have hlive : (t.startComposition c).pComposition = some ⟨c, t.nextComposition⟩ := rfl
    rw [hlive, Option.bind_some, TextServices.getRange, if_pos rfl, hcontext, hmarks, if_pos rfl]
    rfl
  have hset : ((t.startComposition c).setText true c .composition ⟨c, f.region⟩ composition).1.Carries c
        (f.write [] composition) ∧
      ((t.startComposition c).setText true c .composition ⟨c, f.region⟩ composition).2 =
        ⟨c, f.region.written composition.length⟩ := by
    rw [TextServices.setText, if_pos ⟨rfl, rfl, by rw [hcontext]; exact hle⟩]
    refine ⟨⟨?_, ?_, ?_⟩, rfl⟩
    · simp only [TextServices.adjust, Function.update_self, hcontext, MarkedText.text_write,
        MarkedText.text_replace hle]
      exact congrArg (splice · f.region composition) h.text
    · intro i m
      simp only [TextServices.adjust, Function.update_self, hcontext, MarkedText.marks_write,
        MarkedText.marks_replace hle, hmarks, Option.map_eq_some_iff]
      constructor
      · rintro ⟨m', hm', rfl⟩
        split_ifs at hm' with hi
        cases hm'
        exact ⟨by rw [hi]; rfl, Span.shift_self _ _⟩
      · rintro ⟨hk, rfl⟩
        cases hk
        exact ⟨f.region, if_pos rfl, Span.shift_self _ _⟩
    · refine iff_of_true (by simpa [InputField.write] using hne) ⟨t.nextComposition, rfl⟩
  have hcaret : (f.region.written composition.length).collapseEnd = (f.write [] composition).selection := by
    rw [InputField.selection, if_pos (by simpa [InputField.write] using hne)]
    rfl
  rw [insertComposition, hrange]
  dsimp only
  rw [hset.2, hcaret]
  exact hset.1.setSelection

theorem startPreedit_presents (h : t.Presents c f) (hnone : t.pComposition = none) (composition : WString) :
    ∃ t', startPreedit {} c composition t = some t' ∧
      t'.Presents c (if composition = [] then f else f.write [] composition) := by
  rw [startPreedit_ok]
  refine ⟨_, rfl, ?_⟩
  by_cases hempty : composition = []
  · rw [if_pos hempty, if_pos (List.isEmpty_iff.mpr hempty)]
    exact h
  · rw [if_neg hempty, if_neg (by simpa using hempty)]
    exact insertComposition_presents h hnone hempty

theorem doEditSession_presents (h : t.Presents c f) (hown : ∀ k, t.pComposition = some k → k.context = c)
    (committed composition : WString) :
    ∃ t', doEditSession {} c committed composition t = some t' ∧
      t'.Presents c (f.input committed composition) := by
  have hcleared : (clearComposition {} c (commitText {} c committed t)).Presents c
      (if f.composing = false ∧ committed = [] then f else f.write committed []) := by
    by_cases hne : committed = []
    · rw [hne, commitText_nil]
      have hcleared := clearComposition_presents h hown
      cases hf : f.composing with
      | true => simpa [hf] using hcleared
      | false => simpa [hf] using hcleared
    · have hcommitted := commitText_presents h hown hne
      have hcomposition : (commitText {} c committed t).pComposition = none := by
        rw [commitText_pComposition {} c hne, if_pos rfl]
      rw [clearComposition_of_none _ _ hcomposition, if_neg (by simp [hne])]
      exact hcommitted
  obtain ⟨t', ht, hpresents⟩ := startPreedit_presents hcleared (clearComposition_pComposition _ _ _) composition
  refine ⟨t', ht, ?_⟩
  rw [InputField.input_eq]
  exact hpresents

end Session

end CManageCompositionEditSession

end TCodeIME
