import TCodeIME.LastKeyReads
import TCodeIME.Library.Utf16Reading
import TCodeIME.PresentedFields

/-!
Whether the documents stay well-formed UTF-16. `GetLastKey` takes one code unit out of a string, and
so may take half a character.
-/

namespace TCodeIME

namespace BufferStatusResponse

def lastKeyWhole (pastEnd : WChar) (r : BufferStatusResponse) : Prop :=
  r.isLastKeyEmpty = true ∨ ¬ Utf16.IsSurrogate (charAt pastEnd (utf8ToWide r.lastCharAsKey) 5)

instance (pastEnd : WChar) (r : BufferStatusResponse) : Decidable (r.lastKeyWhole pastEnd) :=
  inferInstanceAs (Decidable (_ ∨ _))

theorem wellFormed_getLastKey_iff (pastEnd : WChar) (r : BufferStatusResponse) :
    Utf16.WellFormed (r.getLastKey pastEnd) ↔ r.lastKeyWhole pastEnd := by
  unfold getLastKey lastKeyWhole
  split_ifs with h
  · exact iff_of_true (by decide) (.inl h)
  · have hopen : Utf16.WellFormed [UInt16.ofNat '('.toNat] := by decide
    have hclose : Utf16.WellFormed [UInt16.ofNat ')'.toNat] := by decide
    have hkey := Utf16.wellFormed_append_left_iff hopen
      (w := [charAt pastEnd (utf8ToWide r.lastCharAsKey) 5, UInt16.ofNat ')'.toNat])
    have hkey' := Utf16.wellFormed_append_right_iff hclose
      (v := [charAt pastEnd (utf8ToWide r.lastCharAsKey) 5])
    rw [← Utf16.wellFormed_singleton, or_iff_right h, ← hkey']
    exact hkey

theorem charAt_length (pastEnd : WChar) (v w : WString) (u : WChar) :
    charAt pastEnd (v ++ u :: w) v.length = u := by
  rw [charAt, dif_pos (by simp)]
  simp

theorem lastKeyWhole_of_pending (pastEnd : WChar) {r : BufferStatusResponse} {c : Char} (hc : c ≠ '\x00')
    (h : r.lastCharAsKey = "Some(".toList ++ c :: ")".toList) :
    r.lastKeyWhole pastEnd ↔ c.toNat < 0x10000 := by
  have hempty : ¬ r.isLastKeyEmpty = true := by
    rw [isLastKeyEmpty, h, beq_iff_eq]
    intro heq
    exact absurd (List.cons.inj heq).1 (by decide)
  have hcut : utf8ToWide r.lastCharAsKey =
      Utf16.encode "Some(".toList ++ (Utf16.encodeChar c ++ Utf16.encode ")".toList) := by
    rw [h, utf8ToWide, Utf16.upTo_of_notMem (by simp [Ne.symm hc]), Utf16.encode_append, Utf16.encode_cons]
  have hunit (u : WChar) (w : WString) : charAt pastEnd (Utf16.encode "Some(".toList ++ u :: w) 5 = u :=
    charAt_length pastEnd (Utf16.encode "Some(".toList) w u
  have hlt {u : WChar} : u.toNat < 0x10000 := u.toNat_lt
  rw [lastKeyWhole, or_iff_right hempty, hcut]
  rcases Utf16.encodeChar_cases c with ⟨u, he, hu, hsame⟩ | ⟨u, l, he, hu, hl, hsame⟩
  · rw [he, List.singleton_append, hunit, ← hsame]
    exact iff_of_true hu hlt
  · rw [he, List.cons_append, hunit, ← hsame]
    refine iff_of_false (not_not.mpr hu.isSurrogate) ?_
    unfold Utf16.scalarOfPair
    omega

end BufferStatusResponse

theorem wellFormed_utf8ToWide (s : Str) : Utf16.WellFormed (utf8ToWide s) := Utf16.wellFormed_encode _

variable {E : Type}

namespace CTCodeIME

theorem mem_lastKeyReads {srv : Server E} {s : CTCodeIME E} {k : Keystroke} (h : s.edits srv k = true)
    (hk : k = .back ∨ k = .convert ∨ ∃ command, k = .inflect command) (P : BufferStatusResponse → Prop) :
    (∀ r ∈ s.lastKeyReads srv k, P r) ↔ P (s.response srv k) := by
  have hanswer : (s.answer srv k).isSome = true := by
    rcases hk with rfl | rfl | ⟨command, rfl⟩ <;> exact h
  have hreads : s.lastKeyReads srv k = (s.answer srv k).toList := by
    rcases hk with rfl | rfl | ⟨command, rfl⟩ <;> rfl
  obtain ⟨r, hr⟩ := Option.isSome_iff_exists.mp hanswer
  obtain ⟨request, hrequest, hstatus⟩ := Option.bind_eq_some_iff.mp hr
  rw [hreads, hr, response_of_request hrequest hstatus]
  simp

theorem wellFormed_session_iff {srv : Server E} {s : CTCodeIME E} {k : Keystroke} {pastEnd : WChar}
    {x : WString × WString} (hx : s.requestedSession srv pastEnd k = some x) (h : s.edits srv k = true) :
    (Utf16.WellFormed (x.1 ++ x.2) ↔ ∀ r ∈ s.lastKeyReads srv k, r.lastKeyWhole pastEnd) ∧
      ((∀ r ∈ s.lastKeyReads srv k, r.lastKeyWhole pastEnd) →
        Utf16.WellFormed x.1 ∧ Utf16.WellFormed x.2) := by
  have hkey := BufferStatusResponse.wellFormed_getLastKey_iff pastEnd (s.response srv k)
  have hbuffer : Utf16.WellFormed (s.response srv k).getBuffer := wellFormed_utf8ToWide _
  have hdrained := wellFormed_utf8ToWide (s.drainedText srv k)
  have hnil : Utf16.WellFormed [] := by decide
  have behind {v : WString} (hv : Utf16.WellFormed v) :
      (Utf16.WellFormed (v ++ (s.response srv k).preedit pastEnd) ↔
          (s.response srv k).lastKeyWhole pastEnd) ∧
        ((s.response srv k).lastKeyWhole pastEnd →
          Utf16.WellFormed v ∧ Utf16.WellFormed ((s.response srv k).preedit pastEnd)) := by
    rw [Utf16.wellFormed_append_left_iff hv, BufferStatusResponse.preedit,
      Utf16.wellFormed_append_left_iff hbuffer, hkey]
    exact ⟨Iff.rfl, fun hwhole => ⟨hv, hwhole⟩⟩
  cases k with
  | put ch =>
    cases hx
    simp only [lastKeyReads, List.forall_mem_singleton]
    exact behind hdrained
  | back =>
    cases hx
    rw [mem_lastKeyReads h (.inl rfl)]
    exact behind (wellFormed_utf8ToWide _)
  | convert =>
    cases hx
    rw [mem_lastKeyReads h (.inr (.inl rfl))]
    exact behind (wellFormed_utf8ToWide _)
  | inflect command =>
    cases hx
    have hout : Utf16.WellFormed (s.response srv (.inflect command)).getOutputBuffer := wellFormed_utf8ToWide _
    rw [mem_lastKeyReads h (.inr (.inr ⟨command, rfl⟩)), Utf16.wellFormed_append_right_iff hbuffer,
      Utf16.wellFormed_append_left_iff hout, hkey]
    exact ⟨Iff.rfl, fun hwhole => ⟨hwhole, hbuffer⟩⟩
  | select =>
    simp only [requestedSession, Keystroke.session] at hx
    split_ifs at hx
    cases hx
    refine ⟨iff_of_true ?_ (by simp [lastKeyReads]), fun _ => ⟨hdrained, hnil⟩⟩
    rw [List.append_nil]
    exact hdrained
  | toDirect =>
    simp only [requestedSession, Keystroke.session] at hx
    split_ifs at hx
    cases hx
    exact ⟨iff_of_true hnil (by simp [lastKeyReads]), fun _ => ⟨hnil, hnil⟩⟩
  | _ => cases hx

theorem lastKeyReads_of_not_edits {srv : Server E} {s : CTCodeIME E} {k : Keystroke}
    (h : s.edits srv k = false) : s.lastKeyReads srv k = [] := by
  cases k with
  | put ch => cases h
  | back => simpa [edits, lastKeyReads] using h
  | convert => simpa [edits, lastKeyReads] using h
  | inflect command => simpa [edits, lastKeyReads] using h
  | _ => rfl

end CTCodeIME

namespace PresentedFields

open Utf16 (WellFormed)

theorem wellFormed_text {f : InputField WChar} (h : f.Splits WellFormed) : WellFormed f.text := by
  rw [f.text_eq]
  exact (h.before.append h.middle).append h.after

theorem wellFormed_input_iff {f : InputField WChar} (h : f.Splits WellFormed) (committed composition : WString) :
    WellFormed (f.input committed composition).text ↔ WellFormed (committed ++ composition) := by
  unfold InputField.input
  split_ifs with hsame
  · rw [hsame.2.1, hsame.2.2]
    exact iff_of_true (wellFormed_text h) (by decide)
  · simp only [InputField.write, splice]
    rw [Utf16.wellFormed_append_right_iff h.after, Utf16.wellFormed_append_left_iff h.before]

theorem splits_input {f : InputField WChar} (h : f.Splits WellFormed) {committed composition : WString}
    (hcommitted : WellFormed committed) (hcomposition : WellFormed composition) :
    (f.input committed composition).Splits WellFormed := by
  unfold InputField.input
  split_ifs
  · exact h
  · exact h.write (h.before.append hcommitted) hcomposition

def documentsWellFormed (p : PresentedFields E) : Prop := ∀ c, WellFormed (p.ime.text.contexts c).text

def charactersWhole (p : PresentedFields E) : Prop := p.presented ∧ ∀ c, (p.fields c).Splits WellFormed

/-- What the application itself does tears no character. -/
def applicationKeeps (p : PresentedFields E) : Event → Prop
  | .edited c r text => ((p.fields c).replace r text).Splits WellFormed
  | .selected c r => ((p.fields c).select r).Splits WellFormed
  | _ => True

def quotesWhole (srv : Server E) (p : PresentedFields E) : Event → Prop
  | .keyDown o _ wParam keys => o.session.request = .granted →
      ∀ r ∈ p.ime.lastKeyReads srv (p.ime.keystroke o.compartment wParam keys), r.lastKeyWhole o.pastEnd
  | _ => True

instance (p : PresentedFields E) (e : Event) : Decidable (p.applicationKeeps e) :=
  match e with
  | .edited _ _ _ | .selected _ _ => inferInstanceAs (Decidable (InputField.Splits _ _))
  | .keyDown _ _ _ _ | .click _ | .change _ _ | .terminated | .activate _ | .deactivate _ => isTrue trivial

instance (srv : Server E) (p : PresentedFields E) (e : Event) : Decidable (p.quotesWhole srv e) :=
  match e with
  | .keyDown _ _ _ _ => inferInstanceAs (Decidable (_ → _))
  | .click _ | .change _ _ | .terminated | .activate _ | .deactivate _ | .edited _ _ _ | .selected _ _ =>
    isTrue trivial

theorem documentsWellFormed_iff {p : PresentedFields E} (hp : p.presented) :
    p.documentsWellFormed ↔ ∀ c, WellFormed (p.fields c).text := by
  refine forall_congr' fun c => ?_
  rw [(hp c).text]

theorem quotesWhole_iff {srv : Server E} {p : PresentedFields E} (hp : p.charactersWhole) {o : KeyOutcomes}
    {pic : ContextId} {wParam : ℕ} {keys : Modifiers} (hs : p.succeeds srv (.keyDown o pic wParam keys)) :
    ((∀ c, WellFormed ((p.step srv (.keyDown o pic wParam keys)).fields c).text) ↔
        p.quotesWhole srv (.keyDown o pic wParam keys)) ∧
      (p.quotesWhole srv (.keyDown o pic wParam keys) →
        ∀ c, ((p.step srv (.keyDown o pic wParam keys)).fields c).Splits WellFormed) := by
  obtain ⟨session, hedits, hrequested, -, hsince⟩ := CTCodeIME.onKeyDown_editText hs.1
  simp only [step, CTCodeIME.step, hsince, quotesWhole]
  have hkept : ∀ c, WellFormed (p.fields c).text := fun c => wellFormed_text (hp.2 c)
  by_cases hgranted : o.session.request = .granted
  · simp only [hgranted, if_true, true_implies]
    cases session with
    | none =>
      rw [CTCodeIME.lastKeyReads_of_not_edits hedits.symm]
      exact ⟨iff_of_true hkept (by simp), fun _ => hp.2⟩
    | some x =>
      obtain ⟨htext, hparts⟩ := CTCodeIME.wellFormed_session_iff (hrequested x rfl) hedits.symm
      rw [← htext] at hparts ⊢
      simp only [Option.toList, List.map_cons, List.map_nil, List.foldl_cons, List.foldl_nil, receive]
      constructor
      · rw [Function.forall_update_iff p.fields fun _ f => WellFormed f.text, wellFormed_input_iff (hp.2 pic)]
        exact and_iff_left fun c _ => hkept c
      · intro h
        rw [Function.forall_update_iff p.fields fun _ f => f.Splits WellFormed]
        exact ⟨splits_input (hp.2 pic) (hparts h).1 (hparts h).2, fun c _ => hp.2 c⟩
  · simp only [if_neg hgranted]
    exact ⟨iff_of_true hkept fun h => absurd h hgranted, fun _ => hp.2⟩

theorem charactersWhole_fields (srv : Server E) {p : PresentedFields E} (hp : p.charactersWhole) {e : Event}
    (hkey : e.isKeyDown = false) (ha : p.applicationKeeps e) :
    ∀ c, ((p.step srv e).fields c).Splits WellFormed := by
  cases e with
  | keyDown o pic wParam keys => cases hkey
  | terminated =>
    intro c
    exact (hp.2 c).settle (fun _ _ hv hw => hv.append hw) (by decide)
  | edited d r text =>
    simp only [step]
    rw [Function.forall_update_iff p.fields fun _ f => f.Splits WellFormed]
    exact ⟨ha, fun c _ => hp.2 c⟩
  | selected d r =>
    simp only [step]
    rw [Function.forall_update_iff p.fields fun _ f => f.Splits WellFormed]
    exact ⟨ha, fun c _ => hp.2 c⟩
  | _ => exact hp.2

theorem documentsWellFormed_step {srv : Server E} {p : PresentedFields E} (hp : p.charactersWhole) {e : Event}
    (hs : p.succeeds srv e) (hplace : p.keepsInPlace srv e) (ha : p.applicationKeeps e) :
    ((p.step srv e).documentsWellFormed ↔ p.quotesWhole srv e) ∧
      (p.quotesWhole srv e → (p.step srv e).charactersWhole) := by
  have hpresented := (presented_step_iff hp.1 hs).mpr hplace
  rw [documentsWellFormed_iff hpresented]
  by_cases hkey : e.isKeyDown = true
  · cases e with
    | keyDown o pic wParam keys =>
      obtain ⟨htext, hparts⟩ := quotesWhole_iff hp hs
      exact ⟨htext, fun h => ⟨hpresented, hparts h⟩⟩
    | _ => cases hkey
  · have hparts := charactersWhole_fields srv hp (by simpa using hkey) ha
    have hquotes : p.quotesWhole srv e := by
      cases e with
      | keyDown o pic wParam keys => exact absurd rfl hkey
      | _ => trivial
    exact ⟨iff_of_true (fun c => wellFormed_text (hparts c)) hquotes, fun _ => ⟨hpresented, hparts⟩⟩

theorem documents_wellFormed_iff (srv : Server E) (engine : E)
    (contexts : ContextId → MarkedText WChar CompositionId) (hmarks : ∀ c i, (contexts c).marks i = none)
    (compartments : Compartments) (hwhole : ∀ c, ((start (.construct engine contexts hmarks
      compartments)).fields c).Splits WellFormed) (es : List Event)
    (hs : Runs.Along (step srv) (fun p e => p.succeeds srv e ∧ p.keepsInPlace srv e ∧ p.applicationKeeps e)
      (start (.construct engine contexts hmarks compartments)) es) :
    Runs.Throughout (step srv) documentsWellFormed
        (start (.construct engine contexts hmarks compartments)) es ↔
      Runs.Along (step srv) (quotesWhole srv)
        (start (.construct engine contexts hmarks compartments)) es :=
  Runs.throughout_iff_along (I := charactersWhole)
    (fun _ hp => (documentsWellFormed_iff hp.1).mpr fun c => wellFormed_text (hp.2 c))
    (fun _ _ hp ha => (documentsWellFormed_step hp ha.1 ha.2.1 ha.2.2).1)
    (fun _ _ hp ha => (documentsWellFormed_step hp ha.1 ha.2.1 ha.2.2).2)
    ⟨presented_start hmarks rfl, hwhole⟩ hs

theorem documents_wellFormed_stroke :
    let srv := Server.scripted [.status ⟨[], "𠮟".toList, [], "Some(j)".toList, true⟩,
      .status ⟨"の".toList, [], [], "None".toList, true⟩, .commit ⟨"の".toList⟩]
    Runs.Throughout (step srv) documentsWellFormed (start CTCodeIME.fresh)
      [.activate {}, .ctrlSlash, .edited 0 (.caret 0) [0x61], .key 0x4A, .key 0x46] := by
  have hblank : WellFormed [] := by decide
  exact (documents_wellFormed_iff _ 0 (fun _ => blank) (fun _ _ => rfl) ⟨none, none⟩
    (fun _ => ⟨hblank, hblank, hblank⟩) _ (by decide +kernel)).mpr (by decide +kernel)

end PresentedFields

end TCodeIME
