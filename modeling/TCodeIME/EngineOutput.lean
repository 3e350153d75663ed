import TCodeIME.ScriptedServer

/-!
An account of the engine's output: the text that has entered the output buffer against the text
that has been handed to edit sessions.
-/

namespace TCodeIME

variable {E : Type}

/-- The engine keeps an output buffer. A status request may append to it and reports all of it; a
commit returns all of it and leaves it empty. -/
structure KeepsOutputBuffer (srv : Server E) (outputBuffer : E → Str) : Prop where
  status : ∀ request e r, request ≠ .reset → request ≠ .commit → srv.status request e = some r →
    outputBuffer e <+: outputBuffer (srv.after request e) ∧
      r.outputBuffer = outputBuffer (srv.after request e)
  commit : ∀ e r, srv.committed e = some r →
    r.output = outputBuffer e ∧ outputBuffer (srv.after .commit e) = []

/-- Only `Put` and `Return` drain the buffer whose contents they insert, and a text is inserted as
a whole only if it has no `U+0000` in it. -/
def Keystroke.delivers (r : BufferStatusResponse) : Keystroke → Prop
  | .put _ => '\x00' ∉ r.outputBuffer
  | .select => r.commandSucceed = true → '\x00' ∉ r.outputBuffer
  | .back => r.getOutputBuffer = []
  | .convert => r.getOutputBuffer = []
  | .inflect _ => r.getOutputBuffer = [] ∧ r.isLastKeyEmpty = true
  | _ => True

instance (r : BufferStatusResponse) (k : Keystroke) : Decidable (k.delivers r) :=
  match k with
  | .put _ => inferInstanceAs (Decidable (_ ∉ _))
  | .select => inferInstanceAs (Decidable (_ → _))
  | .back | .convert => inferInstanceAs (Decidable (_ = _))
  | .inflect _ => inferInstanceAs (Decidable (_ ∧ _))
  | .passed | .toTcode | .toDirect | .nextCandidate | .move _ | .idle => isTrue trivial

theorem keepsOutputBuffer_scripted {script : List Answer} {outputBuffer : ℕ → Str}
    (hstatus : ∀ n < script.length, ∀ r ∈ Server.statusAt script n,
      outputBuffer n <+: outputBuffer (n + 1) ∧ r.outputBuffer = outputBuffer (n + 1))
    (hcommit : ∀ n < script.length, ∀ c ∈ Server.committedAt script n,
      c.output = outputBuffer n ∧ outputBuffer (n + 1) = []) :
    KeepsOutputBuffer (.scripted script) outputBuffer where
  status request n r _ _ h := by
    rw [Server.scripted_status] at h
    exact hstatus n (Server.lt_length_of_statusAt h) r h
  commit n c h := by
    rw [Server.scripted_committed] at h
    exact hcommit n (Server.lt_length_of_committedAt h) c h

namespace CTCodeIME

def appendedOutput (srv : Server E) (outputBuffer : E → Str) (s : CTCodeIME E) : Event → Str
  | .keyDown o _ wParam keys =>
    ((s.keystroke o.compartment wParam keys).request s.selectedIndex).elim [] fun request =>
      (outputBuffer (srv.after request s.client.engine)).drop (outputBuffer s.client.engine).length
  | _ => []

def committedSince (s s' : CTCodeIME E) : WString :=
  (s.sessionsSince s').flatMap SessionRequest.committed

end CTCodeIME

/-- A state with all the text that has entered the engine's output buffer and all the text that
has been handed over as committed. -/
structure OutputLedger (E : Type) where
  ime : CTCodeIME E
  appended : Str
  delivered : WString

namespace OutputLedger

def start (outputBuffer : E → Str) (s : CTCodeIME E) : OutputLedger E :=
  ⟨s, outputBuffer s.client.engine, []⟩

def step (srv : Server E) (outputBuffer : E → Str) (l : OutputLedger E) (e : Event) : OutputLedger E where
  ime := l.ime.step srv e
  appended := l.appended ++ l.ime.appendedOutput srv outputBuffer e
  delivered := l.delivered ++ l.ime.committedSince (l.ime.step srv e)

def balanced (outputBuffer : E → Str) (l : OutputLedger E) : Prop :=
  l.delivered ++ Utf16.encode (outputBuffer l.ime.client.engine) = Utf16.encode l.appended

def succeeds (srv : Server E) (l : OutputLedger E) : Event → Prop
  | .keyDown o pic wParam keys =>
    let k := l.ime.keystroke o.compartment wParam keys
    k ≠ .toDirect ∧ (∀ x ∈ l.ime.exchanges srv k, x.answer.isSome) ∧
      (l.ime.onKeyDown srv o pic wParam keys).exit = .returned
  | _ => True

def delivers (srv : Server E) (l : OutputLedger E) : Event → Prop
  | .keyDown o _ wParam keys =>
    let k := l.ime.keystroke o.compartment wParam keys
    k.delivers (l.ime.response srv k)
  | _ => True

instance (outputBuffer : E → Str) (l : OutputLedger E) : Decidable (l.balanced outputBuffer) :=
  inferInstanceAs (Decidable (_ = _))

instance (srv : Server E) (l : OutputLedger E) (e : Event) : Decidable (l.succeeds srv e) :=
  match e with
  | .keyDown _ _ _ _ => inferInstanceAs (Decidable (_ ∧ _ ∧ _))
  | .click _ | .change _ _ | .terminated | .activate _ | .deactivate _ | .edited _ _ _ | .selected _ _ =>
    isTrue trivial

instance (srv : Server E) (l : OutputLedger E) (e : Event) : Decidable (l.delivers srv e) :=
  match e with
  | .keyDown _ _ _ _ => inferInstanceAs (Decidable (Keystroke.delivers _ _))
  | .click _ | .change _ _ | .terminated | .activate _ | .deactivate _ | .edited _ _ _ | .selected _ _ =>
    isTrue trivial

theorem committedSince_onKeyDown {srv : Server E} {o : KeyOutcomes} {pic : ContextId} {wParam : ℕ}
    {keys : Modifiers} {s : CTCodeIME E} (h : (s.onKeyDown srv o pic wParam keys).exit = .returned) :
    s.committedSince (s.onKeyDown srv o pic wParam keys).ime =
      (s.requestedSession srv o.pastEnd (s.keystroke o.compartment wParam keys)).elim [] Prod.fst := by
  rw [CTCodeIME.committedSince, CTCodeIME.sessionsSince_onKeyDown srv o pic wParam keys s h]
  cases s.requestedSession srv o.pastEnd (s.keystroke o.compartment wParam keys) with
  | none => rfl
  | some x => simp

theorem balanced_step_iff {srv : Server E} {outputBuffer : E → Str} {l : OutputLedger E}
    (hl : l.balanced outputBuffer) (e : Event) :
    (l.step srv outputBuffer e).balanced outputBuffer ↔
      l.ime.committedSince (l.ime.step srv e) ++
          Utf16.encode (outputBuffer (l.ime.step srv e).client.engine) =
        Utf16.encode (outputBuffer l.ime.client.engine ++ l.ime.appendedOutput srv outputBuffer e) := by
  unfold balanced at hl ⊢
  simp only [step, Utf16.encode_append, List.append_assoc]
  rw [← hl, List.append_assoc, List.append_cancel_left_eq]

theorem handover_request {srv : Server E} {outputBuffer : E → Str}
    (hsrv : KeepsOutputBuffer srv outputBuffer) {s : CTCodeIME E} {k : Keystroke} {request : Request}
    (hk : k.request s.selectedIndex = some request) (hreset : request ≠ .reset)
    (hcommit : request ≠ .commit) (h : ∀ x ∈ s.exchanges srv k, x.answer.isSome) :
    let r := s.response srv k
    outputBuffer s.client.engine ++ (outputBuffer (srv.after request s.client.engine)).drop
        (outputBuffer s.client.engine).length = r.outputBuffer ∧
      ((k.drains r = false ∧ s.drainedText srv k = [] ∧
          outputBuffer (s.requested srv k).engine = r.outputBuffer) ∨
        (k.drains r = true ∧ s.drainedText srv k = r.outputBuffer ∧
          outputBuffer (s.requested srv k).engine = [])) := by
  obtain ⟨r, hr, hdrain⟩ := CTCodeIME.requested_of_answered hk h
  obtain ⟨⟨a, ha⟩, hout⟩ := hsrv.status request _ r hreset hcommit hr
  rw [CTCodeIME.response_of_request hk hr]
  refine ⟨by rw [← ha, List.drop_left, ha, hout], ?_⟩
  rcases hdrain with ⟨hd, htext, he⟩ | ⟨hd, c, hc, htext, he⟩
  · exact .inl ⟨hd, htext, by rw [he, hout]⟩
  · have hcommitted := hsrv.commit _ c hc
    exact .inr ⟨hd, by rw [htext, hcommitted.1, hout], by rw [he, hcommitted.2]⟩

theorem handover_iff {k : Keystroke} {r : BufferStatusResponse} {text pending : Str} (pastEnd : WChar)
    (composing : Bool) (hk : (k.request 0).isSome)
    (h : (k.drains r = false ∧ text = [] ∧ pending = r.outputBuffer) ∨
      (k.drains r = true ∧ text = r.outputBuffer ∧ pending = [])) :
    ((k.session pastEnd composing r (utf8ToWide text)).elim [] Prod.fst ++ Utf16.encode pending =
      Utf16.encode r.outputBuffer) ↔ k.delivers r := by
  have left (w : WString) :
      w ++ Utf16.encode r.outputBuffer = Utf16.encode r.outputBuffer ↔ w = [] := by simp
  cases k with
  | put ch =>
    simp only [Keystroke.session, Option.elim, Keystroke.delivers]
    rcases h with ⟨hd, rfl, rfl⟩ | ⟨hd, rfl, rfl⟩
    · have hempty : r.outputBuffer = [] := by
        simpa [Keystroke.drains, BufferStatusResponse.isOutputBufferEmpty] using hd
      simp [hempty]
    · rw [Utf16.encode_nil, List.append_nil, utf8ToWide_eq_encode]
  | select =>
    simp only [Keystroke.session, Keystroke.delivers]
    rcases h with ⟨hd, rfl, rfl⟩ | ⟨hd, rfl, rfl⟩
    · have hflag : r.commandSucceed = false := hd
      simp [hflag]
    · have hflag : r.commandSucceed = true := hd
      rw [if_pos hflag, Option.elim, Utf16.encode_nil, List.append_nil, utf8ToWide_eq_encode]
      simp [hflag]
  | back =>
    rcases h with ⟨-, -, rfl⟩ | ⟨hd, -⟩
    · exact left _
    · cases hd
  | convert =>
    rcases h with ⟨-, -, rfl⟩ | ⟨hd, -⟩
    · exact left _
    · cases hd
  | inflect command =>
    rcases h with ⟨-, -, rfl⟩ | ⟨hd, -⟩
    · simp only [Keystroke.session, Option.elim, Keystroke.delivers]
      rw [left, List.append_eq_nil_iff, BufferStatusResponse.getLastKey_eq_nil]
    · cases hd
  | toDirect =>
    rcases h with ⟨-, -, rfl⟩ | ⟨hd, -⟩
    · cases composing <;> simp [Keystroke.session, Keystroke.delivers]
    · cases hd
  | _ => cases hk

theorem balanced_keyDown_iff {srv : Server E} {outputBuffer : E → Str}
    (hsrv : KeepsOutputBuffer srv outputBuffer) {l : OutputLedger E} (hl : l.balanced outputBuffer)
    {o : KeyOutcomes} {pic : ContextId} {wParam : ℕ} {keys : Modifiers}
    (hs : l.succeeds srv (.keyDown o pic wParam keys)) :
    (l.step srv outputBuffer (.keyDown o pic wParam keys)).balanced outputBuffer ↔
      l.delivers srv (.keyDown o pic wParam keys) := by
  obtain ⟨hdirect, hanswered, hexit⟩ := hs
  rw [balanced_step_iff hl, CTCodeIME.step, committedSince_onKeyDown hexit, CTCodeIME.onKeyDown_engine]
  simp only [CTCodeIME.appendedOutput, CTCodeIME.requestedSession, delivers]
  generalize l.ime.keystroke o.compartment wParam keys = k at hdirect hanswered ⊢
  cases hk : k.request l.ime.selectedIndex with
  | none =>
    have hsession (r : BufferStatusResponse) (w : WString) :
        k.session o.pastEnd l.ime.text.pComposition.isSome r w = none ∧ k.delivers r := by
      cases k <;> first | exact ⟨rfl, trivial⟩ | cases hk
    rw [(hsession _ _).1]
    refine iff_of_true ?_ (hsession _ []).2
    simp [CTCodeIME.requested, hk]
  | some request =>
    have hrequest : request ≠ .reset ∧ request ≠ .commit := by
      cases k with
      | toDirect => exact absurd rfl hdirect
      | inflect command => cases hk; cases command <;> simp [EngineCommand.request]
      | back | put ch | convert | select => cases hk; simp
      | _ => cases hk
    obtain ⟨hbuffer, hdrain⟩ := handover_request hsrv hk hrequest.1 hrequest.2 hanswered
    simp only [Option.elim] at hbuffer ⊢
    rw [hbuffer]
    refine handover_iff o.pastEnd l.ime.text.pComposition.isSome ?_ hdrain
    cases k <;> first | rfl | cases hk

theorem output_delivered_once_iff (srv : Server E) (outputBuffer : E → Str)
    (hsrv : KeepsOutputBuffer srv outputBuffer) (s : CTCodeIME E) (es : List Event)
    (hsucceeds : Runs.Along (step srv outputBuffer) (succeeds srv) (start outputBuffer s) es) :
    Runs.Throughout (step srv outputBuffer) (balanced outputBuffer) (start outputBuffer s) es ↔
      Runs.Along (step srv outputBuffer) (delivers srv) (start outputBuffer s) es := by
  have hstep (l : OutputLedger E) (e : Event) (hl : l.balanced outputBuffer)
      (hs : l.succeeds srv e) :
      (l.step srv outputBuffer e).balanced outputBuffer ↔ l.delivers srv e := by
    cases e with
    | keyDown o pic wParam keys => exact balanced_keyDown_iff hsrv hl hs
    | _ =>
      rw [balanced_step_iff hl]
      refine iff_of_true ?_ trivial
      rw [CTCodeIME.committedSince, CTCodeIME.sessionsSince, CTCodeIME.step_sessions rfl,
        CTCodeIME.step_client rfl]
      simp [CTCodeIME.appendedOutput]
  exact Runs.throughout_iff_along (fun l hl => hl) hstep
    (fun l e hl hs hdelivers => (hstep l e hl hs).mpr hdelivers) (by simp [balanced, start]) hsucceeds

theorem output_delivered_by_put :
    let script : List Answer :=
      [.status ⟨[], [], [], "Some(j)".toList, true⟩, .status ⟨"の".toList, [], [], "None".toList, true⟩,
        .commit ⟨"の".toList⟩]
    let outputBuffer : ℕ → Str := fun n => if n = 2 then "の".toList else []
    let srv := Server.scripted script
    let s := Runs.run (CTCodeIME.step srv) CTCodeIME.fresh [.activate {}, .ctrlSlash]
    Runs.Throughout (step srv outputBuffer) (balanced outputBuffer) (start outputBuffer s)
      [.key 0x4A, .key 0x46] :=
  (output_delivered_once_iff _ _ (keepsOutputBuffer_scripted (by decide +kernel) (by decide +kernel)) _ _
    (by decide +kernel)).mpr (by decide +kernel)

/-- A conversion whose result is inserted at once and again with the next stroke. -/
theorem output_delivered_twice :
    let script : List Answer :=
      [.status ⟨[], "か".toList, [], "None".toList, true⟩,
        .status ⟨"化".toList, [], [], "None".toList, true⟩,
        .status ⟨"化".toList, [], [], "Some(f)".toList, true⟩,
        .commit ⟨"化".toList⟩]
    let outputBuffer : ℕ → Str := fun n => if n = 2 ∨ n = 3 then "化".toList else []
    let srv := Server.scripted script
    let s := Runs.run (CTCodeIME.step srv) CTCodeIME.fresh [.activate {}, .ctrlSlash]
    let es := [.key 0x4A, .key VK_SPACE, .key 0x46]
    KeepsOutputBuffer srv outputBuffer ∧
      Runs.Along (step srv outputBuffer) (succeeds srv) (start outputBuffer s) es ∧
      ¬ (Runs.run (step srv outputBuffer) (start outputBuffer s) es).balanced outputBuffer := by
  refine ⟨keepsOutputBuffer_scripted (by decide +kernel) (by decide +kernel), ?_, ?_⟩
  · decide +kernel
  · decide +kernel

end OutputLedger

end TCodeIME
