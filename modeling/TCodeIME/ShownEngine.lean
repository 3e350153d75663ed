import TCodeIME.CachedStatus
import TCodeIME.DeliveredText
import TCodeIME.LastKeyReads

/-!
What a document shows of the engine behind it: all output that has left the engine, and behind it what is
pending in the engine now.
-/

namespace TCodeIME

open Runs

variable {E : Type}

/-- The replies report a state with an output buffer, an input that a commit leaves alone, and a pending key
that can be read off its report. -/
structure Server.HoldsState (srv : Server E) (report : E → BufferStatusResponse) : Prop where
  reports : srv.Reports report
  output : KeepsOutputBuffer srv fun e => (report e).outputBuffer
  commit : ∀ e c, srv.committed e = some c → (report (srv.after .commit e)).SameInput (report e)
  key : ∀ e, (report e).lastKeyInBounds

theorem Server.holdsState_scripted {script : List Answer} {report : ℕ → BufferStatusResponse}
    (hstatus : ∀ n < script.length, ∀ r ∈ Server.statusAt script n,
      r.content = (report (n + 1)).content ∧ (report n).outputBuffer <+: (report (n + 1)).outputBuffer)
    (hcommit : ∀ n < script.length, ∀ c ∈ Server.committedAt script n,
      c.output = (report n).outputBuffer ∧ report (n + 1) = { report n with outputBuffer := [] })
    (hkey : ∀ n, (report n).lastKeyInBounds) : (Server.scripted script).HoldsState report where
  reports := by
    constructor
    · intro request n r h
      rw [Server.scripted_status] at h
      exact (hstatus n (Server.lt_length_of_statusAt h) r h).1
    · intro n c h
      rw [Server.scripted_committed] at h
      have hreport := (hcommit n (Server.lt_length_of_committedAt h) c h).2
      change (report (n + 1)).outputBuffer = []
      rw [hreport]
  output := by
    apply keepsOutputBuffer_scripted
    · intro n hn r h
      obtain ⟨hcontent, hbegins⟩ := hstatus n hn r h
      have houtput : r.content.outputBuffer = (report (n + 1)).content.outputBuffer :=
        congrArg BufferStatusResponse.outputBuffer hcontent
      exact ⟨hbegins, houtput⟩
    · intro n hn c h
      obtain ⟨houtput, hreport⟩ := hcommit n hn c h
      exact ⟨houtput, by rw [hreport]⟩
  commit := by
    intro n c h
    rw [Server.scripted_committed] at h
    have hreport := (hcommit n (Server.lt_length_of_committedAt h) c h).2
    change (report (n + 1)).SameInput (report n)
    rw [hreport]
    exact ⟨rfl, rfl, fun _ => rfl, rfl, rfl⟩
  key := hkey

def BufferStatusResponse.shown (r : BufferStatusResponse) : WString := r.preedit 0

theorem BufferStatusResponse.SameInput.shown_eq {r r' : BufferStatusResponse} (h : r.SameInput r') :
    r.shown = r'.shown := by
  rw [shown, preedit, h.getBuffer, h.getLastKey]
  rfl

instance (r : BufferStatusResponse) (k : Keystroke) : Decidable (k.mirrors r) :=
  match k with
  | .inflect _ => inferInstanceAs (Decidable (_ = true))
  | .select => inferInstanceAs (Decidable (_ → _))
  | .passed | .toTcode | .toDirect | .back | .put _ | .nextCandidate | .convert | .move _ | .idle =>
    isTrue trivial

namespace OutputLedger

variable {srv : Server E} {report : E → BufferStatusResponse} {l : OutputLedger E} {c : ContextId}
  {before after : WString}

def outputOf (report : E → BufferStatusResponse) (e : E) : Str := (report e).outputBuffer

def showsEngine (report : E → BufferStatusResponse) (c : ContextId) (before after : WString)
    (l : OutputLedger E) : Prop :=
  ∃ output, l.appended = output ++ outputOf report l.ime.client.engine ∧
    (l.ime.text.contexts c).text =
      before ++ Utf16.encode output ++ (report l.ime.client.engine).shown ++ after

def followsEngine (srv : Server E) (report : E → BufferStatusResponse) (l : OutputLedger E) : Event → Prop
  | .keyDown o _ wParam keys =>
    let k := l.ime.keystroke o.compartment wParam keys
    let r := l.ime.response srv k
    k.mirrors r ∧ (k = .select → r.commandSucceed = false → r.shown = (report l.ime.client.engine).shown)
  | _ => True

instance (srv : Server E) (report : E → BufferStatusResponse) (l : OutputLedger E) (e : Event) :
    Decidable (l.followsEngine srv report e) :=
  match e with
  | .keyDown _ _ _ _ => inferInstanceAs (Decidable (_ ∧ (_ → _)))
  | .click _ | .change _ _ | .terminated | .activate _ | .deactivate _ | .edited _ _ _ | .selected _ _ =>
    isTrue trivial

theorem showsEngine_iff (hl : l.Stands (outputOf report) c before after) :
    l.showsEngine report c before after ↔ l.ime.text.preedit = (report l.ime.client.engine).shown := by
  obtain ⟨output, happended, htext⟩ := hl.text
  constructor
  · rintro ⟨output', happended', htext'⟩
    obtain rfl : output = output' := List.append_cancel_right (happended.symm.trans happended')
    rw [htext, List.append_left_inj, List.append_right_inj] at htext'
    exact htext'
  · intro h
    exact ⟨output, happended, by rw [htext, h]⟩

section KeyDown

variable {s : CTCodeIME E} {k : Keystroke}

theorem report_requested (hsrv : srv.HoldsState report) {request : Request}
    (hk : k.request s.selectedIndex = some request) (h : ∀ x ∈ s.exchanges srv k, x.answer.isSome) :
    (report (s.requested srv k).engine).shown = (s.response srv k).shown ∧
      (s.response srv k).lastKeyInBounds := by
  obtain ⟨r, hr, hdrain⟩ := CTCodeIME.requested_of_answered hk h
  have hcontent := hsrv.reports.status _ _ r hr
  have hasked : r.shown = (report (srv.after request s.client.engine)).shown :=
    (BufferStatusResponse.describes_of_content hcontent).shown_eq
  have hkey : r.content.lastCharAsKey = (report (srv.after request s.client.engine)).content.lastCharAsKey :=
    congrArg BufferStatusResponse.lastCharAsKey hcontent
  change r.lastCharAsKey = (report (srv.after request s.client.engine)).lastCharAsKey at hkey
  rw [CTCodeIME.response_of_request hk hr]
  refine ⟨?_, ?_⟩
  · rcases hdrain with ⟨-, -, he⟩ | ⟨-, c, hc, -, he⟩
    · rw [he, hasked]
    · rw [he, (hsrv.commit _ c hc).shown_eq, hasked]
  · have hbounds := hsrv.key (srv.after request s.client.engine)
    unfold BufferStatusResponse.lastKeyInBounds BufferStatusResponse.isLastKeyEmpty at hbounds ⊢
    rwa [hkey]

theorem session_shown_iff (pastEnd : WChar) (composing : Bool) {r : BufferStatusResponse} (drained : WString)
    (hk : (k.request 0).isSome) (hdirect : k ≠ .toDirect) (hbounds : r.lastKeyInBounds) (shown : WString) :
    (k.session pastEnd composing r drained).elim shown Prod.snd = r.shown ↔
      k.mirrors r ∧ (k = .select → r.commandSucceed = false → r.shown = shown) := by
  have hpreedit : r.preedit pastEnd = r.shown := BufferStatusResponse.preedit_pastEnd hbounds pastEnd 0
  have hother (hne : k ≠ .select) :
      k.mirrors r ∧ (k = .select → r.commandSucceed = false → r.shown = shown) ↔ k.mirrors r :=
    and_iff_left fun h => absurd h hne
  cases k with
  | put ch => exact (iff_of_true hpreedit trivial).trans (hother (by simp)).symm
  | back => exact (iff_of_true hpreedit trivial).trans (hother (by simp)).symm
  | convert => exact (iff_of_true hpreedit trivial).trans (hother (by simp)).symm
  | inflect command =>
    have hmirrors : r.getBuffer = r.shown ↔ r.isLastKeyEmpty = true := by
      rw [BufferStatusResponse.shown, BufferStatusResponse.preedit, List.self_eq_append_right,
        BufferStatusResponse.getLastKey_eq_nil]
    exact hmirrors.trans (hother (by simp)).symm
  | select =>
    cases hflag : r.commandSucceed with
    | true =>
      simp only [Keystroke.session, hflag, if_true, Option.elim, Keystroke.mirrors, true_implies]
      rw [eq_comm, BufferStatusResponse.shown, BufferStatusResponse.preedit_eq_nil]
      simp
    | false =>
      have hkept : (Keystroke.select.session pastEnd composing r drained).elim shown Prod.snd = shown := by
        rw [Keystroke.session, hflag]
        rfl
      rw [hkept, Keystroke.mirrors, hflag]
      have hfalse : ¬((false : Bool) = true) := Bool.false_ne_true
      exact eq_comm.trans ⟨fun h => ⟨fun hf => absurd hf hfalse, fun _ _ => h⟩, fun h => h.2 rfl rfl⟩
  | toDirect => exact absurd rfl hdirect
  | _ => cases hk

end KeyDown

theorem preedit_keyDown_iff (hsrv : srv.HoldsState report)
    (hshown : l.ime.text.preedit = (report l.ime.client.engine).shown) {o : KeyOutcomes} {wParam : ℕ}
    {keys : Modifiers} (hs : l.succeeds srv (.keyDown o c wParam keys)) (ho : o.session = {}) :
    (l.ime.onKeyDown srv o c wParam keys).ime.text.preedit =
        (report (l.ime.onKeyDown srv o c wParam keys).ime.client.engine).shown ↔
      l.followsEngine srv report (.keyDown o c wParam keys) := by
  obtain ⟨hdirect, hanswered, hexit⟩ := hs
  have hpreedit : (l.ime.onKeyDown srv o c wParam keys).ime.text.preedit =
      (l.ime.requestedSession srv o.pastEnd (l.ime.keystroke o.compartment wParam keys)).elim
        l.ime.text.preedit Prod.snd := by
    cases hx : l.ime.requestedSession srv o.pastEnd (l.ime.keystroke o.compartment wParam keys) with
    | none =>
      have htext := (CTCodeIME.onKeyDown_returned srv o c wParam keys l.ime hexit).2.1
      rw [hx] at htext
      rw [← Option.some.inj htext]
      rfl
    | some x => exact CTCodeIME.preedit_onKeyDown hexit ho hx
  rw [hpreedit, CTCodeIME.onKeyDown_engine]
  simp only [followsEngine]
  generalize l.ime.keystroke o.compartment wParam keys = k at hdirect hanswered ⊢
  cases hk : k.request l.ime.selectedIndex with
  | none =>
    have hquiet (r : BufferStatusResponse) (w : WString) :
        k.session o.pastEnd l.ime.text.pComposition.isSome r w = none ∧ k.mirrors r ∧ k ≠ .select := by
      cases k <;> first | exact ⟨rfl, trivial, by simp⟩ | cases hk
    obtain ⟨hsession, hmirrors, hselect⟩ := hquiet (l.ime.response srv k) (utf8ToWide (l.ime.drainedText srv k))
    have hengine : (l.ime.requested srv k).engine = l.ime.client.engine := by
      rw [CTCodeIME.requested, hk]
      rfl
    rw [CTCodeIME.requestedSession, hsession, hengine]
    exact iff_of_true hshown ⟨hmirrors, fun h => absurd h hselect⟩
  | some request =>
    obtain ⟨hreport, hbounds⟩ := report_requested hsrv hk hanswered
    have hsome : (k.request 0).isSome := by
      cases k <;> first | rfl | cases hk
    rw [hreport, hshown]
    exact session_shown_iff o.pastEnd _ _ hsome hdirect hbounds _

theorem step_contexts {e : Event} (hkey : e.isKeyDown = false) (ht : l.typedInto c e) :
    (l.ime.step srv e).text.contexts c = l.ime.text.contexts c := by
  cases e with
  | keyDown o pic wParam keys => cases hkey
  | terminated => exact ht.elim
  | edited d r text => exact Function.update_of_ne (Ne.symm ht) _ _
  | selected d r => exact Function.update_of_ne (Ne.symm ht) _ _
  | _ => rw [CTCodeIME.step_text rfl]

theorem showsEngine_quiet_iff {e : Event} (hkey : e.isKeyDown = false) (ht : l.typedInto c e) :
    (l.step srv (outputOf report) e).showsEngine report c before after ↔
      l.showsEngine report c before after := by
  have happended : l.ime.appendedOutput srv (outputOf report) e = [] := by
    cases e with
    | keyDown o pic wParam keys => cases hkey
    | _ => rfl
  simp only [showsEngine, step, happended, List.append_nil, step_contexts hkey ht, CTCodeIME.step_client hkey]

theorem showsEngine_step_iff (hsrv : srv.HoldsState report) {e : Event}
    (hl : l.Stands (outputOf report) c before after) (hshows : l.showsEngine report c before after)
    (hs : l.succeeds srv e) (hd : l.delivers srv e) (ht : l.typedInto c e) :
    (l.step srv (outputOf report) e).showsEngine report c before after ↔ l.followsEngine srv report e := by
  cases e with
  | keyDown o pic wParam keys =>
    obtain ⟨rfl, ho⟩ := ht
    have hl' : (l.step srv (outputOf report) (.keyDown o pic wParam keys)).Stands (outputOf report) pic
        before after := stands_step hsrv.output hl hs hd ⟨rfl, ho⟩
    rw [showsEngine_iff hl']
    exact preedit_keyDown_iff hsrv ((showsEngine_iff hl).mp hshows) hs ho
  | _ => exact iff_of_true ((showsEngine_quiet_iff rfl ht).mpr hshows) trivial

end OutputLedger

end TCodeIME
