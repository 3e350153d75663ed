import TCodeIME.EngineOperations
import TCodeIME.Library.Interleaving
import TCodeIME.ScriptedServer

/-!
Several instances of the text service on one engine. A key press is cut between its two requests.
-/

namespace TCodeIME

variable {E : Type}

def Server.Alike (srv : Server E) (e e' : E) : Prop :=
  ∀ requests : List Request,
    let after := requests.foldl (fun e request => srv.after request e)
    (∀ request, srv.status request (after e) = srv.status request (after e')) ∧
      srv.committed (after e) = srv.committed (after e')

namespace Server.Alike

variable {srv : Server E} {e e' e'' : E}

theorem of_eq (h : e = e') : srv.Alike e e' := by
  intro requests
  rw [h]
  exact ⟨fun _ => rfl, rfl⟩

theorem trans (h : srv.Alike e e') (h' : srv.Alike e' e'') : srv.Alike e e'' := by
  intro requests
  obtain ⟨hs, hc⟩ := h requests
  obtain ⟨hs', hc'⟩ := h' requests
  exact ⟨fun request => (hs request).trans (hs' request), hc.trans hc'⟩

theorem status (h : srv.Alike e e') (request : Request) : srv.status request e = srv.status request e' :=
  (h []).1 request

theorem committed (h : srv.Alike e e') : srv.committed e = srv.committed e' := (h []).2

theorem after (h : srv.Alike e e') (request : Request) :
    srv.Alike (srv.after request e) (srv.after request e') := by
  intro requests
  exact h (request :: requests)

end Server.Alike

namespace CEngineClient

structure Twin (srv : Server E) (c c' : CEngineClient E) : Prop where
  lastResponse : c.lastResponse = c'.lastResponse
  exchanges : c.exchanges = c'.exchanges
  engine : srv.Alike c.engine c'.engine

variable {srv : Server E} {c c' : CEngineClient E}

theorem Twin.asked (h : c.Twin srv c') (request : Request) :
    (c.asked srv request).Twin srv (c'.asked srv request) := by
  have hs := h.engine.status request
  refine ⟨?_, ?_, h.engine.after request⟩
  · simp only [CEngineClient.asked, hs]
  · simp only [CEngineClient.asked, hs, h.exchanges]

theorem Twin.drained (h : c.Twin srv c') : (c.drained srv).Twin srv (c'.drained srv) := by
  have hc := h.engine.committed
  refine ⟨h.lastResponse, ?_, h.engine.after .commit⟩
  simp only [CEngineClient.drained, hc, h.exchanges]

theorem Twin.drainedText (h : c.Twin srv c') : c.drainedText srv = c'.drainedText srv := by
  simp only [CEngineClient.drainedText, h.engine.committed]

theorem Twin.withLog (h : c.Twin srv c') (log log' : List String) :
    Twin srv { c with log := log } { c' with log := log' } := ⟨h.lastResponse, h.exchanges, h.engine⟩

theorem Twin.performed (h : c.Twin srv c') {op : Operation} (hop : op ≠ .executePut []) :
    (c.performed srv op).Twin srv (c'.performed srv op) := by
  cases hstatus : op.status with
  | none =>
    cases op <;> cases hstatus
    rw [performed_commit, performed_commit]
    exact h.drained
  | some request =>
    obtain ⟨log, hc⟩ := performed_of_status srv c hop hstatus
    obtain ⟨log', hc'⟩ := performed_of_status srv c' hop hstatus
    rw [hc, hc']
    exact (h.asked request).withLog log log'

theorem Twin.thrown (h : c.Twin srv c') (op : Operation) :
    (c.perform srv op).1.isSome = (c'.perform srv op).1.isSome := by
  have hiff : (c.perform srv op).1 = none ↔ (c'.perform srv op).1 = none := by
    rw [perform_thrown, perform_thrown]
    cases op.status with
    | none => exact Iff.rfl
    | some request => rw [Option.bind_some, Option.bind_some, h.engine.status request]
  rw [Bool.eq_iff_iff, Option.isSome_iff_ne_none, Option.isSome_iff_ne_none]
  exact not_congr hiff

end CEngineClient

structure PendingKey where
  o : KeyOutcomes
  pic : ContextId
  key : Keystroke
  thrown : Bool

namespace CTCodeIME

def afterStatus (srv : Server E) (s : CTCodeIME E) (k : Keystroke) : CEngineClient E :=
  (k.operation s.selectedIndex).elim s.client (s.client.performed srv)

def statusThrown (srv : Server E) (s : CTCodeIME E) (k : Keystroke) : Bool :=
  (k.operation s.selectedIndex).any fun op => (s.client.perform srv op).1.isSome

/-- The rest of a key press: the commit if one is due, the edit session and the candidate list. -/
def proceed (srv : Server E) (p : PendingKey) (s : CTCodeIME E) : CTCodeIME E :=
  let r := s.client.lastResponse
  let drains := p.key.drains r
  let client := if drains then s.client.drained srv else s.client
  let drained := if drains then s.client.drainedText srv else []
  let entered := { s.enter p.o.compartment p.key.mode with client := client }
  let i := p.key.selectedIndex r.candidates.length s.selectedIndex
  if p.thrown then entered
  else
    match editText p.o.session p.pic
        (p.key.session p.o.pastEnd s.text.pComposition.isSome r (utf8ToWide drained)) s.text with
    | none => entered
    | some t =>
      match updateUI p.o.ui s.pThreadMgr r.candidates i s.candidateUI p.key.list with
      | none => entered
      | some u => { entered with text := t, candidateUI := u, selectedIndex := i }

section PendingKey

variable {srv : Server E} {s : CTCodeIME E} {k : Keystroke}

theorem afterStatus_eq (srv : Server E) (s : CTCodeIME E) (hk : k ≠ .put []) :
    ∃ log, s.afterStatus srv k = (k.request s.selectedIndex).elim s.client fun request =>
      { s.client.asked srv request with log := log } := by
  rw [← Keystroke.operation_status k s.selectedIndex, afterStatus]
  cases hop : k.operation s.selectedIndex with
  | none => exact ⟨[], rfl⟩
  | some op =>
    have hput := Keystroke.operation_ne_put_nil hk hop
    rw [Option.elim, Option.bind_some]
    cases hstatus : op.status with
    | none => cases k <;> cases hop <;> cases hstatus
    | some request => exact CEngineClient.performed_of_status srv s.client hput hstatus

theorem afterStatus_lastResponse (srv : Server E) (s : CTCodeIME E) (hk : k ≠ .put []) :
    (s.afterStatus srv k).lastResponse = s.response srv k := by
  obtain ⟨log, h⟩ := afterStatus_eq srv s hk
  rw [h, response]
  cases k.request s.selectedIndex <;> rfl

theorem statusThrown_iff : s.statusThrown srv k = true ↔ k.throws = true ∧ s.answer srv k = none := by
  rw [answer, ← Keystroke.operation_status, statusThrown]
  cases hop : k.operation s.selectedIndex with
  | none =>
    have hthrows : k.throws = false := by cases k <;> first | rfl | cases hop
    simp [hthrows]
  | some op =>
    have hthrown := CEngineClient.perform_thrown srv s.client op
    rw [Keystroke.operation_catches hop] at hthrown
    rw [Option.any_some, Option.bind_some, Option.isSome_iff_ne_none, Ne, hthrown]
    simp

theorem statusThrown_of_answered (h : k.throws = true → (s.answer srv k).isSome) :
    s.statusThrown srv k = false := by
  rw [← Bool.not_eq_true, statusThrown_iff]
  rintro ⟨hthrows, hnone⟩
  have hsome := h hthrows
  rw [hnone] at hsome
  cases hsome

theorem onKeyDown_client_eq (srv : Server E) (o : KeyOutcomes) (pic : ContextId) (wParam : ℕ)
    (keys : Modifiers) (s : CTCodeIME E) :
    let k := s.keystroke o.compartment wParam keys
    (s.onKeyDown srv o pic wParam keys).ime.client =
      if k.drains (s.afterStatus srv k).lastResponse then (s.afterStatus srv k).drained srv
      else s.afterStatus srv k := by
  intro k
  have heffect : (s.onKeyDown srv o pic wParam keys).ime.client = (s.effect srv o.pastEnd k).client := by
    rw [onKeyDown_eq]
    rcases realize_cases o pic _ s (effect_list srv o wParam keys s) with
      ⟨what, -, h⟩ | ⟨-, -, h⟩ | ⟨t, u, -, -, -, h⟩ <;> rw [h]
  rw [heffect, (effect_clientCalls srv o.pastEnd s k).1, clientCalls, afterStatus]
  cases hop : k.operation s.selectedIndex with
  | none =>
    have hdrains : k.drains s.client.lastResponse = false := by
      clear heffect
      cases hk : k <;> rw [hk] at hop <;> first | rfl | cases hop
    simp [hdrains]
  | some op =>
    simp only [Option.elim]
    by_cases hd : k.drains (s.client.performed srv op).lastResponse = true
    · simp [hd, CEngineClient.performed_commit]
    · simp [hd]

theorem afterStatus_drainedText (srv : Server E) (s : CTCodeIME E) (hk : k ≠ .put []) :
    (if k.drains (s.afterStatus srv k).lastResponse then (s.afterStatus srv k).drainedText srv else []) =
      s.drainedText srv k := by
  obtain ⟨log, h⟩ := afterStatus_eq srv s hk
  rw [h, drainedText]
  cases hrequest : k.request s.selectedIndex with
  | none =>
    have hdrains (r : BufferStatusResponse) : k.drains r = false := by
      cases k <;> first | rfl | cases hrequest
    simp [hdrains]
  | some request => rfl

theorem enter_client (o : CompartmentOutcomes) (mode : Option InputMode) (s : CTCodeIME E)
    (c : CEngineClient E) :
    { s with client := c }.enter o mode = { s.enter o mode with client := c } := by
  cases mode <;> rfl

theorem proceed_afterStatus (srv : Server E) (o : KeyOutcomes) (pic : ContextId) (wParam : ℕ)
    (keys : Modifiers) (s : CTCodeIME E) :
    let k := s.keystroke o.compartment wParam keys
    { s with client := s.afterStatus srv k }.proceed srv ⟨o, pic, k, s.statusThrown srv k⟩ =
      (s.onKeyDown srv o pic wParam keys).ime := by
  intro k
  have hk : k ≠ .put [] := keystroke_ne_put_nil o.compartment wParam keys s
  have hr := afterStatus_lastResponse srv s hk
  have hdrained := afterStatus_drainedText srv s hk
  have hclient : (s.onKeyDown srv o pic wParam keys).ime.client =
      if k.drains (s.afterStatus srv k).lastResponse then (s.afterStatus srv k).drained srv
      else s.afterStatus srv k := onKeyDown_client_eq srv o pic wParam keys s
  have hindex : k.selectedIndex (s.response srv k).candidates.length s.selectedIndex =
      k.selectedIndex s.client.lastResponse.candidates.length s.selectedIndex := by
    cases k <;> rfl
  unfold proceed
  dsimp only
  rw [hdrained, enter_client, hr, hindex]
  rw [hr] at hclient
  obtain ⟨log, ⟨hthrows, ha, what, h⟩ | ⟨ha, ht, h⟩ | ⟨ha, t, u, ht, hu, h⟩⟩ :=
    onKeyDown_cases srv o pic wParam keys s
  · have hthrown : s.statusThrown srv k = true := statusThrown_iff.mpr ⟨hthrows, ha⟩
    rw [h] at hclient ⊢
    rw [if_pos hthrown, ← hclient]
  · have hthrown := statusThrown_of_answered ha
    have ht' : editText o.session pic (k.session o.pastEnd s.text.pComposition.isSome (s.response srv k)
        (utf8ToWide (s.drainedText srv k))) s.text = none := ht
    rw [h] at hclient ⊢
    rw [hthrown, ht', ← hclient]
    rfl
  · have hthrown := statusThrown_of_answered ha
    have ht' : editText o.session pic (k.session o.pastEnd s.text.pComposition.isSome (s.response srv k)
        (utf8ToWide (s.drainedText srv k))) s.text = some t := ht
    rw [h] at hclient ⊢
    rw [hthrown, ht', ← hclient]
    dsimp only
    rw [hu]
    rfl

end PendingKey

structure Twin (srv : Server E) (s s' : CTCodeIME E) : Prop where
  client : s.client.Twin srv s'.client
  rest : s' = { s with client := s'.client }

section Twin

variable {srv : Server E} {s s' : CTCodeIME E}

theorem Twin.keystroke (h : s.Twin srv s') (o : CompartmentOutcomes) (wParam : ℕ) (keys : Modifiers) :
    s'.keystroke o wParam keys = s.keystroke o wParam keys := by
  rw [h.rest]
  unfold CTCodeIME.keystroke getInputMode
  rw [h.client.lastResponse]

theorem Twin.selectedIndex (h : s.Twin srv s') : s'.selectedIndex = s.selectedIndex := by
  rw [h.rest]

theorem Twin.afterStatus (h : s.Twin srv s') {k : Keystroke} (hk : k ≠ .put []) :
    Twin srv { s with client := s.afterStatus srv k } { s' with client := s'.afterStatus srv k } := by
  refine ⟨?_, by rw [h.rest]⟩
  dsimp only [CTCodeIME.afterStatus]
  rw [h.selectedIndex]
  cases hop : k.operation s.selectedIndex with
  | none => exact h.client
  | some op => exact h.client.performed (Keystroke.operation_ne_put_nil hk hop)

theorem Twin.statusThrown (h : s.Twin srv s') (k : Keystroke) :
    s'.statusThrown srv k = s.statusThrown srv k := by
  unfold CTCodeIME.statusThrown
  rw [h.selectedIndex]
  cases k.operation s.selectedIndex with
  | none => rfl
  | some op => exact (h.client.thrown op).symm

theorem Twin.proceed (h : s.Twin srv s') (p : PendingKey) :
    Twin srv (s.proceed srv p) (s'.proceed srv p) := by
  have hclient : CEngineClient.Twin srv
      (if p.key.drains s.client.lastResponse then s.client.drained srv else s.client)
      (if p.key.drains s.client.lastResponse then s'.client.drained srv else s'.client) := by
    split_ifs
    · exact h.client.drained
    · exact h.client
  rw [h.rest]
  unfold CTCodeIME.proceed
  dsimp only
  rw [enter_client p.o.compartment p.key.mode s s'.client, ← h.client.lastResponse,
    ← h.client.drainedText]
  generalize (if p.key.drains s.client.lastResponse then s.client.drained srv else s.client) = c at *
  generalize (if p.key.drains s.client.lastResponse then s'.client.drained srv else s'.client) = c' at *
  generalize (if p.key.drains s.client.lastResponse then s.client.drainedText srv else []) = text
  split
  · exact ⟨hclient, rfl⟩
  · split
    · exact ⟨hclient, rfl⟩
    · split
      · exact ⟨hclient, rfl⟩
      · exact ⟨hclient, rfl⟩

theorem Twin.step (h : s.Twin srv s') {e : Event} (he : e.isKeyDown = false) :
    (s.step srv e).Twin srv (s'.step srv e) := by
  have hclient : ((s.step srv e).client).Twin srv (s'.step srv e).client := by
    rw [step_client he, step_client he]
    exact h.client
  refine ⟨hclient, ?_⟩
  rw [step_client he, h.rest]
  cases e with
  | keyDown o pic wParam keys => cases he
  | click o =>
    simp only [CTCodeIME.step, onClick, toggleInputMode, getInputMode]
    split <;> rfl
  | change guid val => cases guid <;> rfl
  | deactivate o =>
    simp only [CTCodeIME.step, deactivate, hideCandidateList]
    split_ifs
    · cases s.candidateUI.hideCandidateList o s.pThreadMgr <;> rfl
    · rfl
  | _ => rfl

end Twin

end CTCodeIME

/-- One process with the text service. While a key is pending it does nothing else. -/
structure ImeInstance (E : Type) where
  ime : CTCodeIME E
  pending : Option PendingKey := none

namespace ImeInstance

inductive Action where
  | press (o : KeyOutcomes) (pic : ContextId) (wParam : ℕ) (keys : Modifiers)
  | proceed
  | event (e : Event)

def act (srv : Server E) (x : ImeInstance E) : Action → ImeInstance E
  | .press o pic wParam keys =>
    match x.pending with
    | some _ => x
    | none =>
      let k := x.ime.keystroke o.compartment wParam keys
      { ime := { x.ime with client := x.ime.afterStatus srv k }
        pending := some ⟨o, pic, k, x.ime.statusThrown srv k⟩ }
  | .proceed =>
    match x.pending with
    | some p => { ime := x.ime.proceed srv p }
    | none => x
  | .event e =>
    if x.pending.isSome ∨ e.isKeyDown then x else { ime := x.ime.step srv e }

def accesses (x : ImeInstance E) : Action → Bool
  | .press o _ wParam keys => x.pending.isNone &&
    ((x.ime.keystroke o.compartment wParam keys).request x.ime.selectedIndex).isSome
  | .proceed => x.pending.any fun p => p.key.drains x.ime.client.lastResponse
  | .event _ => false

def load (engine : E) (x : ImeInstance E) : ImeInstance E :=
  { x with ime := { x.ime with client := { x.ime.client with engine := engine } } }

def actor (srv : Server E) : Interleaving.Actor E (ImeInstance E) Action where
  act := act srv
  view x := x.ime.client.engine
  load := load
  accesses := accesses

def Twin (srv : Server E) (x x' : ImeInstance E) : Prop :=
  x.ime.Twin srv x'.ime ∧ x.pending = x'.pending

theorem twin_load {srv : Server E} {engine : E} {x x' : ImeInstance E}
    (halike : srv.Alike engine x.ime.client.engine) (h : x.Twin srv x') : (x.load engine).Twin srv x' := by
  obtain ⟨⟨hclient, hrest⟩, hpending⟩ := h
  refine ⟨⟨⟨hclient.lastResponse, hclient.exchanges, halike.trans hclient.engine⟩, ?_⟩, hpending⟩
  rw [hrest]
  rfl

theorem twin_act {srv : Server E} {x x' : ImeInstance E} (h : x.Twin srv x') (a : Action) :
    (x.act srv a).Twin srv (x'.act srv a) := by
  obtain ⟨hime, hpending⟩ := h
  cases a with
  | press o pic wParam keys =>
    have hk := CTCodeIME.keystroke_ne_put_nil o.compartment wParam keys x.ime
    simp only [act]
    rw [← hpending]
    cases hp : x.pending with
    | some p => exact ⟨hime, hpending⟩
    | none =>
      dsimp only
      rw [hime.keystroke, hime.statusThrown]
      exact ⟨hime.afterStatus hk, rfl⟩
  | proceed =>
    simp only [act]
    rw [← hpending]
    cases hp : x.pending with
    | some p => exact ⟨hime.proceed p, rfl⟩
    | none => exact ⟨hime, hpending⟩
  | event e =>
    simp only [act]
    rw [← hpending]
    split_ifs with hbusy
    · exact ⟨hime, hpending⟩
    · rw [not_or] at hbusy
      exact ⟨hime.step (by simpa using hbusy.2), rfl⟩

def start {ι : Type} (engine : E) (imes : ι → CTCodeIME E) : Interleaving.World ι E (ImeInstance E) where
  resource := engine
  party i := load engine { ime := imes i }

section Runs

variable {ι : Type} [DecidableEq ι]

theorem undisturbed_text (srv : Server E) (engine : E) (imes : ι → CTCodeIME E) (i : ι)
    (actions : List (ι × Action))
    (h : Runs.Along (actor srv).step ((actor srv).Undisturbed srv.Alike i) (start engine imes) actions) :
    ((Runs.run (actor srv).step (start engine imes) actions).party i).ime.text =
      ((actor srv).alone i ((start engine imes).party i) actions).ime.text := by
  have hstart : ((start engine imes).party i).Twin srv ((start engine imes).party i) :=
    ⟨⟨⟨rfl, rfl, .of_eq rfl⟩, rfl⟩, rfl⟩
  have hload : ∀ r x y, srv.Alike r ((actor srv).view x) → x.Twin srv y →
      ((actor srv).load r x).Twin srv y := fun _ _ _ => twin_load
  have hact : ∀ x y a, x.Twin srv y → ((actor srv).act x a).Twin srv ((actor srv).act y a) :=
    fun _ _ a h => twin_act h a
  have hrun := Interleaving.Actor.twin_run hload hact hstart h
  rw [hrun.1.rest]

end Runs

end ImeInstance

structure Buffers where
  input : Str := []
  output : Str := []
deriving DecidableEq

namespace Buffers

def reported (b : Buffers) : BufferStatusResponse where
  outputBuffer := b.output
  lastCharAsKey := if b.input.isEmpty then "None".toList else "Some(".toList ++ b.input ++ ")".toList
  commandSucceed := true

def receive (b : Buffers) : Request → Buffers
  | .put ch =>
    if b.input.isEmpty then { b with input := ch }
    else if b.input ++ ch = ['j', 'f'] then { output := b.output ++ ['の'] }
    else { output := b.output }
  | .reset => {}
  | .commit => { b with output := [] }
  | _ => b

def reachable : List Buffers := [{}, { input := ['j'] }, { input := ['f'] }, { output := ['の'] }]

end Buffers

def Server.twoStroke : Server Buffers where
  writeJson _ := true
  post request b :=
    let b' := b.receive request
    let body := if request = .commit then Answer.commitJson ⟨b.output⟩ else Answer.statusJson b'.reported
    (some ⟨200, body⟩, b')
  readStatus text := (Buffers.reachable.map Buffers.reported).find? fun r => Answer.statusJson r = text
  readCommit text :=
    (Buffers.reachable.map fun b => ⟨b.output⟩).find? fun r => Answer.commitJson r = text

namespace ImeInstance

def typing : CTCodeIME Buffers :=
  let srv := Server.twoStroke
  Runs.run (CTCodeIME.step srv) (CTCodeIME.construct {} (fun _ => blank) blank_marks ⟨none, none⟩)
    [.activate {}, .ctrlSlash]

def strike (wParam : ℕ) : List Action := [.press {} 0 wParam {}, .proceed]

theorem undisturbed_text_two_strokes :
    let srv := Server.twoStroke
    let actions := ((strike 0x4A ++ strike 0x46).map (Prod.mk false)) ++ (strike 0x4A).map (Prod.mk true)
    ((Runs.run (actor srv).step (start {} fun _ => typing) actions).party true).ime.text =
      ((actor srv).alone true ((start {} fun _ => typing).party true) actions).ime.text := by
  intro srv actions
  apply undisturbed_text srv {} (fun _ => typing) true actions
  refine ⟨nofun, nofun, nofun, nofun, fun _ _ => ?_, fun _ _ => ?_, trivial⟩
  · exact .of_eq (by decide +kernel)
  · exact .of_eq (by decide +kernel)

/-- The first key of a stroke comes from one application, the second from another: の goes to the
other, which alone would have got nothing but a pending key. -/
theorem stroke_shared_by_two :
    let srv := Server.twoStroke
    let actions := (strike 0x4A).map (Prod.mk false) ++ (strike 0x46).map (Prod.mk true)
    let together := Runs.run (actor srv).step (start {} fun _ => typing) actions
    let alone := (actor srv).alone true ((start {} fun _ => typing).party true) actions
    (((together.party true).ime.text.contexts 0).text = Utf16.encode "の".toList ∧
      (alone.ime.text.contexts 0).text = Utf16.encode "(f)".toList) ∧
      (together.party true).ime.text ≠ alone.ime.text := by
  intro srv actions together alone
  have h : ((together.party true).ime.text.contexts 0).text = Utf16.encode "の".toList ∧
      (alone.ime.text.contexts 0).text = Utf16.encode "(f)".toList := by
    decide +kernel
  refine ⟨h, fun heq => ?_⟩
  rw [heq, h.2] at h
  revert h
  decide

end ImeInstance

end TCodeIME
