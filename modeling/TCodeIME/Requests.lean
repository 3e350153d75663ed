import TCodeIME.Keystroke

/-!
What a key press asks of the engine, and what it does with the answer.
-/

namespace TCodeIME

variable {E : Type}

namespace Keystroke

def request (selectedIndex : Int32) : Keystroke → Option Request
  | .toDirect => some .reset
  | .back => some .backspace
  | .put ch => some (.put ch)
  | .convert => some .convert
  | .inflect command => some command.request
  | .select => some (.select selectedIndex)
  | _ => none

def drains (r : BufferStatusResponse) : Keystroke → Bool
  | .put _ => !r.isOutputBufferEmpty
  | .select => r.commandSucceed
  | _ => false

/-- The keys whose request goes through `ExecuteCommand`. -/
def throws : Keystroke → Bool
  | .back => true
  | .convert => true
  | .inflect _ => true
  | _ => false

def session (pastEnd : WChar) (composing : Bool) (r : BufferStatusResponse) (drained : WString) :
    Keystroke → Option (WString × WString)
  | .toDirect => if composing then some ([], []) else none
  | .back => some (r.getOutputBuffer, r.preedit pastEnd)
  | .put _ => some (drained, r.preedit pastEnd)
  | .convert => some (r.getOutputBuffer, r.preedit pastEnd)
  | .inflect _ => some (r.getOutputBuffer ++ r.getLastKey pastEnd, r.getBuffer)
  | .select => if r.commandSucceed then some (drained, []) else none
  | _ => none

def selectedIndex (candidates : ℕ) (i : Int32) : Keystroke → Int32
  | .nextCandidate => i + 1
  | .move wParam => CTCodeIME.boundIndex candidates (CTCodeIME.movedIndex wParam i)
  | .select => 0
  | _ => i

def mode : Keystroke → Option InputMode
  | .toTcode => some .tcode
  | .toDirect => some .direct
  | _ => none

def list : Keystroke → ListUpdate
  | .passed => .none
  | .toTcode => .none
  | .inflect _ => .none
  | .toDirect => .hide
  | _ => .sync

def eaten (pastEnd : WChar) (r : BufferStatusResponse) : Keystroke → Bool
  | .passed => false
  | .idle => false
  | .back => !((r.preedit pastEnd).isEmpty && r.getOutputBuffer.isEmpty)
  | _ => true

theorem request_ne_commit (k : Keystroke) (i : Int32) : k.request i ≠ some .commit := by
  cases k with
  | inflect command => cases command <;> simp [request, EngineCommand.request]
  | _ => simp [request]

end Keystroke

namespace CTCodeIME

def answer (srv : Server E) (s : CTCodeIME E) (k : Keystroke) : Option BufferStatusResponse :=
  (k.request s.selectedIndex).bind fun request => srv.status request s.client.engine

def response (srv : Server E) (s : CTCodeIME E) (k : Keystroke) : BufferStatusResponse :=
  (k.request s.selectedIndex).elim s.client.lastResponse fun request =>
    (srv.status request s.client.engine).getD {}

def requested (srv : Server E) (s : CTCodeIME E) (k : Keystroke) : CEngineClient E :=
  (k.request s.selectedIndex).elim s.client fun request =>
    let client := s.client.asked srv request
    if k.drains client.lastResponse then client.drained srv else client

def drainedText (srv : Server E) (s : CTCodeIME E) (k : Keystroke) : Str :=
  (k.request s.selectedIndex).elim [] fun request =>
    let client := s.client.asked srv request
    if k.drains client.lastResponse then client.drainedText srv else []

def exchanges (srv : Server E) (s : CTCodeIME E) (k : Keystroke) : List Exchange :=
  (k.request s.selectedIndex).elim [] fun request =>
    let client := s.client.asked srv request
    ⟨request, (srv.status request s.client.engine).map BufferStatusResponse.outputBuffer⟩ ::
      if k.drains client.lastResponse then
        [⟨.commit, (srv.committed client.engine).map CommitResponse.output⟩]
      else []

def requestedSession (srv : Server E) (pastEnd : WChar) (s : CTCodeIME E) (k : Keystroke) :
    Option (WString × WString) :=
  k.session pastEnd s.text.pComposition.isSome (s.response srv k) (utf8ToWide (s.drainedText srv k))

def sessionsSince (s s' : CTCodeIME E) : List SessionRequest :=
  s'.text.sessions.drop s.text.sessions.length

def exchangesSince (s s' : CTCodeIME E) : List Exchange :=
  s'.client.exchanges.drop s.client.exchanges.length

section Effect

variable (srv : Server E) (pastEnd : WChar) (s : CTCodeIME E)

theorem requested_lastResponse (k : Keystroke) :
    (s.requested srv k).lastResponse = s.response srv k := by
  unfold requested response
  cases k.request s.selectedIndex with
  | none => rfl
  | some request =>
    dsimp only [Option.elim]
    split_ifs <;> rfl

theorem requested_exchanges (k : Keystroke) :
    (s.requested srv k).exchanges = s.client.exchanges ++ s.exchanges srv k := by
  unfold requested exchanges
  cases k.request s.selectedIndex with
  | none => simp
  | some request =>
    dsimp only [Option.elim]
    split_ifs <;> simp [CEngineClient.drained, CEngineClient.asked]

theorem request_of_mem_exchanges {srv : Server E} {s : CTCodeIME E} {k : Keystroke} {x : Exchange}
    (hx : x ∈ s.exchanges srv k) : k.request s.selectedIndex = some x.request ∨ x.request = .commit := by
  unfold exchanges at hx
  cases hk : k.request s.selectedIndex with
  | none =>
    rw [hk] at hx
    cases hx
  | some request =>
    rw [hk] at hx
    simp only [Option.elim, List.mem_cons] at hx
    rcases hx with rfl | hx
    · exact .inl rfl
    · split_ifs at hx
      · exact .inr (by rw [List.mem_singleton.mp hx])
      · cases hx

theorem exchanges_eq_nil_iff {srv : Server E} {s : CTCodeIME E} {k : Keystroke} :
    s.exchanges srv k = [] ↔ k.request s.selectedIndex = none := by
  unfold exchanges
  cases k.request s.selectedIndex <;> simp

theorem response_of_request {srv : Server E} {s : CTCodeIME E} {k : Keystroke} {request : Request}
    {r : BufferStatusResponse} (hk : k.request s.selectedIndex = some request)
    (hr : srv.status request s.client.engine = some r) : s.response srv k = r := by
  rw [response, hk, Option.elim, hr, Option.getD_some]

theorem response_reported {srv : Server E} {s : CTCodeIME E} {k : Keystroke}
    (h : (s.answer srv k).isSome) :
    ∃ x ∈ s.exchanges srv k, x.answer = some (s.response srv k).outputBuffer := by
  unfold answer at h
  cases hk : k.request s.selectedIndex with
  | none =>
    rw [hk] at h
    cases h
  | some request =>
    rw [hk, Option.bind_some] at h
    obtain ⟨r, hr⟩ := Option.isSome_iff_exists.mp h
    rw [response_of_request hk hr]
    exact ⟨_, by simp only [exchanges, hk, Option.elim]; exact List.mem_cons_self, by rw [hr]; rfl⟩

theorem drainedText_reported (srv : Server E) (s : CTCodeIME E) (k : Keystroke) :
    s.drainedText srv k = [] ∨
      ∃ x ∈ s.exchanges srv k, x.answer = some (s.drainedText srv k) := by
  unfold drainedText exchanges
  cases k.request s.selectedIndex with
  | none => exact .inl rfl
  | some request =>
    simp only [Option.elim]
    split_ifs with hd
    · unfold CEngineClient.drainedText
      cases hc : srv.committed (s.client.asked srv request).engine with
      | none => exact .inl rfl
      | some c => exact .inr ⟨⟨.commit, some c.output⟩, by simp, rfl⟩
    · exact .inl rfl

theorem requestedSession_committed {srv : Server E} {s : CTCodeIME E} {k : Keystroke}
    {pastEnd : WChar} (hthrows : k.throws = false) (hdrained : s.drainedText srv k = []) {x : WString × WString}
    (hx : s.requestedSession srv pastEnd k = some x) : x.1 = [] := by
  rw [requestedSession, hdrained] at hx
  cases k with
  | put ch =>
    cases hx
    rfl
  | select =>
    simp only [Keystroke.session] at hx
    split_ifs at hx
    cases hx
    rfl
  | toDirect =>
    simp only [Keystroke.session] at hx
    split_ifs at hx
    cases hx
    rfl
  | back => cases hthrows
  | convert => cases hthrows
  | inflect command => cases hthrows
  | _ => cases hx

theorem requested_of_answered {srv : Server E} {s : CTCodeIME E} {k : Keystroke} {request : Request}
    (hk : k.request s.selectedIndex = some request)
    (h : ∀ x ∈ s.exchanges srv k, x.answer.isSome) :
    ∃ r, srv.status request s.client.engine = some r ∧
      ((k.drains r = false ∧ s.drainedText srv k = [] ∧
          (s.requested srv k).engine = srv.after request s.client.engine) ∨
        (k.drains r = true ∧ ∃ c, srv.committed (srv.after request s.client.engine) = some c ∧
          s.drainedText srv k = c.output ∧
          (s.requested srv k).engine = srv.after .commit (srv.after request s.client.engine))) := by
  simp only [exchanges, hk, Option.elim, List.forall_mem_cons, Option.isSome_map] at h
  obtain ⟨r, hr⟩ := Option.isSome_iff_exists.mp h.1
  refine ⟨r, hr, ?_⟩
  simp only [CEngineClient.asked, hr, Option.getD_some] at h
  simp only [drainedText, requested, hk, Option.elim, CEngineClient.asked, hr, Option.getD_some]
  cases hd : k.drains r with
  | false => exact .inl ⟨rfl, rfl, rfl⟩
  | true =>
    have hc : (srv.committed (srv.after request s.client.engine)).isSome := by simpa [hd] using h.2
    obtain ⟨c, hc⟩ := Option.isSome_iff_exists.mp hc
    refine .inr ⟨rfl, c, hc, ?_, rfl⟩
    simp [CEngineClient.drainedText, hc]

theorem answer_isSome {srv : Server E} {s : CTCodeIME E} {k : Keystroke}
    (h : ∀ x ∈ s.exchanges srv k, x.answer.isSome) (hk : (k.request s.selectedIndex).isSome) :
    (s.answer srv k).isSome := by
  obtain ⟨request, hk⟩ := Option.isSome_iff_exists.mp hk
  obtain ⟨r, hr, -⟩ := requested_of_answered hk h
  simp [answer, hk, hr]

theorem commandEffect_client (command : EngineCommand) {answered : CEngineClient E → Effect E}
    (h : ∀ client, (answered client).client = client) :
    (s.commandEffect srv command answered).client = s.client.asked srv command.request := by
  rcases commandEffect_cases srv command s answered with ⟨-, what, hc⟩ | ⟨-, hc⟩
  · rw [hc]
  · rw [hc, h]

theorem effect_client {k : Keystroke} (hk : k ≠ .put []) :
    ∃ log, (s.effect srv pastEnd k).client = { s.requested srv k with log := log } := by
  cases k with
  | put ch =>
    have hch : ch ≠ [] := fun h => hk (by rw [h])
    obtain ⟨log, hlog⟩ := CEngineClient.executePut_eq srv hch s.client
    refine ⟨log, ?_⟩
    simp only [effect, hlog, requested, Keystroke.request, Keystroke.drains, Option.elim]
    by_cases ho : (s.client.asked srv (.put ch)).lastResponse.isOutputBufferEmpty = true
    · simp [ho]
    · simp [ho, CEngineClient.drained]
  | back => exact ⟨s.client.log, commandEffect_client srv s .backspace fun _ => rfl⟩
  | convert => exact ⟨s.client.log, commandEffect_client srv s .convert fun _ => rfl⟩
  | inflect command => exact ⟨s.client.log, commandEffect_client srv s command fun _ => rfl⟩
  | toDirect =>
    refine ⟨s.client.log, ?_⟩
    rw [effect, CEngineClient.reset_eq]
    rfl
  | select =>
    refine ⟨s.client.log, ?_⟩
    simp only [effect, requested, Keystroke.request, Keystroke.drains, Option.elim]
    by_cases hs : (s.client.asked srv (.select s.selectedIndex)).lastResponse.commandSucceed = true
    · simp only [hs, if_true]
      rfl
    · simp only [hs]
      rfl
  | passed => exact ⟨s.client.log, rfl⟩
  | toTcode => exact ⟨s.client.log, rfl⟩
  | nextCandidate => exact ⟨s.client.log, rfl⟩
  | move wParam => exact ⟨s.client.log, rfl⟩
  | idle => exact ⟨s.client.log, rfl⟩

theorem commandEffect_thrown (command : EngineCommand) {answered : CEngineClient E → Effect E}
    (h : ∀ client, (answered client).thrown = none) :
    (s.commandEffect srv command answered).thrown = none ↔
      (srv.status command.request s.client.engine).isSome := by
  rcases commandEffect_cases srv command s answered with ⟨hr, what, hc⟩ | ⟨hr, hc⟩
  · simp [hc, hr]
  · simp [hc, h, hr]

theorem effect_thrown (k : Keystroke) :
    (s.effect srv pastEnd k).thrown = none ↔ (k.throws = true → (s.answer srv k).isSome) := by
  cases k with
  | back =>
    rw [effect, commandEffect_thrown srv s .backspace fun _ => rfl]
    simp [Keystroke.throws, answer, Keystroke.request, EngineCommand.request]
  | convert =>
    rw [effect, commandEffect_thrown srv s .convert fun _ => rfl]
    simp [Keystroke.throws, answer, Keystroke.request, EngineCommand.request]
  | inflect command =>
    rw [effect, commandEffect_thrown srv s command fun _ => rfl]
    simp [Keystroke.throws, answer, Keystroke.request]
  | put ch =>
    simp only [effect, Keystroke.throws]
    split_ifs <;> simp
  | select =>
    simp only [effect, Keystroke.throws]
    split_ifs <;> simp
  | _ => simp [effect, Keystroke.throws]

theorem commandEffect_selectedIndex (command : EngineCommand)
    {answered : CEngineClient E → Effect E} (h : ∀ client, (answered client).selectedIndex = none) :
    (s.commandEffect srv command answered).selectedIndex = none := by
  rcases commandEffect_cases srv command s answered with ⟨-, what, hc⟩ | ⟨-, hc⟩
  · rw [hc]
  · rw [hc, h]

theorem effect_selectedIndex (k : Keystroke) :
    (s.effect srv pastEnd k).selectedIndex.getD s.selectedIndex =
      k.selectedIndex s.client.lastResponse.candidates.length s.selectedIndex := by
  cases k with
  | back => simp [effect, Keystroke.selectedIndex, commandEffect_selectedIndex]
  | convert => simp [effect, Keystroke.selectedIndex, commandEffect_selectedIndex]
  | inflect command => simp [effect, Keystroke.selectedIndex, commandEffect_selectedIndex]
  | put ch =>
    simp only [effect, Keystroke.selectedIndex]
    split_ifs <;> simp
  | select =>
    simp only [effect, Keystroke.selectedIndex]
    split_ifs <;> simp
  | _ => simp [effect, Keystroke.selectedIndex]

theorem effect_mode (k : Keystroke) : (s.effect srv pastEnd k).mode = k.mode := by
  have command (c : EngineCommand) {answered : CEngineClient E → Effect E}
      (h : ∀ client, (answered client).mode = none) : (s.commandEffect srv c answered).mode = none := by
    rcases commandEffect_cases srv c s answered with ⟨-, what, hc⟩ | ⟨-, hc⟩
    · rw [hc]
    · rw [hc, h]
  cases k with
  | back => exact command .backspace fun _ => rfl
  | convert => exact command .convert fun _ => rfl
  | inflect c => exact command c fun _ => rfl
  | put ch =>
    simp only [effect, Keystroke.mode]
    split_ifs <;> rfl
  | select =>
    simp only [effect, Keystroke.mode]
    split_ifs <;> rfl
  | _ => rfl

theorem effect_of_not_thrown {k : Keystroke} (hk : k ≠ .put [])
    (h : (s.effect srv pastEnd k).thrown = none) :
    (s.effect srv pastEnd k).session = s.requestedSession srv pastEnd k ∧
      (s.effect srv pastEnd k).list = k.list ∧
      (s.effect srv pastEnd k).pfEaten = k.eaten pastEnd (s.response srv k) := by
  have command (c : EngineCommand) {answered : CEngineClient E → Effect E}
      (hc : k.request s.selectedIndex = some c.request) (ht : k.throws = true)
      {x : WString × WString} (hx : ∀ client, client.lastResponse = s.response srv k →
        (answered client).session = some x ∧ (answered client).list = k.list ∧
          (answered client).pfEaten = k.eaten pastEnd (s.response srv k)) :
      (s.commandEffect srv c answered).session = some x ∧
        (s.commandEffect srv c answered).list = k.list ∧
        (s.commandEffect srv c answered).pfEaten = k.eaten pastEnd (s.response srv k) := by
    have ha := (effect_thrown srv pastEnd s k).mp h ht
    rw [answer, hc, Option.bind_some] at ha
    rcases commandEffect_cases srv c s answered with ⟨hr, -⟩ | ⟨-, hanswered⟩
    · rw [hr] at ha
      cases ha
    rw [hanswered]
    apply hx
    simp [CEngineClient.asked, response, hc]
  unfold requestedSession
  cases k with
  | back => exact command .backspace rfl rfl fun client hr => by rw [← hr]; exact ⟨rfl, rfl, rfl⟩
  | convert => exact command .convert rfl rfl fun client hr => by rw [← hr]; exact ⟨rfl, rfl, rfl⟩
  | inflect c => exact command c rfl rfl fun client hr => by rw [← hr]; exact ⟨rfl, rfl, rfl⟩
  | put ch =>
    have hch : ch ≠ [] := fun h => hk (by rw [h])
    obtain ⟨log, hlog⟩ := CEngineClient.executePut_eq srv hch s.client
    simp only [effect, hlog, Keystroke.session, Keystroke.list, Keystroke.eaten, response,
      drainedText, Keystroke.request, Keystroke.drains, Option.elim, CEngineClient.asked]
    by_cases ho : ((srv.status (.put ch) s.client.engine).getD {}).isOutputBufferEmpty = true
    · simp [ho]
    · simp [ho, CEngineClient.drained, CEngineClient.drainedText]
  | select =>
    simp only [effect, Keystroke.session, Keystroke.list, Keystroke.eaten, response, drainedText,
      Keystroke.request, Keystroke.drains, Option.elim, CEngineClient.asked]
    by_cases hs : ((srv.status (.select s.selectedIndex) s.client.engine).getD {}).commandSucceed = true
    · simp [hs, CEngineClient.drainedText]
    · simp [hs]
  | _ => simp [effect, Keystroke.session, Keystroke.list, Keystroke.eaten]

theorem effect_pfEaten_of_thrown {k : Keystroke} (h : (s.effect srv pastEnd k).thrown ≠ none) :
    (s.effect srv pastEnd k).pfEaten = true := by
  have command (c : EngineCommand) {answered : CEngineClient E → Effect E}
      (hn : ∀ client, (answered client).thrown = none)
      (h : (s.commandEffect srv c answered).thrown ≠ none) :
      (s.commandEffect srv c answered).pfEaten = true := by
    rcases commandEffect_cases srv c s answered with ⟨-, what, hc⟩ | ⟨-, hc⟩
    · rw [hc]
    · rw [hc, hn] at h
      exact absurd rfl h
  rw [ne_eq, effect_thrown, Classical.not_imp] at h
  have hthrown := mt (effect_thrown srv pastEnd s k).mp (fun hn => h.2 (hn h.1))
  cases k with
  | back => exact command .backspace (fun _ => rfl) hthrown
  | convert => exact command .convert (fun _ => rfl) hthrown
  | inflect c => exact command c (fun _ => rfl) hthrown
  | _ => cases h.1

end Effect

theorem keystroke_ne_put_nil (o : CompartmentOutcomes) (wParam : ℕ) (keys : Modifiers)
    (s : CTCodeIME E) : s.keystroke o wParam keys ≠ .put [] := by
  intro h
  have hadmits := keystroke_admits o wParam keys s
  rw [h] at hadmits
  exact inputChar_ne_nil hadmits.2 rfl

theorem onKeyDown_of_passed (srv : Server E) (pic : ContextId) {o : KeyOutcomes} {wParam : ℕ}
    {keys : Modifiers} {s : CTCodeIME E} (h : s.keystroke o.compartment wParam keys = .passed) :
    s.onKeyDown srv o pic wParam keys = ⟨s, false, .returned⟩ := by
  rw [onKeyDown_eq, h]
  rfl

theorem onKeyDown_of_idle (srv : Server E) (pic : ContextId) {o : KeyOutcomes} {wParam : ℕ}
    {keys : Modifiers} {s : CTCodeIME E} (h : s.keystroke o.compartment wParam keys = .idle) :
    ∃ u, s.onKeyDown srv o pic wParam keys = ⟨{ s with candidateUI := u }, false, .returned⟩ := by
  have hlist := effect_list srv o wParam keys s
  rw [h] at hlist
  obtain ⟨u, -, hu⟩ := realize_of_edited o pic s hlist rfl rfl
  exact ⟨u, by rw [onKeyDown_eq, h]; exact hu⟩

theorem onKeyDown_of_toTcode (srv : Server E) (pic : ContextId) {o : KeyOutcomes} {wParam : ℕ}
    {keys : Modifiers} {s : CTCodeIME E} (h : s.keystroke o.compartment wParam keys = .toTcode) :
    s.onKeyDown srv o pic wParam keys = ⟨s.enter o.compartment (some .tcode), true, .returned⟩ := by
  rw [onKeyDown_eq, h]
  rfl

section KeyDown

variable (srv : Server E) (o : KeyOutcomes) (pic : ContextId) (wParam : ℕ) (keys : Modifiers)
  (s : CTCodeIME E)

theorem onKeyDown_cases :
    let k := s.keystroke o.compartment wParam keys
    let session := s.requestedSession srv o.pastEnd k
    let i := k.selectedIndex s.client.lastResponse.candidates.length s.selectedIndex
    ∃ log, let client := { s.requested srv k with log := log }
      (k.throws = true ∧ s.answer srv k = none ∧ ∃ what, s.onKeyDown srv o pic wParam keys =
        ⟨{ s.enter o.compartment k.mode with client := client }, true, .threw what⟩) ∨
      ((k.throws = true → (s.answer srv k).isSome) ∧ editText o.session pic session s.text = none ∧
        s.onKeyDown srv o pic wParam keys =
          ⟨{ s.enter o.compartment k.mode with client := client },
            k.eaten o.pastEnd (s.response srv k), .accessViolation⟩) ∨
      ((k.throws = true → (s.answer srv k).isSome) ∧ ∃ t u,
        editText o.session pic session s.text = some t ∧
        updateUI o.ui s.pThreadMgr (s.response srv k).candidates i s.candidateUI k.list = some u ∧
        s.onKeyDown srv o pic wParam keys =
          ⟨{ s.enter o.compartment k.mode with
              client := client
              text := t
              candidateUI := u
              selectedIndex := i }, k.eaten o.pastEnd (s.response srv k), .returned⟩) := by
  intro k session i
  have hk : k ≠ .put [] := keystroke_ne_put_nil o.compartment wParam keys s
  obtain ⟨log, hclient⟩ := effect_client srv o.pastEnd s hk
  refine ⟨log, ?_⟩
  intro client
  have hr : client.lastResponse = s.response srv k := requested_lastResponse srv s k
  rw [onKeyDown_eq]
  rcases realize_cases o pic (s.effect srv o.pastEnd k) s (effect_list srv o wParam keys s) with
    ⟨what, ht, h⟩ | ⟨ht, htext, h⟩ | ⟨t, u, ht, htext, hu, h⟩
  · have hthrown := mt (effect_thrown srv o.pastEnd s k).mpr (by rw [ht]; simp)
    rw [Classical.not_imp] at hthrown
    rw [hclient, effect_mode, effect_pfEaten_of_thrown srv o.pastEnd s (by rw [ht]; simp)] at h
    exact .inl ⟨hthrown.1, by simpa using hthrown.2, what, h⟩
  · obtain ⟨hsession, -, heaten⟩ := effect_of_not_thrown srv o.pastEnd s hk ht
    rw [hsession] at htext
    rw [hclient, effect_mode, heaten] at h
    exact .inr (.inl ⟨(effect_thrown srv o.pastEnd s k).mp ht, htext, h⟩)
  · obtain ⟨hsession, hlist, heaten⟩ := effect_of_not_thrown srv o.pastEnd s hk ht
    rw [hsession] at htext
    rw [hclient, effect_selectedIndex, hlist, hr] at hu
    rw [hclient, effect_mode, effect_selectedIndex, heaten] at h
    exact .inr (.inr ⟨(effect_thrown srv o.pastEnd s k).mp ht, t, u, htext, hu, h⟩)

theorem onKeyDown_returned (h : (s.onKeyDown srv o pic wParam keys).exit = .returned) :
    let k := s.keystroke o.compartment wParam keys
    let s' := (s.onKeyDown srv o pic wParam keys).ime
    (k.throws = true → (s.answer srv k).isSome) ∧
      editText o.session pic (s.requestedSession srv o.pastEnd k) s.text = some s'.text ∧
      updateUI o.ui s.pThreadMgr (s.response srv k).candidates
        (k.selectedIndex s.client.lastResponse.candidates.length s.selectedIndex) s.candidateUI
        k.list = some s'.candidateUI ∧
      s'.pThreadMgr = s.pThreadMgr ∧
      s'.compartments = (s.enter o.compartment k.mode).compartments := by
  obtain ⟨log, ⟨-, -, what, hk⟩ | ⟨-, -, hk⟩ | ⟨ha, t, u, ht, hu, hk⟩⟩ :=
    onKeyDown_cases srv o pic wParam keys s
  · rw [hk] at h
    cases h
  · rw [hk] at h
    cases h
  · rw [hk]
    exact ⟨ha, ht, hu, enter_pThreadMgr _ _ s, rfl⟩

theorem onKeyDown_returns (ho : o.session = {})
    (h : (s.keystroke o.compartment wParam keys).throws = true →
      (s.answer srv (s.keystroke o.compartment wParam keys)).isSome) :
    (s.onKeyDown srv o pic wParam keys).exit = .returned := by
  obtain ⟨log, ⟨hthrows, ha, -⟩ | ⟨-, ht, -⟩ | ⟨-, t, u, -, -, hk⟩⟩ :=
    onKeyDown_cases srv o pic wParam keys s
  · have := h hthrows
    rw [ha] at this
    cases this
  · rw [ho] at ht
    revert ht
    cases s.requestedSession srv o.pastEnd (s.keystroke o.compartment wParam keys) with
    | none => simp [editText]
    | some x =>
      simp [editText, CManageCompositionEditSession.requestEditSession,
        CManageCompositionEditSession.doEditSession, CManageCompositionEditSession.startPreedit_ok]
  · rw [hk]

theorem onKeyDown_client :
    ∃ log, (s.onKeyDown srv o pic wParam keys).ime.client =
      { s.requested srv (s.keystroke o.compartment wParam keys) with log := log } := by
  obtain ⟨log, ⟨-, -, what, h⟩ | ⟨-, -, h⟩ | ⟨-, t, u, -, -, h⟩⟩ :=
    onKeyDown_cases srv o pic wParam keys s <;> exact ⟨log, by rw [h]⟩

theorem onKeyDown_lastResponse :
    (s.onKeyDown srv o pic wParam keys).ime.client.lastResponse =
      s.response srv (s.keystroke o.compartment wParam keys) := by
  obtain ⟨log, h⟩ := onKeyDown_client srv o pic wParam keys s
  rw [h]
  exact requested_lastResponse srv s _

theorem onKeyDown_engine :
    (s.onKeyDown srv o pic wParam keys).ime.client.engine =
      (s.requested srv (s.keystroke o.compartment wParam keys)).engine := by
  obtain ⟨log, h⟩ := onKeyDown_client srv o pic wParam keys s
  rw [h]

theorem onKeyDown_exchanges :
    (s.onKeyDown srv o pic wParam keys).ime.client.exchanges = s.client.exchanges ++
      s.exchanges srv (s.keystroke o.compartment wParam keys) := by
  obtain ⟨log, h⟩ := onKeyDown_client srv o pic wParam keys s
  rw [h]
  exact requested_exchanges srv s _

theorem selectedIndex_of_throws {k : Keystroke} (h : k.throws = true) (candidates : ℕ) (i : Int32) :
    k.selectedIndex candidates i = i := by
  cases k <;> simp_all [Keystroke.throws, Keystroke.selectedIndex]

theorem onKeyDown_selectedIndex
    (h : (s.onKeyDown srv o pic wParam keys).exit ≠ .accessViolation) :
    (s.onKeyDown srv o pic wParam keys).ime.selectedIndex =
      (s.keystroke o.compartment wParam keys).selectedIndex
        s.client.lastResponse.candidates.length s.selectedIndex := by
  obtain ⟨log, ⟨ht, -, what, hk⟩ | ⟨-, -, hk⟩ | ⟨-, t, u, -, -, hk⟩⟩ :=
    onKeyDown_cases srv o pic wParam keys s
  · rw [hk, selectedIndex_of_throws ht]
    simp
  · rw [hk] at h
    exact absurd rfl h
  · rw [hk]

theorem editText_sessions {o : SessionOutcomes} {pic : ContextId}
    {session : Option (WString × WString)} {t t' : TextServices}
    (h : editText o pic session t = some t') :
    t'.sessions = t.sessions ++ session.toList.map fun x => ⟨pic, x.1, x.2⟩ := by
  cases session with
  | none =>
    cases h
    simp
  | some x => simpa using CManageCompositionEditSession.requestEditSession_sessions h

theorem onKeyDown_sessions (h : (s.onKeyDown srv o pic wParam keys).exit = .returned) :
    (s.onKeyDown srv o pic wParam keys).ime.text.sessions = s.text.sessions ++
      (s.requestedSession srv o.pastEnd (s.keystroke o.compartment wParam keys)).toList.map
        fun x => ⟨pic, x.1, x.2⟩ := by
  exact editText_sessions (onKeyDown_returned srv o pic wParam keys s h).2.1

theorem sessionsSince_onKeyDown (h : (s.onKeyDown srv o pic wParam keys).exit = .returned) :
    s.sessionsSince (s.onKeyDown srv o pic wParam keys).ime =
      (s.requestedSession srv o.pastEnd (s.keystroke o.compartment wParam keys)).toList.map
        fun x => ⟨pic, x.1, x.2⟩ := by
  rw [sessionsSince, onKeyDown_sessions srv o pic wParam keys s h, List.drop_left]

theorem exchangesSince_onKeyDown :
    s.exchangesSince (s.onKeyDown srv o pic wParam keys).ime =
      s.exchanges srv (s.keystroke o.compartment wParam keys) := by
  rw [exchangesSince, onKeyDown_exchanges, List.drop_left]

end KeyDown

end CTCodeIME

end TCodeIME
