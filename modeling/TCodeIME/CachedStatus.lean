import TCodeIME.EngineOperations
import TCodeIME.ScriptedServer

/-!
Whether the cached status describes the engine, over sequences of operations of the client.
-/

namespace TCodeIME

namespace BufferStatusResponse

structure SameInput (r state : BufferStatusResponse) : Prop where
  hasCandidates : r.hasCandidates = state.hasCandidates
  getBuffer : r.getBuffer = state.getBuffer
  getLastKey : ∀ pastEnd, r.getLastKey pastEnd = state.getLastKey pastEnd
  isBufferEmpty : r.isBufferEmpty = state.isBufferEmpty
  isLastKeyEmpty : r.isLastKeyEmpty = state.isLastKeyEmpty

structure Describes (r state : BufferStatusResponse) : Prop extends SameInput r state where
  isOutputBufferEmpty : r.isOutputBufferEmpty = state.isOutputBufferEmpty

def content (r : BufferStatusResponse) : BufferStatusResponse := { r with commandSucceed := false }

theorem describes_of_content {r state : BufferStatusResponse} (h : r.content = state.content) :
    r.Describes state := by
  cases r
  cases state
  simp only [content, BufferStatusResponse.mk.injEq, and_true] at h
  obtain ⟨rfl, rfl, rfl, rfl⟩ := h
  exact ⟨⟨rfl, rfl, fun _ => rfl, rfl, rfl⟩, rfl⟩

theorem SameInput.trans {r s t : BufferStatusResponse} (h : r.SameInput s) (h' : s.SameInput t) :
    r.SameInput t where
  hasCandidates := h.hasCandidates.trans h'.hasCandidates
  getBuffer := h.getBuffer.trans h'.getBuffer
  getLastKey pastEnd := (h.getLastKey pastEnd).trans (h'.getLastKey pastEnd)
  isBufferEmpty := h.isBufferEmpty.trans h'.isBufferEmpty
  isLastKeyEmpty := h.isLastKeyEmpty.trans h'.isLastKeyEmpty

theorem SameInput.symm {r s : BufferStatusResponse} (h : r.SameInput s) : s.SameInput r where
  hasCandidates := h.hasCandidates.symm
  getBuffer := h.getBuffer.symm
  getLastKey pastEnd := (h.getLastKey pastEnd).symm
  isBufferEmpty := h.isBufferEmpty.symm
  isLastKeyEmpty := h.isLastKeyEmpty.symm

end BufferStatusResponse

def Server.scriptedReport (script : List Answer) (n : ℕ) : BufferStatusResponse :=
  (script.take n).foldl (fun r answer => match answer with
    | .status r' => r'
    | .commit _ => { r with outputBuffer := [] }
    | .failure => r) {}

variable {E : Type}

structure Server.Reports (srv : Server E) (report : E → BufferStatusResponse) : Prop where
  status : ∀ request e r, srv.status request e = some r →
    r.content = (report (srv.after request e)).content
  commit : ∀ e c, srv.committed e = some c → (report (srv.after .commit e)).outputBuffer = []

theorem Server.reports_scripted {r : BufferStatusResponse} {c : CommitResponse}
    (hstatus : statusAt [.status r, .commit c] 1 = none)
    (hcommit : committedAt [.status r, .commit c] 0 = none) :
    (scripted [.status r, .commit c]).Reports (scriptedReport [.status r, .commit c]) := by
  constructor
  · intro request n r' h
    rw [scripted_status] at h
    have hn := lt_length_of_statusAt h
    rcases n with - | - | n
    · have hread : statusAt [.status r, .commit c] 0 = some r := by
        simp [statusAt, Answer.body, scripted, Answer.readStatus]
      rw [hread] at h
      rw [← Option.some.inj h]
      rfl
    · rw [hstatus] at h
      cases h
    · simp only [List.length_cons, List.length_nil] at hn
      omega
  · intro n reply h
    rw [scripted_committed] at h
    have hn := lt_length_of_committedAt h
    rcases n with - | - | n
    · rw [hcommit] at h
      cases h
    · rfl
    · simp only [List.length_cons, List.length_nil] at hn
      omega

namespace CEngineClient

def succeeds (srv : Server E) (c : CEngineClient E) (op : Operation) : Prop :=
  op ≠ .executePut [] ∧ op.status.elim (srv.committed c.engine).isSome fun request =>
    (srv.status request c.engine).isSome

instance (srv : Server E) (c : CEngineClient E) (op : Operation) : Decidable (c.succeeds srv op) :=
  match op with
  | .commit => inferInstanceAs (Decidable (_ ∧ (srv.committed c.engine).isSome = true))
  | .executePut inputChar =>
    inferInstanceAs (Decidable (_ ∧ (srv.status (.put inputChar) c.engine).isSome = true))
  | .executeCommand command =>
    inferInstanceAs (Decidable (_ ∧ (srv.status command.request c.engine).isSome = true))
  | .select n => inferInstanceAs (Decidable (_ ∧ (srv.status (.select n) c.engine).isSome = true))
  | .reset => inferInstanceAs (Decidable (_ ∧ (srv.status .reset c.engine).isSome = true))

def describesAfter (srv : Server E) (report : E → BufferStatusResponse) (c : CEngineClient E)
    (op : Operation) : Prop :=
  (c.performed srv op).lastResponse.Describes (report (c.performed srv op).engine)

/-- A commit finds nothing in the cached output buffer, and leaves the engine's input as it was; for
one that comes before all other requests that is the input of the default response. -/
def commitsQuietly (srv : Server E) (report : E → BufferStatusResponse) (c : CEngineClient E)
    (op : Operation) : Prop :=
  op = .commit → c.lastResponse.isOutputBufferEmpty = true ∧
    (if c.exchanges = [] then c.lastResponse else report c.engine).SameInput
      (report (srv.after .commit c.engine))

def describes (report : E → BufferStatusResponse) (c : CEngineClient E) : Prop :=
  c.exchanges ≠ [] → c.lastResponse.Describes (report c.engine)

theorem performed_of_succeeds {srv : Server E} {c : CEngineClient E} {op : Operation}
    (h : c.succeeds srv op) :
    (op = .commit ∧ c.performed srv op = c.drained srv ∧ (srv.committed c.engine).isSome) ∨
      ∃ request r, op.status = some request ∧ srv.status request c.engine = some r ∧
        (c.performed srv op).lastResponse = r ∧
        (c.performed srv op).engine = srv.after request c.engine := by
  obtain ⟨hop, hs⟩ := h
  cases hstatus : op.status with
  | none =>
    cases op <;> cases hstatus
    exact .inl ⟨rfl, performed_commit srv c, hs⟩
  | some request =>
    rw [hstatus] at hs
    obtain ⟨r, hr⟩ := Option.isSome_iff_exists.mp hs
    obtain ⟨log, hc⟩ := performed_of_status srv c hop hstatus
    refine .inr ⟨request, r, rfl, hr, ?_, ?_⟩
    · rw [hc]
      simp [asked, hr]
    · rw [hc]
      rfl

theorem describesAfter_iff {srv : Server E} {report : E → BufferStatusResponse}
    (hsrv : srv.Reports report) {c : CEngineClient E} (hc : c.describes report) {op : Operation}
    (h : c.succeeds srv op) : c.describesAfter srv report op ↔ c.commitsQuietly srv report op := by
  rcases performed_of_succeeds h with ⟨rfl, hdrained, hsome⟩ | ⟨request, r, hstatus, hr, hlast, hengine⟩
  · obtain ⟨reply, hreply⟩ := Option.isSome_iff_exists.mp hsome
    have hempty := hsrv.commit c.engine reply hreply
    have hinput : (if c.exchanges = [] then c.lastResponse else report c.engine).SameInput
        (report (srv.after .commit c.engine)) ↔
          c.lastResponse.SameInput (report (srv.after .commit c.engine)) := by
      by_cases hx : c.exchanges = []
      · rw [if_pos hx]
      · rw [if_neg hx]
        have hsame := (hc hx).toSameInput
        exact ⟨hsame.trans, hsame.symm.trans⟩
    have hout : (report (srv.after .commit c.engine)).isOutputBufferEmpty = true := by
      rw [BufferStatusResponse.isOutputBufferEmpty, hempty]
      rfl
    unfold describesAfter commitsQuietly
    rw [hdrained, hinput]
    constructor
    · intro hd _
      exact ⟨hd.isOutputBufferEmpty.trans hout, hd.toSameInput⟩
    · intro hq
      obtain ⟨ho, hs⟩ := hq rfl
      exact ⟨hs, ho.trans hout.symm⟩
  · refine iff_of_true ?_ ?_
    · rw [describesAfter, hlast, hengine]
      exact BufferStatusResponse.describes_of_content (hsrv.status request c.engine r hr)
    · intro hop
      rw [hop] at hstatus
      cases hstatus

theorem cached_status_describes_iff {srv : Server E} {report : E → BufferStatusResponse}
    (hsrv : srv.Reports report) (engine : E) (ops : List Operation)
    (hops : Runs.Along (performed srv) (succeeds srv) { engine := engine } ops) :
    Runs.Along (performed srv) (describesAfter srv report) { engine := engine } ops ↔
      Runs.Along (performed srv) (commitsQuietly srv report) { engine := engine } ops := by
  have hstart : ({ engine := engine } : CEngineClient E).describes report := fun h => absurd rfl h
  apply Runs.along_iff_along _ _ hstart hops
  · intro c op hc h
    exact describesAfter_iff hsrv hc h
  · intro c op hc h hd _
    exact hd

theorem cached_status_describes_quiet_commit :
    let script := [.status ⟨[], [], [], "Some(j)".toList, true⟩, .commit ⟨[]⟩]
    let srv := Server.scripted script
    Runs.Along (performed srv) (describesAfter srv (Server.scriptedReport script)) { engine := 0 }
      [.executePut ['j'], .commit] := by
  intro script srv
  have hsrv := Server.reports_scripted (r := ⟨[], [], [], "Some(j)".toList, true⟩) (c := ⟨[]⟩)
    (by decide +kernel) (by decide +kernel)
  apply (cached_status_describes_iff hsrv 0 _ (by decide +kernel)).mpr
  refine ⟨nofun, fun _ => ⟨by decide +kernel, ?_⟩, trivial⟩
  exact (BufferStatusResponse.describes_of_content (by decide +kernel)).toSameInput

/-- The stroke that completes の: the commit that fetches it leaves it in the cached status. -/
theorem commit_leaves_status_stale :
    let script := [.status ⟨"の".toList, [], [], "None".toList, true⟩, .commit ⟨"の".toList⟩]
    let srv := Server.scripted script
    srv.Reports (Server.scriptedReport script) ∧
      Runs.Along (performed srv) (succeeds srv) { engine := 0 } [.executePut ['f'], .commit] ∧
      ¬ Runs.Along (performed srv) (describesAfter srv (Server.scriptedReport script)) { engine := 0 }
        [.executePut ['f'], .commit] := by
  intro script srv
  refine ⟨Server.reports_scripted (by decide +kernel) (by decide +kernel), by decide +kernel, ?_⟩
  intro h
  have hstale := h.2.1.isOutputBufferEmpty
  revert hstale
  decide +kernel

end CEngineClient

end TCodeIME
