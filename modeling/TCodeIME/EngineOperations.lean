import TCodeIME.Requests

/-!
The operations of `CEngineClient` that `CTCodeIME` calls, and which of them a key press calls.
-/

namespace TCodeIME

inductive Operation where
  | executePut (inputChar : Str)
  | executeCommand (command : EngineCommand)
  | select (n : Int32)
  | commit
  | reset
deriving DecidableEq

variable {E : Type}

namespace CEngineClient

/-- The first component is the exception that leaves the operation. -/
def perform (srv : Server E) (c : CEngineClient E) : Operation → Option String × CEngineClient E
  | .executePut inputChar => (none, (c.executePut srv inputChar).2)
  | .executeCommand command =>
    match c.executeCommand srv command with
    | (.error what, c) => (some what, c)
    | (.ok _, c) => (none, c)
  | .select n => (none, (c.select srv n).2)
  | .commit => (none, (c.commit srv).2)
  | .reset => (none, (c.reset srv).2)

def performed (srv : Server E) (c : CEngineClient E) (op : Operation) : CEngineClient E :=
  (c.perform srv op).2

end CEngineClient

def Operation.status : Operation → Option Request
  | .executePut inputChar => some (.put inputChar)
  | .executeCommand command => some command.request
  | .select n => some (.select n)
  | .commit => none
  | .reset => some .reset

def Operation.catches : Operation → Bool
  | .executeCommand _ => false
  | _ => true

namespace CEngineClient

theorem performed_of_status (srv : Server E) (c : CEngineClient E) {op : Operation} {request : Request}
    (hop : op ≠ .executePut []) (h : op.status = some request) :
    ∃ log, c.performed srv op = { c.asked srv request with log := log } := by
  cases op with
  | executePut inputChar =>
    cases h
    exact executePut_eq srv (fun hi => hop (by rw [hi])) c
  | executeCommand command =>
    cases h
    refine ⟨c.log, ?_⟩
    cases hr : srv.status command.request c.engine with
    | none =>
      obtain ⟨what, hc⟩ := executeCommand_error hr
      simp only [performed, perform, hc]
      rfl
    | some res =>
      simp only [performed, perform, executeCommand_ok hr]
      rfl
  | select n =>
    cases h
    exact ⟨c.log, by rw [performed, perform, select_eq]; rfl⟩
  | commit => cases h
  | reset =>
    cases h
    exact ⟨c.log, by rw [performed, perform, reset_eq]; rfl⟩

theorem performed_commit (srv : Server E) (c : CEngineClient E) :
    c.performed srv .commit = c.drained srv := by
  rw [performed, perform, commit_eq]

theorem perform_thrown (srv : Server E) (c : CEngineClient E) (op : Operation) :
    (c.perform srv op).1 = none ↔
      (op.catches = false → (op.status.bind fun request => srv.status request c.engine).isSome) := by
  cases op with
  | executeCommand command =>
    simp only [perform, Operation.catches, Operation.status, Option.bind_some, true_imp_iff]
    cases hr : srv.status command.request c.engine with
    | none =>
      obtain ⟨what, hc⟩ := executeCommand_error hr
      simp [hc]
    | some res => simp [executeCommand_ok hr]
  | _ => simp [perform, Operation.catches]

def cachesReply (srv : Server E) (c : CEngineClient E) (op : Operation) : Prop :=
  (c.performed srv op).lastResponse =
    op.status.elim c.lastResponse fun request => (srv.status request c.engine).getD {}

theorem cachesReply_of_ne (srv : Server E) (c : CEngineClient E) {op : Operation}
    (hop : op ≠ .executePut []) : c.cachesReply srv op := by
  unfold cachesReply
  cases h : op.status with
  | none =>
    cases op <;> cases h
    rw [performed_commit]
    rfl
  | some request =>
    obtain ⟨log, hc⟩ := performed_of_status srv c hop h
    rw [hc]
    rfl

end CEngineClient

namespace Keystroke

def operation (selectedIndex : Int32) : Keystroke → Option Operation
  | .toDirect => some .reset
  | .back => some (.executeCommand .backspace)
  | .put ch => some (.executePut ch)
  | .convert => some (.executeCommand .convert)
  | .inflect command => some (.executeCommand command)
  | .select => some (.select selectedIndex)
  | _ => none

theorem operation_status (k : Keystroke) (i : Int32) :
    (k.operation i).bind Operation.status = k.request i := by
  cases k <;> rfl

theorem operation_catches {k : Keystroke} {i : Int32} {op : Operation} (h : k.operation i = some op) :
    op.catches = !k.throws := by
  cases k <;> cases h <;> rfl

theorem operation_ne_put_nil {k : Keystroke} (hk : k ≠ .put []) {i : Int32} {op : Operation}
    (hop : k.operation i = some op) : op ≠ .executePut [] := by
  intro h
  apply hk
  cases k <;> cases hop <;> cases h
  rfl

end Keystroke

namespace CTCodeIME

def clientCalls (srv : Server E) (s : CTCodeIME E) (k : Keystroke) :
    List (CEngineClient E × Operation) :=
  (k.operation s.selectedIndex).elim [] fun op =>
    let client := s.client.performed srv op
    (s.client, op) :: if k.drains client.lastResponse then [(client, .commit)] else []

section Calls

variable (srv : Server E) (pastEnd : WChar) (s : CTCodeIME E)

theorem commandEffect_perform (command : EngineCommand) {answered : CEngineClient E → Effect E}
    (h : ∀ client, (answered client).client = client ∧ (answered client).thrown = none) :
    (s.commandEffect srv command answered).client = s.client.performed srv (.executeCommand command) ∧
      (s.commandEffect srv command answered).thrown =
        (s.client.perform srv (.executeCommand command)).1 := by
  unfold commandEffect CEngineClient.performed CEngineClient.perform
  split <;> simp_all

theorem effect_clientCalls (k : Keystroke) :
    (s.effect srv pastEnd k).client =
        ((s.clientCalls srv k).map Prod.snd).foldl (CEngineClient.performed srv) s.client ∧
      (s.effect srv pastEnd k).thrown =
        (s.clientCalls srv k).findSome? fun x => (x.1.perform srv x.2).1 := by
  have command (c : EngineCommand) {answered : CEngineClient E → Effect E}
      (h : ∀ client, (answered client).client = client ∧ (answered client).thrown = none)
      (hk : k.operation s.selectedIndex = some (.executeCommand c)) (hd : ∀ r, k.drains r = false) :
      (s.commandEffect srv c answered).client =
          ((s.clientCalls srv k).map Prod.snd).foldl (CEngineClient.performed srv) s.client ∧
        (s.commandEffect srv c answered).thrown =
          (s.clientCalls srv k).findSome? fun x => (x.1.perform srv x.2).1 := by
    obtain ⟨hclient, hthrown⟩ := commandEffect_perform srv s c h
    rw [hclient, hthrown, clientCalls, hk]
    simp only [Option.elim, hd, Bool.false_eq_true, if_false, List.map_cons, List.map_nil,
      List.foldl_cons, List.foldl_nil, List.findSome?_cons, List.findSome?_nil, true_and]
    cases (s.client.perform srv (.executeCommand c)).1 <;> rfl
  cases k with
  | put ch =>
    simp only [effect, clientCalls, Keystroke.operation, Keystroke.drains, Option.elim]
    by_cases ho : (s.client.executePut srv ch).2.lastResponse.isOutputBufferEmpty = true
    · simp [CEngineClient.performed, CEngineClient.perform, ho]
    · simp [CEngineClient.performed, CEngineClient.perform, CEngineClient.commit_eq, ho]
  | back => exact command .backspace (fun _ => ⟨rfl, rfl⟩) rfl fun _ => rfl
  | convert => exact command .convert (fun _ => ⟨rfl, rfl⟩) rfl fun _ => rfl
  | inflect c => exact command c (fun _ => ⟨rfl, rfl⟩) rfl fun _ => rfl
  | select =>
    have hselect : s.client.perform srv (.select s.selectedIndex) =
        (none, s.client.asked srv (.select s.selectedIndex)) := by
      rw [CEngineClient.perform, CEngineClient.select_eq]
    have hcommit (c : CEngineClient E) : c.perform srv .commit = (none, c.drained srv) := by
      rw [CEngineClient.perform, CEngineClient.commit_eq]
    simp only [effect, clientCalls, Keystroke.operation, Keystroke.drains, Option.elim,
      CEngineClient.performed, hselect]
    split_ifs
    · simp [hselect, hcommit, CEngineClient.performed]
    · simp [hselect, CEngineClient.performed]
  | _ => exact ⟨rfl, rfl⟩

end Calls

end CTCodeIME

end TCodeIME
