import TCodeIME.GlazeClient

namespace TCodeIME

/-- One request with the output text its reply reports, or nothing when the request failed. -/
structure Exchange where
  request : Request
  answer : Option Str
deriving DecidableEq

inductive EngineCommand where
  | backspace
  | left
  | right
  | convert
deriving DecidableEq

/-- The client with the engine at its other end, the lines it has written to the debug log and
the requests it has sent, oldest first. -/
structure CEngineClient (E : Type) where
  lastResponse : BufferStatusResponse := {}
  engine : E
  log : List String := []
  exchanges : List Exchange := []

def EngineCommand.request : EngineCommand → Request
  | .backspace => .backspace
  | .left => .left
  | .right => .right
  | .convert => .convert

namespace CEngineClient

variable {E R : Type}

open GlazeClient

def logToImeFile (message : String) (c : CEngineClient E) : CEngineClient E :=
  { c with log := c.log ++ [message] }

def sent (request : Request) (text : R → Str) (reply : Except String R × E) (c : CEngineClient E) :
    CEngineClient E :=
  { c with
    engine := reply.2
    exchanges := c.exchanges ++ [⟨request, reply.1.toOption.map text⟩] }

def reset (srv : Server E) (c : CEngineClient E) : Bool × CEngineClient E :=
  let reply := sendCommand srv .reset c.engine
  let c := c.sent .reset BufferStatusResponse.outputBuffer reply
  match reply.1 with
  | .ok res => (true, { c with lastResponse := res })
  | .error _ => (false, { c with lastResponse := {} })

def select (srv : Server E) (n : Int32) (c : CEngineClient E) :
    BufferStatusResponse × CEngineClient E :=
  let reply := sendSelect srv n c.engine
  let c := c.sent (.select n) BufferStatusResponse.outputBuffer reply
  match reply.1 with
  | .ok res => (res, { c with lastResponse := res })
  | .error _ => ({}, { c with lastResponse := {} })

def commit (srv : Server E) (c : CEngineClient E) : CommitResponse × CEngineClient E :=
  let reply := sendCommit srv c.engine
  let c := c.sent .commit CommitResponse.output reply
  match reply.1 with
  | .ok res => (res, c)
  | .error _ => ({}, c)

-- `Backspace`, `Left`, `Right` and `Convert` throw what `SendCommand` throws
def executeCommand (srv : Server E) (command : EngineCommand) (c : CEngineClient E) :
    Except String BufferStatusResponse × CEngineClient E :=
  let c := { c with lastResponse := {} }
  let reply := sendCommand srv command.request c.engine
  let c := c.sent command.request BufferStatusResponse.outputBuffer reply
  match reply.1 with
  | .ok res => (.ok res, { c with lastResponse := res })
  | .error what => (.error what, c)

def boolToString (b : Bool) : String := if b then "1" else "0"

def executePut (srv : Server E) (inputChar : Str) (c : CEngineClient E) :
    BufferStatusResponse × CEngineClient E :=
  let c := c.logToImeFile (">>> ExecutePut called with char: " ++ String.ofList inputChar)
  let c := { c with lastResponse := {} }
  let c :=
    if inputChar.isEmpty then c
    else
      let reply := sendPut srv inputChar c.engine
      let c := c.sent (.put inputChar) BufferStatusResponse.outputBuffer reply
      match reply.1 with
      | .ok res =>
        { c with lastResponse := res }
          |>.logToImeFile "=== Glaze network pass completed successfully"
          |>.logToImeFile ("    Server outputBuffer: " ++ String.ofList res.outputBuffer)
          |>.logToImeFile ("    Server buffer: " ++ String.ofList res.buffer)
          |>.logToImeFile ("    Server commandSucceed: " ++ boolToString res.commandSucceed)
      | .error what => c.logToImeFile ("❌ EXCEPTION CAUGHT: " ++ what)
  let c := c.logToImeFile ("<<< ExecutePut returning. commandSucceed state is: " ++
    boolToString c.lastResponse.commandSucceed)
  (c.lastResponse, c)

end CEngineClient

namespace Server

variable {E R : Type}

def reply (srv : Server E) (read : Str → Option R) (request : Request) (e : E) : Option R :=
  if srv.writeJson request then
    (srv.post request e).1.bind fun response =>
      if response.statusCode = 200 then read response.responseBody else none
  else none

def status (srv : Server E) : Request → E → Option BufferStatusResponse := srv.reply srv.readStatus

def committed (srv : Server E) (e : E) : Option CommitResponse := srv.reply srv.readCommit .commit e

def after (srv : Server E) (request : Request) (e : E) : E :=
  if srv.writeJson request then (srv.post request e).2 else e

theorem send_toOption (srv : Server E) (request : Request) (read : Str → Option R)
    (errors : GlazeClient.Errors) (e : E) :
    (GlazeClient.send srv request read errors e).1.toOption = srv.reply read request e := by
  unfold GlazeClient.send reply
  split_ifs with hw
  · cases hp : (srv.post request e).1 with
    | none => simp [hp, Except.toOption]
    | some response =>
      by_cases hs : response.statusCode = 200
      · cases hr : read response.responseBody <;> simp [hp, hs, hr, Except.toOption]
      · simp [hp, hs, Except.toOption]
  · rfl

theorem send_engine (srv : Server E) (request : Request) (read : Str → Option R)
    (errors : GlazeClient.Errors) (e : E) :
    (GlazeClient.send srv request read errors e).2 = srv.after request e := by
  unfold GlazeClient.send after
  split_ifs with hw
  · cases hp : (srv.post request e).1 with
    | none => simp [hp]
    | some response =>
      by_cases hs : response.statusCode = 200
      · cases hr : read response.responseBody <;> simp [hp, hs, hr]
      · simp [hp, hs]
  · rfl

theorem send_of_reply {srv : Server E} {request : Request} {read : Str → Option R} {e : E} {res : R}
    (errors : GlazeClient.Errors) (h : srv.reply read request e = some res) :
    GlazeClient.send srv request read errors e = (.ok res, srv.after request e) := by
  have ho := (send_toOption srv request read errors e).trans h
  have he := send_engine srv request read errors e
  generalize GlazeClient.send srv request read errors e = a at ho he
  obtain ⟨x, e'⟩ := a
  cases x with
  | error what => simp [Except.toOption] at ho
  | ok r =>
    simp only [Except.toOption, Option.some.injEq] at ho
    rw [ho]
    exact Prod.ext rfl he

theorem send_of_no_reply {srv : Server E} {request : Request} {read : Str → Option R} {e : E}
    (errors : GlazeClient.Errors) (h : srv.reply read request e = none) :
    ∃ what, GlazeClient.send srv request read errors e = (.error what, srv.after request e) := by
  have ho := (send_toOption srv request read errors e).trans h
  have he := send_engine srv request read errors e
  generalize GlazeClient.send srv request read errors e = a at ho he
  obtain ⟨x, e'⟩ := a
  cases x with
  | error what => exact ⟨what, Prod.ext rfl he⟩
  | ok r => simp [Except.toOption] at ho

end Server

namespace CEngineClient

variable {E : Type}

open GlazeClient

def asked (srv : Server E) (request : Request) (c : CEngineClient E) : CEngineClient E :=
  { c with
    lastResponse := (srv.status request c.engine).getD {}
    engine := srv.after request c.engine
    exchanges := c.exchanges ++
      [⟨request, (srv.status request c.engine).map BufferStatusResponse.outputBuffer⟩] }

def drained (srv : Server E) (c : CEngineClient E) : CEngineClient E :=
  { c with
    engine := srv.after .commit c.engine
    exchanges := c.exchanges ++ [⟨.commit, (srv.committed c.engine).map CommitResponse.output⟩] }

def drainedText (srv : Server E) (c : CEngineClient E) : Str :=
  ((srv.committed c.engine).getD {}).output

theorem reset_eq (srv : Server E) (c : CEngineClient E) :
    (c.reset srv).2 = c.asked srv .reset := by
  cases h : srv.status .reset c.engine with
  | none =>
    obtain ⟨what, hs⟩ := Server.send_of_no_reply commandErrors h
    simp [reset, sendCommand, hs, asked, sent, h, Except.toOption]
  | some res =>
    simp [reset, sendCommand, Server.send_of_reply commandErrors h, asked, sent, h, Except.toOption]

theorem select_eq (srv : Server E) (n : Int32) (c : CEngineClient E) :
    c.select srv n = ((c.asked srv (.select n)).lastResponse, c.asked srv (.select n)) := by
  cases h : srv.status (.select n) c.engine with
  | none =>
    obtain ⟨what, hs⟩ := Server.send_of_no_reply selectErrors h
    simp [select, sendSelect, hs, asked, sent, h, Except.toOption]
  | some res =>
    simp [select, sendSelect, Server.send_of_reply selectErrors h, asked, sent, h, Except.toOption]

theorem commit_eq (srv : Server E) (c : CEngineClient E) :
    c.commit srv = (⟨c.drainedText srv⟩, c.drained srv) := by
  cases h : srv.committed c.engine with
  | none =>
    obtain ⟨what, hs⟩ := Server.send_of_no_reply commitErrors h
    simp [commit, sendCommit, hs, drained, drainedText, sent, h, Except.toOption]
  | some res =>
    simp [commit, sendCommit, Server.send_of_reply commitErrors h, drained, drainedText, sent, h,
      Except.toOption]

theorem executeCommand_ok {srv : Server E} {command : EngineCommand} {c : CEngineClient E}
    {res : BufferStatusResponse} (h : srv.status command.request c.engine = some res) :
    c.executeCommand srv command = (.ok res, c.asked srv command.request) := by
  simp [executeCommand, sendCommand, Server.send_of_reply commandErrors h, asked, sent, h,
    Except.toOption]

theorem executeCommand_error {srv : Server E} {command : EngineCommand} {c : CEngineClient E}
    (h : srv.status command.request c.engine = none) :
    ∃ what, c.executeCommand srv command = (.error what, c.asked srv command.request) := by
  obtain ⟨what, hs⟩ := Server.send_of_no_reply commandErrors h
  exact ⟨what, by
    simp [executeCommand, sendCommand, hs, asked, sent, h, Except.toOption]⟩

theorem executePut_eq (srv : Server E) {inputChar : Str} (hi : inputChar ≠ []) (c : CEngineClient E) :
    ∃ log, (c.executePut srv inputChar).2 = { c.asked srv (.put inputChar) with log := log } := by
  cases h : srv.status (.put inputChar) c.engine with
  | none =>
    obtain ⟨what, hs⟩ := Server.send_of_no_reply putErrors h
    simp [executePut, sendPut, hs, asked, sent, h, hi, logToImeFile, Except.toOption]
  | some res =>
    simp [executePut, sendPut, Server.send_of_reply putErrors h, asked, sent, h, hi,
      logToImeFile, Except.toOption]

end CEngineClient

end TCodeIME
