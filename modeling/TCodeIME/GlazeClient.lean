import TCodeIME.GlazeModels

namespace TCodeIME

structure HttpResponse where
  statusCode : ℕ
  responseBody : Str

/-- What `GlazeClient` relies on and the repository does not contain: the glaze library's JSON
reader and writer, and the engine behind the HTTP client, with a state of any type. A post may
reach the engine although no response comes back. -/
structure Server (E : Type) where
  writeJson : Request → Bool
  post : Request → E → Option HttpResponse × E
  readStatus : Str → Option BufferStatusResponse
  readCommit : Str → Option CommitResponse

namespace GlazeClient

def serverBaseUrl : String := "http://127.0.0.1:57001"

structure Errors where
  serialization : String
  network : String
  status : ℕ → String
  parse : String

variable {E R : Type}

/-- The common body of the four `Send` functions. -/
def send (srv : Server E) (request : Request) (read : Str → Option R) (errors : Errors) (e : E) :
    Except String R × E :=
  if srv.writeJson request then
    let sent := srv.post request e
    match sent.1 with
    | none => (.error errors.network, sent.2)
    | some response =>
      if response.statusCode = 200 then
        match read response.responseBody with
        | none => (.error errors.parse, sent.2)
        | some res => (.ok res, sent.2)
      else (.error (errors.status response.statusCode), sent.2)
  else (.error errors.serialization, e)

def putErrors : Errors where
  serialization := "Glaze Serialization Error on Put request"
  network := "Network Failure on Put"
  status code := "HTTP Status Error on Put: " ++ serverBaseUrl ++ "/v1/tcode/put" ++ code.repr
  parse := "Glaze Parse Failure on /put response"

def commandErrors : Errors where
  serialization := "Glaze Serialization Error on Command request"
  network := "Network Failure on Command"
  status code := "HTTP Status Error on Command: " ++ code.repr
  parse := "Glaze Parse Failure on command response"

def selectErrors : Errors where
  serialization := "Glaze Serialization Error on Select request"
  network := "Network Failure on Select"
  status code := "HTTP Status Error on Select: " ++ code.repr
  parse := "Glaze Parse Failure on /select response"

def commitErrors : Errors where
  serialization := "Glaze Serialization Error on Commit request"
  network := "Network Failure on Commit"
  status code := "HTTP Status Error on Commit: " ++ code.repr
  parse := "Glaze Parse Failure on /commit response"

def sendPut (srv : Server E) (targetChar : Str) (e : E) : Except String BufferStatusResponse × E :=
  send srv (.put targetChar) srv.readStatus putErrors e

def sendCommand (srv : Server E) (action : Request) (e : E) : Except String BufferStatusResponse × E :=
  send srv action srv.readStatus commandErrors e

def sendSelect (srv : Server E) (selectionIndex : Int32) (e : E) :
    Except String BufferStatusResponse × E :=
  send srv (.select selectionIndex) srv.readStatus selectErrors e

def sendCommit (srv : Server E) (e : E) : Except String CommitResponse × E :=
  send srv .commit srv.readCommit commitErrors e

end GlazeClient

end TCodeIME
