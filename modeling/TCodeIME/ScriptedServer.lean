import TCodeIME.Events

/-!
A server that answers from a script, one answer a request, and a fresh text service on it: the
runs of the counterexamples are runs of these.
-/

namespace TCodeIME

inductive Answer where
  | status (r : BufferStatusResponse)
  | commit (r : CommitResponse)
  | failure
deriving DecidableEq

namespace Answer

def quote (s : Str) : Str := "\"".toList ++ s ++ "\"".toList

def statusJson (r : BufferStatusResponse) : Str :=
  "\x7b\"outputBuffer\":".toList ++ quote r.outputBuffer ++
    ",\"buffer\":".toList ++ quote r.buffer ++
    ",\"candidates\":[".toList ++ List.intercalate ",".toList (r.candidates.map quote) ++
    "],\"lastCharAsKey\":".toList ++ quote r.lastCharAsKey ++
    ",\"commandSucceed\":".toList ++ (if r.commandSucceed then "true" else "false").toList ++
    "\x7d".toList

def commitJson (r : CommitResponse) : Str :=
  "\x7b\"output\":".toList ++ quote r.output ++ "\x7d".toList

def body : Answer → Option Str
  | .status r => some (statusJson r)
  | .commit r => some (commitJson r)
  | .failure => none

def readStatus (text : Str) : Answer → Option BufferStatusResponse
  | .status r => if statusJson r = text then some r else none
  | _ => none

def readCommit (text : Str) : Answer → Option CommitResponse
  | .commit r => if commitJson r = text then some r else none
  | _ => none

end Answer

/-- The state counts the requests received. -/
def Server.scripted (script : List Answer) : Server ℕ where
  writeJson _ := true
  post _ n := ((script[n]?.bind Answer.body).map (HttpResponse.mk 200), n + 1)
  readStatus text := script.findSome? (Answer.readStatus text)
  readCommit text := script.findSome? (Answer.readCommit text)

namespace Server

def statusAt (script : List Answer) (n : ℕ) : Option BufferStatusResponse :=
  (script[n]?.bind Answer.body).bind (scripted script).readStatus

def committedAt (script : List Answer) (n : ℕ) : Option CommitResponse :=
  (script[n]?.bind Answer.body).bind (scripted script).readCommit

theorem scripted_reply {R : Type} (script : List Answer) (read : Str → Option R) (request : Request)
    (n : ℕ) : (scripted script).reply read request n = (script[n]?.bind Answer.body).bind read := by
  simp only [reply, scripted, if_true]
  cases script[n]?.bind Answer.body <;> simp

theorem scripted_status (script : List Answer) (request : Request) (n : ℕ) :
    (scripted script).status request n = statusAt script n := scripted_reply script _ request n

theorem scripted_committed (script : List Answer) (n : ℕ) :
    (scripted script).committed n = committedAt script n := scripted_reply script _ .commit n

theorem lt_length_of_statusAt {script : List Answer} {n : ℕ} {r : BufferStatusResponse}
    (h : statusAt script n = some r) : n < script.length := by
  by_contra hn
  rw [statusAt, List.getElem?_eq_none (Nat.le_of_not_lt hn)] at h
  cases h

theorem lt_length_of_committedAt {script : List Answer} {n : ℕ} {c : CommitResponse}
    (h : committedAt script n = some c) : n < script.length := by
  by_contra hn
  rw [committedAt, List.getElem?_eq_none (Nat.le_of_not_lt hn)] at h
  cases h

end Server

def blank : MarkedText WChar CompositionId where
  text := []
  selection := .caret 0
  marks _ := none
  placements _ := .caret 0
  selection_le := Nat.le_refl 0
  marks_le := by simp

theorem blank_marks (_c : ContextId) (i : CompositionId) : blank.marks i = none := rfl

def CTCodeIME.fresh : CTCodeIME ℕ := construct 0 (fun _ => blank) (fun _ _ => rfl) ⟨none, none⟩

def Event.key (wParam : ℕ) : Event := .keyDown {} 0 wParam {}

def Event.ctrlSlash : Event := .keyDown {} 0 VK_OEM_2 { control := true }

end TCodeIME
