import TCodeIME.EditSession

/-!
The references to the composition and to ranges that an edit session takes and releases.
-/

namespace TCodeIME

inductive Reference where
  | composition (n : ℕ)
  | range (n : ℕ)
deriving DecidableEq

def Reference.number : Reference → ℕ
  | .composition n => n
  | .range n => n

/-! Whether each call in the parts of `DoEditSession` succeeds, and whether it re-enters
`OnCompositionTerminated` before it returns. -/

structure CommitCalls where
  getRange : Bool := true
  getSelection : Bool := true
  setTextReenters : Bool := false
  endCompositionReenters : Bool := false
  setSelectionReenters : Bool := false
deriving DecidableEq

structure ClearCalls where
  getRange : Bool := true
  setTextReenters : Bool := false
  endCompositionReenters : Bool := false
deriving DecidableEq

/-- The composition that `StartComposition` starts is terminated again before it is stored in
`_pComposition`, or after. -/
inductive StartReentry where
  | never
  | beforeStored
  | afterStored
deriving DecidableEq

structure StartCalls where
  queryInterface : Bool := true
  getSelection : Bool := true
  startComposition : StartOutcome := .started
  startReentry : StartReentry := .never
  getRange : Bool := true
  setTextReenters : Bool := false
  setSelectionReenters : Bool := false
deriving DecidableEq

/-- `listOpen` says that there is a candidate list with a valid element id. -/
structure LayoutCalls where
  listOpen : Bool := false
  getActiveView : Bool := true
  getRange : Bool := true
deriving DecidableEq

structure SessionCalls where
  commit : CommitCalls := {}
  clear : ClearCalls := {}
  start : StartCalls := {}
  layout : LayoutCalls := {}
deriving DecidableEq

/-- `_pComposition`, the references that were ever obtained and those released since. -/
structure CompositionRefs where
  pComposition : Option Reference := none
  obtained : List Reference := []
  released : List Reference := []
  next : ℕ := 0
deriving DecidableEq

/-! A call through a null pointer, or through a reference that is released, has no result. -/

namespace CompositionRefs

def use (r : Reference) (s : CompositionRefs) : Option CompositionRefs :=
  if r ∈ s.obtained ∧ r ∉ s.released then some s else none

def release (r : Reference) (s : CompositionRefs) : Option CompositionRefs :=
  (s.use r).map fun s => { s with released := r :: s.released }

def useComposition (s : CompositionRefs) : Option CompositionRefs :=
  match s.pComposition with
  | some r => s.use r
  | none => none

/-- `_pComposition->Release()` and `_pComposition = nullptr` -/
def releaseComposition (s : CompositionRefs) : Option CompositionRefs :=
  match s.pComposition with
  | some r => (s.release r).map fun s => { s with pComposition := none }
  | none => none

def onCompositionTerminated (s : CompositionRefs) : Option CompositionRefs :=
  if s.pComposition.isSome then s.releaseComposition else some s

def reenter (reenters : Bool) (s : CompositionRefs) : Option CompositionRefs :=
  if reenters then s.onCompositionTerminated else some s

def obtainRange (succeeds : Bool) (s : CompositionRefs) : Option Reference × CompositionRefs :=
  if succeeds then
    (some (.range s.next),
      { s with obtained := .range s.next :: s.obtained, next := s.next + 1 })
  else (none, s)

def getRange (succeeds : Bool) (s : CompositionRefs) :
    Option (Option Reference × CompositionRefs) :=
  s.useComposition.map (obtainRange succeeds)

def endComposition (reenters : Bool) (s : CompositionRefs) : Option CompositionRefs := do
  let s ← s.useComposition
  let s ← s.reenter reenters
  s.releaseComposition

def setText (r : Reference) (reenters : Bool) (s : CompositionRefs) : Option CompositionRefs := do
  let s ← s.use r
  s.reenter reenters

def collapseAndSelect (r : Reference) (reenters : Bool) (s : CompositionRefs) :
    Option CompositionRefs := do
  let s ← s.use r
  let s ← s.use r
  let s ← s.reenter reenters
  s.release r

def storeComposition (o : StartOutcome) (s : CompositionRefs) : CompositionRefs :=
  match o with
  | .failed => s
  | .rejected => { s with pComposition := none }
  | .started =>
    { s with
      pComposition := some (.composition s.next)
      obtained := .composition s.next :: s.obtained
      next := s.next + 1 }

def startComposition (o : StartOutcome) (reentry : StartReentry) (s : CompositionRefs) :
    Option CompositionRefs := do
  let s ← s.reenter (reentry = .beforeStored)
  (s.storeComposition o).reenter (reentry = .afterStored)

/-- `~CTCodeIME` -/
def destroy (s : CompositionRefs) : Option CompositionRefs :=
  match s.pComposition with
  | some r => s.release r
  | none => some s

def committedRange (o : CommitCalls) (s : CompositionRefs) :
    Option (Option Reference × CompositionRefs) :=
  if s.pComposition.isSome then s.getRange o.getRange else some (s.obtainRange o.getSelection)

/-- `_pComposition` is tested again after `SetText`. -/
def endIfComposing (reenters : Bool) (s : CompositionRefs) : Option CompositionRefs :=
  if s.pComposition.isSome then s.endComposition reenters else some s

def insertCommitted (o : CommitCalls) (r : Reference) (s : CompositionRefs) :
    Option CompositionRefs := do
  let s ← s.setText r o.setTextReenters
  let s ← s.endIfComposing o.endCompositionReenters
  s.collapseAndSelect r o.setSelectionReenters

/-- Part 1 of `DoEditSession` -/
def commitText (o : CommitCalls) (committed : WString) (s : CompositionRefs) :
    Option CompositionRefs :=
  if committed.isEmpty then some s
  else do
    let (pRange, s) ← s.committedRange o
    match pRange with
    | none => some s
    | some r => s.insertCommitted o r

/-- Part 2, the old composition -/
def clearComposition (o : ClearCalls) (s : CompositionRefs) : Option CompositionRefs :=
  if s.pComposition.isNone then some s
  else do
    let (pOldRange, s) ← s.getRange o.getRange
    match pOldRange with
    | none => s.endComposition o.endCompositionReenters
    | some r =>
      let s ← s.setText r o.setTextReenters
      let s ← s.release r
      s.endComposition o.endCompositionReenters

def insertComposition (o : StartCalls) (s : CompositionRefs) : Option CompositionRefs := do
  let (pNewRange, s) ← s.getRange o.getRange
  match pNewRange with
  | none => some s
  | some r =>
    let s ← s.setText r o.setTextReenters
    s.collapseAndSelect r o.setSelectionReenters

def insertIfStarted (o : StartCalls) (s : CompositionRefs) : Option CompositionRefs :=
  if o.startComposition = .failed then some s else s.insertComposition o

def startAt (o : StartCalls) (r : Reference) (s : CompositionRefs) : Option CompositionRefs := do
  let s ← s.use r
  let s ← s.startComposition o.startComposition o.startReentry
  let s ← s.insertIfStarted o
  s.release r

/-- Part 2, the new composition -/
def startPreedit (o : StartCalls) (composition : WString) (s : CompositionRefs) :
    Option CompositionRefs :=
  if composition.isEmpty ∨ o.queryInterface = false then some s
  else
    match s.obtainRange o.getSelection with
    | (none, s) => some s
    | (some r, s) => s.startAt o r

/-- Part 3 measures the text for the candidate window. -/
def moveCandidateWindow (o : LayoutCalls) (s : CompositionRefs) : Option CompositionRefs :=
  if s.pComposition.isNone ∨ o.listOpen = false ∨ o.getActiveView = false then some s
  else do
    let (pRange, s) ← s.getRange o.getRange
    match pRange with
    | none => some s
    | some r =>
      let s ← s.use r
      s.release r

def doEditSession (o : SessionCalls) (committed composition : WString) (s : CompositionRefs) :
    Option CompositionRefs := do
  let s ← s.commitText o.commit committed
  let s ← s.clearComposition o.clear
  let s ← s.startPreedit o.start composition
  s.moveCandidateWindow o.layout

end CompositionRefs

end TCodeIME
