import TCodeIME.Events
import TCodeIME.Library.Registrations

/-!
The sinks that the text service advises, where they are registered, and the cookies it keeps of them.
-/

namespace TCodeIME

inductive SinkSource where
  | keystrokeMgr
  | threadMgr
  | openClose
  | conversion
  | context (c : ContextId)
deriving DecidableEq

/-- The key event sink is registered under the client id, which takes the place of a cookie. -/
structure SinkRegistration where
  source : SinkSource
  cookie : UInt32
deriving DecidableEq

abbrev SinkRegistry := Registrations.Registry SinkRegistration

def TF_INVALID_COOKIE : UInt32 := 0xFFFFFFFF
def TF_CLIENTID_NULL : UInt32 := 0

/-- What a call of `AdviseSink` comes to. A call that fails may write to the cookie as well. -/
inductive AdviseOutcome where
  | advised (cookie : UInt32)
  | failed (cookie : Option UInt32)
deriving DecidableEq

namespace AdviseOutcome

def written (field : UInt32) : AdviseOutcome → UInt32
  | .advised cookie => cookie
  | .failed cookie => cookie.getD field

def adviseSink (source : SinkSource) (r : SinkRegistry) : AdviseOutcome → SinkRegistry
  | .advised cookie => r.register ⟨source, cookie⟩
  | .failed _ => r

end AdviseOutcome

/-- An `AdviseSink` is `none` where a call before it fails. `getTop` covers `GetFocus` and `GetTop`. -/
structure ActivateExOutcomes where
  ime : ActivationOutcomes := {}
  adviseKeyEventSink : Bool := true
  openClose : Option AdviseOutcome := some (.advised 1)
  conversion : Option AdviseOutcome := some (.advised 1)
  threadFocus : Option AdviseOutcome := some (.advised 1)
  getTop : Bool := true
  layout : Option AdviseOutcome := some (.advised 1)

/-- Each flag says whether the calls before an `UnadviseSink` succeed. -/
structure DeactivateOutcomes where
  threadFocus : Bool := true
  getTop : Bool := true
  layout : Bool := true
  openClose : Bool := true
  conversion : Bool := true
  ui : UIOutcomes := {}
  queryKeystrokeMgr : Bool := true

structure SetThreadFocusOutcomes where
  getTop : Bool := true
  querySource : Bool := true
  layout : Option AdviseOutcome := some (.advised 1)

/-- `focus` is the top context of the document in focus, and `active` says whether the last of the calls
to `ActivateEx` and `Deactivate` was an `ActivateEx` that returned `S_OK`. -/
structure AdvisedIME (E : Type) where
  ime : CTCodeIME E
  tfClientId : UInt32 := TF_CLIENTID_NULL
  dwCompartmentEventSinkOpenCloseCookie : UInt32
  dwCompartmentEventSinkInputmodeConversionCookie : UInt32
  dwTextLayoutSinkCookie : UInt32 := 0
  dwThreadFocusSinkCookie : UInt32 := 0
  registry : SinkRegistry := {}
  focus : Option ContextId
  active : Bool := false

inductive SinkEvent where
  | activate (o : ActivateExOutcomes) (tid : UInt32)
  | deactivate (o : DeactivateOutcomes)
  | setThreadFocus (o : SetThreadFocusOutcomes)
  | killThreadFocus
  | moveFocus (focus : Option ContextId)

variable {E : Type}

namespace AdvisedIME

/-- The constructor leaves the cookies of the compartment sinks uninitialised. -/
def construct (ime : CTCodeIME E) (openClose conversion : UInt32) (focus : Option ContextId) :
    AdvisedIME E where
  ime := ime
  dwCompartmentEventSinkOpenCloseCookie := openClose
  dwCompartmentEventSinkInputmodeConversionCookie := conversion
  focus := focus

def focused (getTop : Bool) (s : AdvisedIME E) : Option ContextId := if getTop then s.focus else none

def initContextSink (layout : Option AdviseOutcome) (c : ContextId) (s : AdvisedIME E) : AdvisedIME E :=
  if s.dwTextLayoutSinkCookie ≠ 0 then s
  else
    { s with
      registry := layout.elim s.registry (·.adviseSink (.context c) s.registry)
      dwTextLayoutSinkCookie :=
        layout.elim s.dwTextLayoutSinkCookie (·.written s.dwTextLayoutSinkCookie) }

def uninitContextSink (querySource : Bool) (c : ContextId) (s : AdvisedIME E) : AdvisedIME E :=
  if s.dwTextLayoutSinkCookie ≠ 0 then
    let s :=
      if querySource then
        { s with registry := s.registry.undo ⟨.context c, s.dwTextLayoutSinkCookie⟩ }
      else s
    { s with dwTextLayoutSinkCookie := 0 }
  else s

/-- The cookie of a compartment sink. A call that is not reached leaves it alone. -/
def compartmentCookie (field : UInt32) : Option AdviseOutcome → UInt32
  | none => field
  | some (.advised cookie) => cookie
  | some (.failed _) => TF_INVALID_COOKIE

def initCompartmentEventSink (openClose conversion : Option AdviseOutcome) (s : AdvisedIME E) :
    AdvisedIME E :=
  let s :=
    { s with
      registry := openClose.elim s.registry (·.adviseSink .openClose s.registry)
      dwCompartmentEventSinkOpenCloseCookie :=
        compartmentCookie s.dwCompartmentEventSinkOpenCloseCookie openClose }
  { s with
    registry := conversion.elim s.registry (·.adviseSink .conversion s.registry)
    dwCompartmentEventSinkInputmodeConversionCookie :=
      compartmentCookie s.dwCompartmentEventSinkInputmodeConversionCookie conversion }

/-- Neither cookie is compared with `TF_INVALID_COOKIE` here, and neither is reset. -/
def uninitCompartmentEventSink (openClose conversion : Bool) (s : AdvisedIME E) : AdvisedIME E :=
  let s :=
    if openClose then
      { s with registry := s.registry.undo ⟨.openClose, s.dwCompartmentEventSinkOpenCloseCookie⟩ }
    else s
  if conversion then
    { s with
      registry := s.registry.undo ⟨.conversion, s.dwCompartmentEventSinkInputmodeConversionCookie⟩ }
  else s

def adviseKeyEventSink (o : ActivateExOutcomes) (s : AdvisedIME E) : AdvisedIME E :=
  { s with
    registry :=
      if o.ime.queryKeystrokeMgr ∧ o.adviseKeyEventSink then
        s.registry.register ⟨.keystrokeMgr, s.tfClientId⟩
      else s.registry }

def adviseThreadFocusSink (threadFocus : Option AdviseOutcome) (s : AdvisedIME E) : AdvisedIME E :=
  { s with
    registry := threadFocus.elim s.registry (·.adviseSink .threadMgr s.registry)
    dwThreadFocusSinkCookie :=
      threadFocus.elim s.dwThreadFocusSinkCookie (·.written s.dwThreadFocusSinkCookie) }

def adviseThreadSinks (o : ActivateExOutcomes) (tid : UInt32) (s : AdvisedIME E) : AdvisedIME E :=
  let s := { s with ime := (s.ime.activateEx o.ime).2, tfClientId := tid }
  let s := s.adviseKeyEventSink o
  let s := s.initCompartmentEventSink o.openClose o.conversion
  s.adviseThreadFocusSink o.threadFocus

def activateEx (o : ActivateExOutcomes) (tid : UInt32) (s : AdvisedIME E) : Bool × AdvisedIME E :=
  let activated := s.adviseThreadSinks o tid
  ((s.ime.activateEx o.ime).1,
    (activated.focused o.getTop).elim activated fun c => activated.initContextSink o.layout c)

def unadviseThreadFocusSink (threadFocus : Bool) (s : AdvisedIME E) : AdvisedIME E :=
  if s.dwThreadFocusSinkCookie ≠ 0 ∧ s.ime.pThreadMgr ∧ threadFocus then
    { s with
      registry := s.registry.undo ⟨.threadMgr, s.dwThreadFocusSinkCookie⟩
      dwThreadFocusSinkCookie := 0 }
  else s

def deactivate (o : DeactivateOutcomes) (s : AdvisedIME E) : AdvisedIME E :=
  let s := s.unadviseThreadFocusSink o.threadFocus
  let s :=
    if s.ime.pThreadMgr then
      let s := (s.focused o.getTop).elim s fun c => s.uninitContextSink o.layout c
      let s := s.uninitCompartmentEventSink o.openClose o.conversion
      if o.queryKeystrokeMgr then
        { s with registry := s.registry.withdraw ⟨.keystrokeMgr, s.tfClientId⟩ }
      else s
    else s
  { s with
    ime := (s.ime.deactivate o.ui).getD s.ime
    tfClientId := TF_CLIENTID_NULL }

def onSetThreadFocus (o : SetThreadFocusOutcomes) (s : AdvisedIME E) : AdvisedIME E :=
  if s.ime.pThreadMgr then
    (s.focused o.getTop).elim s fun c =>
      (s.uninitContextSink o.querySource c).initContextSink o.layout c
  else s

def onKillThreadFocus (s : AdvisedIME E) : AdvisedIME E := s

def step (s : AdvisedIME E) : SinkEvent → AdvisedIME E
  | .activate o tid =>
    let result := s.activateEx o tid
    { result.2 with active := result.1 }
  | .deactivate o => { s.deactivate o with active := false }
  | .setThreadFocus o => s.onSetThreadFocus o
  | .killThreadFocus => s.onKillThreadFocus
  | .moveFocus focus => { s with focus := focus }

/-! What each of these does to the registrations. -/

theorem mem_live_advised (source : SinkSource) (r : SinkRegistry) (a : Option AdviseOutcome)
    (x : SinkRegistration) :
    x ∈ (a.elim r (·.adviseSink source r)).live ↔
      (x.source = source ∧ a = some (.advised x.cookie)) ∨ x ∈ r.live := by
  obtain ⟨source', cookie'⟩ := x
  match a with
  | none => simp
  | some (.failed _) => simp [AdviseOutcome.adviseSink]
  | some (.advised _) => simp [AdviseOutcome.adviseSink, eq_comm]

theorem calls_advised (source : SinkSource) (r : SinkRegistry) (a : Option AdviseOutcome) :
    (a.elim r (·.adviseSink source r)).calls = r.calls := by
  match a with
  | none => rfl
  | some (.failed _) => rfl
  | some (.advised _) => rfl

theorem uninitContextSink_eq (querySource : Bool) (c : ContextId) (s : AdvisedIME E) :
    s.uninitContextSink querySource c =
      { s with
        registry := s.registry.undoAll (if s.dwTextLayoutSinkCookie ≠ 0 ∧ querySource then
          [⟨.context c, s.dwTextLayoutSinkCookie⟩] else [])
        dwTextLayoutSinkCookie := 0 } := by
  unfold uninitContextSink
  by_cases hcookie : s.dwTextLayoutSinkCookie = 0
  · rw [if_neg (by simpa using hcookie), if_neg (by simp [hcookie])]
    cases s
    cases hcookie
    rfl
  · rw [if_pos hcookie]
    cases querySource <;> simp [hcookie, Registrations.Registry.undoAll]

theorem uninitCompartmentEventSink_eq (openClose conversion : Bool) (s : AdvisedIME E) :
    s.uninitCompartmentEventSink openClose conversion =
      { s with
        registry := s.registry.undoAll
          ((if openClose then [⟨.openClose, s.dwCompartmentEventSinkOpenCloseCookie⟩] else []) ++
            if conversion then [⟨.conversion, s.dwCompartmentEventSinkInputmodeConversionCookie⟩]
            else []) } := by
  cases openClose <;> cases conversion <;> rfl

theorem unadviseThreadFocusSink_eq {s : AdvisedIME E} (hp : s.ime.pThreadMgr = true)
    (threadFocus : Bool) :
    s.unadviseThreadFocusSink threadFocus =
      { s with
        registry := s.registry.undoAll (if s.dwThreadFocusSinkCookie ≠ 0 ∧ threadFocus then
          [⟨.threadMgr, s.dwThreadFocusSinkCookie⟩] else [])
        dwThreadFocusSinkCookie :=
          if s.dwThreadFocusSinkCookie ≠ 0 ∧ threadFocus then 0 else s.dwThreadFocusSinkCookie } := by
  unfold unadviseThreadFocusSink
  rw [hp]
  by_cases h : s.dwThreadFocusSinkCookie ≠ 0 ∧ threadFocus = true
  · rw [if_pos ⟨h.1, rfl, h.2⟩, if_pos h, if_pos h]
    rfl
  · rw [if_neg (fun h' => h ⟨h'.1, h'.2.2⟩), if_neg h, if_neg h]
    rfl

/-- The `UnadviseSink` calls of `Deactivate`. -/
def undone (o : DeactivateOutcomes) (s : AdvisedIME E) : List SinkRegistration :=
  (if s.dwThreadFocusSinkCookie ≠ 0 ∧ o.threadFocus then
    [⟨.threadMgr, s.dwThreadFocusSinkCookie⟩] else []) ++
  (s.focused o.getTop).elim [] (fun c =>
    if s.dwTextLayoutSinkCookie ≠ 0 ∧ o.layout then [⟨.context c, s.dwTextLayoutSinkCookie⟩] else []) ++
  ((if o.openClose then [⟨.openClose, s.dwCompartmentEventSinkOpenCloseCookie⟩] else []) ++
    if o.conversion then [⟨.conversion, s.dwCompartmentEventSinkInputmodeConversionCookie⟩] else [])

theorem deactivate_registry {s : AdvisedIME E} (hp : s.ime.pThreadMgr = true)
    (o : DeactivateOutcomes) :
    (s.deactivate o).registry =
      if o.queryKeystrokeMgr then
        (s.registry.undoAll (s.undone o)).withdraw ⟨.keystrokeMgr, s.tfClientId⟩
      else s.registry.undoAll (s.undone o) := by
  unfold deactivate undone
  rw [unadviseThreadFocusSink_eq hp]
  dsimp only
  rw [if_pos hp]
  simp only [focused]
  cases (if o.getTop = true then s.focus else none) with
  | none =>
    simp only [Option.elim_none, List.append_nil, uninitCompartmentEventSink_eq,
      Registrations.Registry.undoAll_append]
    cases o.queryKeystrokeMgr <;> rfl
  | some c =>
    simp only [Option.elim_some, uninitContextSink_eq, uninitCompartmentEventSink_eq,
      Registrations.Registry.undoAll_append]
    cases o.queryKeystrokeMgr <;> rfl

end AdvisedIME

end TCodeIME
