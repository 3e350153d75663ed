import TCodeIME.Library.ReferenceCounts
import TCodeIME.Library.Runs

/-!
The COM objects of the DLL and the references that keep them and the DLL in memory.
-/

open ReferenceCounts

namespace TCodeIME

inductive HRESULT where
  | S_OK
  | S_FALSE
  | E_INVALIDARG
  | E_NOINTERFACE
  | CLASS_E_CLASSNOTAVAILABLE
  | CLASS_E_NOAGGREGATION
deriving DecidableEq

/-- Interface ids that some object of the DLL knows, and `other` for all the rest. -/
inductive InterfaceId where
  | iUnknown
  | iClassFactory
  | iTfTextInputProcessor
  | iTfTextInputProcessorEx
  | iTfKeyEventSink
  | iTfCompositionSink
  | iTfCompartmentEventSink
  | iTfTextLayoutSink
  | iTfThreadFocusSink
  | iTfLangBarItemButton
  | iTfLangBarItem
  | iTfSource
  | iTfUIElement
  | iTfCandidateListUIElement
  | other
deriving DecidableEq

inductive ComObject where
  | classFactory (n : ℕ)
  | ime (n : ℕ)
  | modeButton (n : ℕ)
  | candidateList (n : ℕ)
deriving DecidableEq

namespace ComObject

def number : ComObject → ℕ
  | .classFactory n => n
  | .ime n => n
  | .modeButton n => n
  | .candidateList n => n

def supports : ComObject → InterfaceId → Bool
  | .classFactory _, riid => riid = .iUnknown ∨ riid = .iClassFactory
  | .ime _, riid =>
    riid = .iUnknown ∨ riid = .iTfTextInputProcessor ∨ riid = .iTfTextInputProcessorEx ∨
      riid = .iTfKeyEventSink ∨ riid = .iTfCompositionSink ∨ riid = .iTfCompartmentEventSink ∨
      riid = .iTfTextLayoutSink ∨ riid = .iTfThreadFocusSink
  | .modeButton _, riid =>
    riid = .iUnknown ∨ riid = .iTfLangBarItemButton ∨ riid = .iTfLangBarItem ∨ riid = .iTfSource
  | .candidateList _, riid =>
    riid = .iUnknown ∨ riid = .iTfUIElement ∨ riid = .iTfCandidateListUIElement

/-- The mode button alone neither calls `DllAddRef` nor `DllRelease`. -/
def weight : ComObject → ℤ
  | .modeButton _ => 0
  | _ => 1

def modeButton? : ComObject → Option ℕ
  | .modeButton b => some b
  | _ => none

end ComObject

open ComObject

/-- The heap's module count is `g_cRefDll`. `held` are the references that clients were given and
have not released, `locks` the calls of `LockServer` that are not undone. -/
structure Dll where
  heap : Heap ComObject
  held : Multiset ComObject := 0
  next : ℕ := 0
  pThreadMgr : ℕ → Bool := fun _ => false
  locks : ℕ := 0

namespace Dll

def loaded (cRefDll : ℤ) : Dll := { heap := { moduleCount := cRefDll } }

def cRefDll (s : Dll) : ℤ := s.heap.moduleCount

def dllCanUnloadNow (s : Dll) : HRESULT := if s.cRefDll = 0 then .S_OK else .S_FALSE

def pModeButton (k : ℕ) (s : Dll) : Option ℕ := (s.heap.owned (.ime k)).findSome? modeButton?

def queryInterface (o : ComObject) (riid : InterfaceId) (ppvObj : Bool) (s : Dll) : HRESULT × Dll :=
  if ppvObj = false then (.E_INVALIDARG, s)
  else if o.supports riid then
    (.S_OK, { s with heap := s.heap.addRef o, held := o ::ₘ s.held })
  else (.E_NOINTERFACE, s)

/-- `Release` through a pointer that is not a client's. -/
def releaseLocal (o : ComObject) (s : Dll) : Dll := { s with heap := s.heap.release weight [o] }

def addRef (o : ComObject) (s : Dll) : Dll :=
  { s with heap := s.heap.addRef o, held := o ::ₘ s.held }

def release (o : ComObject) (s : Dll) : Dll :=
  { s with heap := s.heap.release weight [o], held := s.held.erase o }

def constructClassFactory (n : ℕ) (h : Heap ComObject) : Heap ComObject :=
  h.create weight (.classFactory n)

def constructModeButton (b k : ℕ) (h : Heap ComObject) : Heap ComObject :=
  ((h.create weight (.modeButton b)).addRef (.ime k)).setOwned (.modeButton b) [.ime k]

/-- `Attach` takes over the reference that a constructor leaves. -/
def attachModeButton (b k : ℕ) (h : Heap ComObject) : Heap ComObject :=
  (constructModeButton b k h).setOwned (.ime k) (h.owned (.ime k) ++ [.modeButton b])

def attachCandidateList (n : ℕ) (h : Heap ComObject) : Heap ComObject :=
  (h.create weight (.candidateList n)).setOwned (.ime n) (.candidateList n :: h.owned (.ime n))

/-- The members are listed in the order in which the destructor releases them. -/
def constructTCodeIME (n : ℕ) (h : Heap ComObject) : Heap ComObject :=
  attachCandidateList n (attachModeButton n n (h.create weight (.ime n)))

def dllGetClassObject (rclsid : Bool) (riid : InterfaceId) (ppv : Bool) (s : Dll) : HRESULT × Dll :=
  if ppv = false then (.E_INVALIDARG, s)
  else if rclsid = false then (.CLASS_E_CLASSNOTAVAILABLE, s)
  else
    let pClassFactory := .classFactory s.next
    let t := { s with heap := constructClassFactory s.next s.heap, next := s.next + 1 }
    let r := t.queryInterface pClassFactory riid true
    (r.1, r.2.releaseLocal pClassFactory)

def createInstance (pUnkOuter : Bool) (riid : InterfaceId) (ppvObj : Bool) (s : Dll) :
    HRESULT × Dll :=
  if ppvObj = false then (.E_INVALIDARG, s)
  else if pUnkOuter then (.CLASS_E_NOAGGREGATION, s)
  else
    let pIME := .ime s.next
    let t := { s with heap := constructTCodeIME s.next s.heap, next := s.next + 1 }
    let r := t.queryInterface pIME riid true
    (r.1, r.2.releaseLocal pIME)

def lockServer (fLock : Bool) (s : Dll) : Dll :=
  if fLock then
    { s with heap.moduleCount := s.heap.moduleCount + 1, locks := s.locks + 1 }
  else
    { s with heap.moduleCount := s.heap.moduleCount - 1, locks := s.locks - 1 }

def addItem (b taken : ℕ) (s : Dll) : Dll := (addRef (.modeButton b))^[taken] s

def removeItem (b taken : ℕ) (s : Dll) : Dll := (release (.modeButton b))^[taken] s

def recreateModeButton (k : ℕ) (s : Dll) : Dll :=
  if s.pModeButton k = none then
    { s with heap := attachModeButton s.next k s.heap, next := s.next + 1 }
  else s

/-- `ActivateEx`, in which the language bar takes `taken` references when `AddItem` is called. -/
def activateEx (k taken : ℕ) (s : Dll) : Dll :=
  let s := recreateModeButton k { s with pThreadMgr := Function.update s.pThreadMgr k true }
  match s.pModeButton k with
  | some b => s.addItem b taken
  | none => s

/-- `_pModeButton = nullptr` -/
def dropModeButton (b k : ℕ) (s : Dll) : Dll :=
  releaseLocal (.modeButton b)
    { s with heap := s.heap.setOwned (.ime k) ((s.heap.owned (.ime k)).erase (.modeButton b)) }

def deactivate (k taken : ℕ) (s : Dll) : Dll :=
  if s.pThreadMgr k = false then s
  else
    let t :=
      match s.pModeButton k with
      | some b => (s.removeItem b taken).dropModeButton b k
      | none => s
    { t with pThreadMgr := Function.update t.pThreadMgr k false }

end Dll

/-- What clients of the DLL do. The arguments that say `Bool` tell whether the class id is the
DLL's and whether a pointer is there. -/
inductive ClientCall where
  | dllGetClassObject (rclsid : Bool) (riid : InterfaceId) (ppv : Bool)
  | createInstance (factory : ℕ) (pUnkOuter : Bool) (riid : InterfaceId) (ppvObj : Bool)
  | queryInterface (o : ComObject) (riid : InterfaceId) (ppvObj : Bool)
  | addRef (o : ComObject)
  | release (o : ComObject)
  | lockServer (factory : ℕ) (fLock : Bool)
  | activateEx (k taken : ℕ)
  | deactivate (k taken : ℕ)
deriving DecidableEq

namespace ClientCall

def activates (k : ℕ) : ClientCall → Bool
  | .activateEx j _ => j = k
  | _ => false

/-- `CreateInstance` constructs a `CTCodeIME` whatever interface it is asked for. -/
def constructs : ClientCall → Bool
  | .createInstance _ pUnkOuter _ ppvObj => ppvObj && !pUnkOuter
  | _ => false

end ClientCall

namespace Dll

def step (s : Dll) : ClientCall → Dll
  | .dllGetClassObject rclsid riid ppv => (s.dllGetClassObject rclsid riid ppv).2
  | .createInstance _ pUnkOuter riid ppvObj => (s.createInstance pUnkOuter riid ppvObj).2
  | .queryInterface o riid ppvObj => (s.queryInterface o riid ppvObj).2
  | .addRef o => s.addRef o
  | .release o => s.release o
  | .lockServer _ fLock => s.lockServer fLock
  | .activateEx k taken => s.activateEx k taken
  | .deactivate k taken => s.deactivate k taken

/-- A client calls and releases what it holds a reference to. It may also count a pointer that a
call hands it, as `BeginUIElement` and `AdviseSink` do. Activations come in pairs, and the language
bar releases no more than it took. -/
def Allowed (s : Dll) : ClientCall → Prop
  | .dllGetClassObject _ _ _ => True
  | .createInstance factory _ _ _ => .classFactory factory ∈ s.held
  | .queryInterface o _ _ => o ∈ s.held
  | .addRef o => s.heap.Live o
  | .release o => o ∈ s.held
  | .lockServer factory fLock => .classFactory factory ∈ s.held ∧ (fLock = false → 0 < s.locks)
  | .activateEx k _ => .ime k ∈ s.held ∧ s.pThreadMgr k = false
  | .deactivate k taken =>
    .ime k ∈ s.held ∧ ∀ b ∈ s.pModeButton k, taken ≤ s.held.count (.modeButton b)

instance (s : Dll) : ∀ e, Decidable (s.Allowed e)
  | .dllGetClassObject _ _ _ => isTrue trivial
  | .createInstance factory _ _ _ => inferInstanceAs (Decidable (.classFactory factory ∈ s.held))
  | .queryInterface o _ _ => inferInstanceAs (Decidable (o ∈ s.held))
  | .addRef o => inferInstanceAs (Decidable (s.heap.Live o))
  | .release o => inferInstanceAs (Decidable (o ∈ s.held))
  | .lockServer factory fLock =>
    inferInstanceAs (Decidable (.classFactory factory ∈ s.held ∧ (fLock = false → 0 < s.locks)))
  | .activateEx k _ => inferInstanceAs (Decidable (.ime k ∈ s.held ∧ s.pThreadMgr k = false))
  | .deactivate k taken =>
    inferInstanceAs (Decidable (.ime k ∈ s.held ∧
      ∀ b ∈ s.pModeButton k, taken ≤ s.held.count (.modeButton b)))

structure Quiescent (s : Dll) : Prop where
  held : s.held = 0
  inactive : ∀ k, s.pThreadMgr k = false
  locks : s.locks = 0

structure Drained (d : ℤ) (s : Dll) : Prop where
  destroyed : ∀ o ∈ s.heap.created, s.heap.destroyed.count o = 1
  cRefDll : s.cRefDll = d
  dllCanUnloadNow : s.dllCanUnloadNow = (loaded d).dllCanUnloadNow

def EachActivated : Dll → List ClientCall → Prop
  | _, [] => True
  | s, e :: es =>
    (e.constructs = true → es.any (·.activates s.next) = true) ∧ EachActivated (s.step e) es

instance decidableEachActivated : ∀ (s : Dll) (es : List ClientCall), Decidable (EachActivated s es)
  | _, [] => isTrue trivial
  | s, e :: es =>
    have : Decidable (EachActivated (s.step e) es) := decidableEachActivated (s.step e) es
    inferInstanceAs (Decidable
      ((e.constructs = true → es.any (·.activates s.next) = true) ∧ EachActivated (s.step e) es))

end Dll

end TCodeIME
