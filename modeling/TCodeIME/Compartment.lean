import Mathlib.Data.UInt

namespace TCodeIME

inductive InputMode where
  | direct
  | tcode
deriving DecidableEq

def TF_CONVERSIONMODE_ALPHANUMERIC : UInt32 := 0x00
def TF_CONVERSIONMODE_NATIVE : UInt32 := 0x01
def TF_CONVERSIONMODE_FULLSHAPE : UInt32 := 0x08
def TF_CONVERSIONMODE_ROMAN : UInt32 := 0x10

/-- The values of the thread manager's two keyboard compartments; `none` is a value of another
type than `VT_I4`, as a compartment has that was never set. -/
structure Compartments where
  openClose : Option UInt32
  conversion : Option UInt32
deriving DecidableEq

structure CompartmentOutcomes where
  getConversion : Bool := true
  setOpenClose : Bool := true
  setConversion : Bool := true
deriving DecidableEq

namespace Compartments

def getInputMode (o : CompartmentOutcomes) (pThreadMgr : Bool) (c : Compartments) : InputMode :=
  if pThreadMgr ∧ o.getConversion then
    match c.conversion with
    | none => .direct
    | some val => if val &&& TF_CONVERSIONMODE_NATIVE = 0 then .direct else .tcode
  else .direct

def conversionValue : InputMode → UInt32
  | .tcode => TF_CONVERSIONMODE_NATIVE ||| TF_CONVERSIONMODE_FULLSHAPE ||| TF_CONVERSIONMODE_ROMAN
  | .direct => TF_CONVERSIONMODE_ALPHANUMERIC

def setInputMode (o : CompartmentOutcomes) (pThreadMgr : Bool) (mode : InputMode)
    (c : Compartments) : Compartments :=
  if pThreadMgr ∧ o.setOpenClose then
    let c := { c with openClose := some 1 }
    if o.setConversion then { c with conversion := some (conversionValue mode) } else c
  else c

theorem getInputMode_tcode {o : CompartmentOutcomes} {pThreadMgr : Bool} {c : Compartments}
    (h : c.getInputMode o pThreadMgr = .tcode) : pThreadMgr = true := by
  unfold getInputMode at h
  split_ifs at h with hm
  exact hm.1

theorem getInputMode_of_inactive (o : CompartmentOutcomes) (c : Compartments) :
    c.getInputMode o false = .direct := by
  simp [getInputMode]

theorem getInputMode_setInputMode {o : CompartmentOutcomes} (ho : o.getConversion = true)
    (hs : o.setOpenClose = true) (hc : o.setConversion = true) (mode : InputMode)
    (c : Compartments) : (c.setInputMode o true mode).getInputMode o true = mode := by
  cases mode <;> simp [setInputMode, getInputMode, ho, hs, hc, conversionValue] <;> decide

end Compartments

end TCodeIME
