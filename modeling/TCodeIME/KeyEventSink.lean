import TCodeIME.InputProcessor

namespace TCodeIME

abbrev VK_BACK : ℕ := 0x08
abbrev VK_RETURN : ℕ := 0x0D
abbrev VK_SHIFT : ℕ := 0x10
abbrev VK_CONTROL : ℕ := 0x11
abbrev VK_MENU : ℕ := 0x12
abbrev VK_SPACE : ℕ := 0x20
abbrev VK_PRIOR : ℕ := 0x21
abbrev VK_NEXT : ℕ := 0x22
abbrev VK_LEFT : ℕ := 0x25
abbrev VK_UP : ℕ := 0x26
abbrev VK_RIGHT : ℕ := 0x27
abbrev VK_DOWN : ℕ := 0x28
abbrev VK_LWIN : ℕ := 0x5B
abbrev VK_RWIN : ℕ := 0x5C
abbrev VK_OEM_1 : ℕ := 0xBA
abbrev VK_OEM_COMMA : ℕ := 0xBC
abbrev VK_OEM_PERIOD : ℕ := 0xBE
abbrev VK_OEM_2 : ℕ := 0xBF

/-- What `GetKeyState` reports for the modifier keys. -/
structure Modifiers where
  control : Bool := false
  menu : Bool := false
  lwin : Bool := false
  rwin : Bool := false
deriving DecidableEq

namespace Modifiers

def isWin (m : Modifiers) : Bool := m.lwin || m.rwin

def held (m : Modifiers) : Bool := m.control || m.menu || m.isWin

def isCtrlSlash (m : Modifiers) (wParam : ℕ) : Bool :=
  m.control && !m.menu && !m.isWin && wParam == VK_OEM_2

end Modifiers

def isCharacterKey (wParam : ℕ) : Bool :=
  (0x30 ≤ wParam && wParam ≤ 0x39) || (0x41 ≤ wParam && wParam ≤ 0x5A) ||
    (0xBA ≤ wParam && wParam ≤ 0xDF)

def tolower (c : ℕ) : ℕ := if 0x41 ≤ c ∧ c ≤ 0x5A then c + 0x20 else c

/-- The character `OnKeyDown` sends for a key; the other keys of the OEM block have none. -/
def inputChar (wParam : ℕ) : Option Str :=
  if (0x41 ≤ wParam ∧ wParam ≤ 0x5A) ∨ (0x30 ≤ wParam ∧ wParam ≤ 0x39) then
    some [Char.ofNat (tolower wParam)]
  else if wParam = VK_OEM_1 then some [';']
  else if wParam = VK_OEM_COMMA then some [',']
  else if wParam = VK_OEM_PERIOD then some ['.']
  else if wParam = VK_OEM_2 then some ['/']
  else none

/-- How the host answers during one key event, and what lies behind the string `GetLastKey` reads. -/
structure KeyOutcomes where
  compartment : CompartmentOutcomes := {}
  session : SessionOutcomes := {}
  ui : UIOutcomes := {}
  pastEnd : WChar := 0

inductive Exit where
  | returned
  | threw (what : String)
  | accessViolation
deriving DecidableEq

structure KeyResult (E : Type) where
  ime : CTCodeIME E
  pfEaten : Bool
  exit : Exit

variable {E : Type}

def KeyResult.finish (s : CTCodeIME E) (pfEaten : Bool) : Option (CTCodeIME E) → KeyResult E
  | some s => ⟨s, pfEaten, .returned⟩
  | none => ⟨s, pfEaten, .accessViolation⟩

namespace CTCodeIME

def onTestKeyDown (o : CompartmentOutcomes) (wParam : ℕ) (keys : Modifiers) (s : CTCodeIME E) : Bool :=
  let r := s.client.lastResponse
  if keys.isCtrlSlash wParam then true
  else if s.getInputMode o = .direct then false
  else if keys.held then false
  else if isCharacterKey wParam then true
  else if wParam = VK_SPACE then
    if r.hasCandidates then true
    else if r.getBuffer.isEmpty then false
    else true
  else if wParam = VK_LEFT ∨ wParam = VK_RIGHT ∨ wParam = VK_UP ∨ wParam = VK_DOWN then
    if r.hasCandidates then true
    else if !r.isBufferEmpty then decide (wParam = VK_LEFT ∨ wParam = VK_RIGHT)
    else false
  else if wParam = VK_RETURN then r.hasCandidates
  else if wParam = VK_BACK then !(r.isLastKeyEmpty && r.isBufferEmpty && r.isOutputBufferEmpty)
  else false

/-! The branches of `OnKeyDown`. -/

def onCtrlSlash (srv : Server E) (o : KeyOutcomes) (pic : ContextId) (s : CTCodeIME E) : KeyResult E :=
  let targetMode : InputMode :=
    if s.getInputMode o.compartment = .tcode then .direct else .tcode
  let s := (s.setInputMode o.compartment targetMode).updateIcon
  if targetMode = .direct then
    let edited :=
      if s.text.pComposition.isSome then s.requestEditSession o.session pic [] [] else some s
    let client := (s.client.reset srv).2
    .finish { s with client := client } true
      (edited.bind fun s => { s with client := client }.hideCandidateList o.ui)
  else ⟨s, true, .returned⟩

def onBack (srv : Server E) (o : KeyOutcomes) (pic : ContextId) (s : CTCodeIME E) : KeyResult E :=
  let r := s.client.lastResponse
  if r.isLastKeyEmpty && r.isBufferEmpty && r.isOutputBufferEmpty then ⟨s, false, .returned⟩
  else
    match s.client.executeCommand srv .backspace with
    | (.error what, client) => ⟨{ s with client := client }, true, .threw what⟩
    | (.ok _, client) =>
      let s := { s with client := client }
      let outputBuffer := client.lastResponse.getOutputBuffer
      let buffer := client.lastResponse.getBuffer ++ client.lastResponse.getLastKey o.pastEnd
      .finish s (!(buffer.isEmpty && outputBuffer.isEmpty))
        ((s.requestEditSession o.session pic outputBuffer buffer).bind (·.syncCandidateList o.ui))

def onCharacter (srv : Server E) (o : KeyOutcomes) (pic : ContextId) (wParam : ℕ)
    (s : CTCodeIME E) : KeyResult E :=
  match inputChar wParam with
  | none => ⟨s, false, .returned⟩
  | some ch =>
    let client := (s.client.executePut srv ch).2
    let flushed : WString × CEngineClient E :=
      if client.lastResponse.isOutputBufferEmpty then ([], client)
      else
        let commitRes := client.commit srv
        (utf8ToWide commitRes.1.output, commitRes.2)
    let s := { s with client := flushed.2 }
    let composition := flushed.2.lastResponse.getBuffer ++ flushed.2.lastResponse.getLastKey o.pastEnd
    .finish s true
      ((s.requestEditSession o.session pic flushed.1 composition).bind (·.syncCandidateList o.ui))

def onSpace (srv : Server E) (o : KeyOutcomes) (pic : ContextId) (s : CTCodeIME E) : KeyResult E :=
  if s.client.lastResponse.hasCandidates then
    .finish s true ({ s with selectedIndex := s.selectedIndex + 1 }.syncCandidateList o.ui)
  else if !s.client.lastResponse.isBufferEmpty then
    match s.client.executeCommand srv .convert with
    | (.error what, client) => ⟨{ s with client := client }, true, .threw what⟩
    | (.ok _, client) =>
      let s := { s with client := client }
      let committed := client.lastResponse.getOutputBuffer
      let composition := client.lastResponse.getBuffer ++ client.lastResponse.getLastKey o.pastEnd
      .finish s true
        ((s.requestEditSession o.session pic committed composition).bind (·.syncCandidateList o.ui))
  else .finish s false (s.syncCandidateList o.ui)

def movedIndex (wParam : ℕ) (selectedIndex : Int32) : Int32 :=
  if wParam = VK_DOWN ∨ wParam = VK_RIGHT then selectedIndex + 1
  else if wParam = VK_UP ∨ wParam = VK_LEFT then selectedIndex - 1
  else if wParam = VK_NEXT then selectedIndex + 9
  else if wParam = VK_PRIOR then selectedIndex - 9
  else selectedIndex

def boundIndex (totalCandidates : ℕ) (selectedIndex : Int32) : Int32 :=
  let i := if selectedIndex < 0 then 0 else selectedIndex
  if 0 < totalCandidates ∧ Int32.ofNat totalCandidates ≤ i then Int32.ofNat totalCandidates - 1 else i

def onNavigation (srv : Server E) (o : KeyOutcomes) (pic : ContextId) (wParam : ℕ)
    (s : CTCodeIME E) : KeyResult E :=
  if s.client.lastResponse.hasCandidates then
    let totalCandidates := s.client.lastResponse.getCandidates.length
    let selectedIndex := boundIndex totalCandidates (movedIndex wParam s.selectedIndex)
    .finish s true ({ s with selectedIndex := selectedIndex }.syncCandidateList o.ui)
  else if !s.client.lastResponse.isBufferEmpty ∧ (wParam = VK_LEFT ∨ wParam = VK_RIGHT) then
    match s.client.executeCommand srv (if wParam = VK_LEFT then .left else .right) with
    | (.error what, client) => ⟨{ s with client := client }, true, .threw what⟩
    | (.ok _, client) =>
      let s := { s with client := client }
      let composition := client.lastResponse.getBuffer
      let committed := client.lastResponse.getOutputBuffer ++ client.lastResponse.getLastKey o.pastEnd
      .finish s true (s.requestEditSession o.session pic committed composition)
  else ⟨s, false, .returned⟩

def onReturn (srv : Server E) (o : KeyOutcomes) (pic : ContextId) (s : CTCodeIME E) : KeyResult E :=
  if s.client.lastResponse.hasCandidates then
    let selectRes := s.client.select srv s.selectedIndex
    if selectRes.1.commandSucceed then
      let commitRes := selectRes.2.commit srv
      let s := { s with client := commitRes.2 }
      let committed := utf8ToWide commitRes.1.output
      .finish s true ((s.requestEditSession o.session pic committed []).bind fun s =>
        { s with selectedIndex := 0 }.syncCandidateList o.ui)
    else
      let s := { s with client := selectRes.2 }
      .finish s true ({ s with selectedIndex := 0 }.syncCandidateList o.ui)
  else .finish s false (s.syncCandidateList o.ui)

def onKeyDown (srv : Server E) (o : KeyOutcomes) (pic : ContextId) (wParam : ℕ) (keys : Modifiers)
    (s : CTCodeIME E) : KeyResult E :=
  if keys.isCtrlSlash wParam then s.onCtrlSlash srv o pic
  else if s.getInputMode o.compartment = .direct then ⟨s, false, .returned⟩
  else if wParam = VK_SHIFT ∨ wParam = VK_CONTROL ∨ wParam = VK_MENU ∨ wParam = VK_LWIN ∨
      wParam = VK_RWIN then ⟨s, false, .returned⟩
  else if keys.held then ⟨s, false, .returned⟩
  else if wParam = VK_BACK then s.onBack srv o pic
  else if isCharacterKey wParam then s.onCharacter srv o pic wParam
  else if wParam = VK_SPACE then s.onSpace srv o pic
  else if wParam = VK_LEFT ∨ wParam = VK_RIGHT ∨ wParam = VK_UP ∨ wParam = VK_DOWN ∨
      wParam = VK_NEXT ∨ wParam = VK_PRIOR then s.onNavigation srv o pic wParam
  else if wParam = VK_RETURN then s.onReturn srv o pic
  else ⟨s, false, .returned⟩

end CTCodeIME

end TCodeIME
