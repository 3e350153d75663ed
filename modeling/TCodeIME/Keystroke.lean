import TCodeIME.KeyEventSink

/-!
What a key press means in a given state, and what it makes of that state. `onKeyDown_eq` connects
this description with the branches of `OnKeyDown`; everything about runs is proved over it.
-/

namespace TCodeIME

variable {E : Type}

inductive Keystroke where
  | passed
  | toTcode
  | toDirect
  | back
  | put (ch : Str)
  | nextCandidate
  | convert
  | move (wParam : ℕ)
  | inflect (command : EngineCommand)
  | select
  | idle
deriving DecidableEq

inductive ListUpdate where
  | none
  | sync
  | hide
deriving DecidableEq

structure Effect (E : Type) where
  mode : Option InputMode := none
  client : CEngineClient E
  thrown : Option String := none
  session : Option (WString × WString) := none
  selectedIndex : Option Int32 := none
  list : ListUpdate := .none
  pfEaten : Bool := true

namespace CTCodeIME

def keystroke (o : CompartmentOutcomes) (wParam : ℕ) (keys : Modifiers) (s : CTCodeIME E) : Keystroke :=
  let r := s.client.lastResponse
  if keys.isCtrlSlash wParam then if s.getInputMode o = .tcode then .toDirect else .toTcode
  else if s.getInputMode o = .direct then .passed
  else if keys.held then .passed
  else if wParam = VK_BACK then
    if r.isLastKeyEmpty && r.isBufferEmpty && r.isOutputBufferEmpty then .passed else .back
  else if isCharacterKey wParam then (inputChar wParam).elim .passed .put
  else if wParam = VK_SPACE then
    if r.hasCandidates then .nextCandidate else if r.isBufferEmpty then .idle else .convert
  else if wParam = VK_LEFT ∨ wParam = VK_RIGHT ∨ wParam = VK_UP ∨ wParam = VK_DOWN ∨
      wParam = VK_NEXT ∨ wParam = VK_PRIOR then
    if r.hasCandidates then .move wParam
    else if r.isBufferEmpty then .passed
    else if wParam = VK_LEFT then .inflect .left
    else if wParam = VK_RIGHT then .inflect .right
    else .passed
  else if wParam = VK_RETURN then if r.hasCandidates then .select else .idle
  else .passed

def commandEffect (srv : Server E) (command : EngineCommand) (s : CTCodeIME E)
    (answered : CEngineClient E → Effect E) : Effect E :=
  match s.client.executeCommand srv command with
  | (.error what, client) => { client := client, thrown := some what }
  | (.ok _, client) => answered client

def effect (srv : Server E) (pastEnd : WChar) (s : CTCodeIME E) : Keystroke → Effect E
  | .passed => { client := s.client, pfEaten := false }
  | .toTcode => { mode := some .tcode, client := s.client }
  | .toDirect =>
    { mode := some .direct
      client := (s.client.reset srv).2
      session := if s.text.pComposition.isSome then some ([], []) else none
      list := .hide }
  | .back => s.commandEffect srv .backspace fun client =>
    { client := client
      session := some (client.lastResponse.getOutputBuffer, client.lastResponse.preedit pastEnd)
      list := .sync
      pfEaten := !((client.lastResponse.preedit pastEnd).isEmpty &&
        client.lastResponse.getOutputBuffer.isEmpty) }
  | .put ch =>
    let client := (s.client.executePut srv ch).2
    if client.lastResponse.isOutputBufferEmpty then
      { client := client
        session := some ([], client.lastResponse.preedit pastEnd)
        list := .sync }
    else
      { client := client.drained srv
        session := some (utf8ToWide (client.drainedText srv), client.lastResponse.preedit pastEnd)
        list := .sync }
  | .nextCandidate => { client := s.client, selectedIndex := some (s.selectedIndex + 1), list := .sync }
  | .convert => s.commandEffect srv .convert fun client =>
    { client := client
      session := some (client.lastResponse.getOutputBuffer, client.lastResponse.preedit pastEnd)
      list := .sync }
  | .move wParam =>
    { client := s.client
      selectedIndex := some (boundIndex s.client.lastResponse.candidates.length
        (movedIndex wParam s.selectedIndex))
      list := .sync }
  | .inflect command => s.commandEffect srv command fun client =>
    { client := client
      session := some (client.lastResponse.getOutputBuffer ++ client.lastResponse.getLastKey pastEnd,
        client.lastResponse.getBuffer) }
  | .select =>
    let client := s.client.asked srv (.select s.selectedIndex)
    if client.lastResponse.commandSucceed then
      { client := client.drained srv
        session := some (utf8ToWide (client.drainedText srv), [])
        selectedIndex := some 0
        list := .sync }
    else { client := client, selectedIndex := some 0, list := .sync }
  | .idle => { client := s.client, list := .sync, pfEaten := false }

def enter (o : CompartmentOutcomes) (mode : Option InputMode) (s : CTCodeIME E) : CTCodeIME E :=
  mode.elim s fun mode => (s.setInputMode o mode).updateIcon

def edit (o : SessionOutcomes) (pic : ContextId) (session : Option (WString × WString))
    (s : CTCodeIME E) : Option (CTCodeIME E) :=
  session.elim (some s) fun session => s.requestEditSession o pic session.1 session.2

def moveIndex (selectedIndex : Option Int32) (s : CTCodeIME E) : CTCodeIME E :=
  selectedIndex.elim s fun i => { s with selectedIndex := i }

def updateList (o : UIOutcomes) (s : CTCodeIME E) : ListUpdate → Option (CTCodeIME E)
  | .none => some s
  | .sync => s.syncCandidateList o
  | .hide => s.hideCandidateList o

def realize (o : KeyOutcomes) (pic : ContextId) (e : Effect E) (s : CTCodeIME E) : KeyResult E :=
  let s := { s.enter o.compartment e.mode with client := e.client }
  match e.thrown with
  | some what => ⟨s, e.pfEaten, .threw what⟩
  | none => .finish s e.pfEaten ((s.edit o.session pic e.session).bind fun s =>
      (s.moveIndex e.selectedIndex).updateList o.ui e.list)

theorem realize_commandEffect (srv : Server E) (command : EngineCommand) (o : KeyOutcomes)
    (pic : ContextId) {answered : CEngineClient E → Effect E} (s : CTCodeIME E)
    {f : CEngineClient E → KeyResult E} (hf : ∀ client, f client = s.realize o pic (answered client)) :
    (match s.client.executeCommand srv command with
      | (.error what, client) => ⟨{ s with client := client }, true, .threw what⟩
      | (.ok _, client) => f client) =
      s.realize o pic (s.commandEffect srv command answered) := by
  unfold commandEffect
  cases s.client.executeCommand srv command with
  | mk res client =>
    cases res with
    | error what => rfl
    | ok res => exact hf client

theorem onCtrlSlash_eq (srv : Server E) (o : KeyOutcomes) (pic : ContextId) (s : CTCodeIME E) :
    s.onCtrlSlash srv o pic = s.realize o pic (s.effect srv o.pastEnd
      (if s.getInputMode o.compartment = .tcode then .toDirect else .toTcode)) := by
  by_cases hm : s.getInputMode o.compartment = .tcode
  · by_cases hc : s.text.pComposition.isSome = true
    · simp [onCtrlSlash, hm, hc, effect, realize, enter, edit, moveIndex, updateList, setInputMode, updateIcon,
        requestEditSession, Option.map_eq_bind, Option.bind_assoc]
    · simp [onCtrlSlash, hm, hc, effect, realize, enter, edit, moveIndex, updateList, setInputMode, updateIcon]
  · simp [onCtrlSlash, hm, effect, realize, enter, edit, moveIndex, updateList, setInputMode, updateIcon,
      KeyResult.finish]

theorem onBack_eq (srv : Server E) (o : KeyOutcomes) (pic : ContextId) (s : CTCodeIME E) :
    s.onBack srv o pic = s.realize o pic (s.effect srv o.pastEnd
      (if s.client.lastResponse.isLastKeyEmpty && s.client.lastResponse.isBufferEmpty &&
        s.client.lastResponse.isOutputBufferEmpty then .passed else .back)) := by
  unfold onBack
  dsimp only
  split_ifs with h
  · rfl
  · exact realize_commandEffect srv .backspace o pic s fun client => rfl

theorem onCharacter_eq (srv : Server E) (o : KeyOutcomes) (pic : ContextId) (wParam : ℕ)
    (s : CTCodeIME E) : s.onCharacter srv o pic wParam =
      s.realize o pic (s.effect srv o.pastEnd ((inputChar wParam).elim .passed .put)) := by
  unfold onCharacter
  cases inputChar wParam with
  | none => rfl
  | some ch =>
    simp only [Option.elim_some, effect]
    split_ifs with h
    · rfl
    · rw [CEngineClient.commit_eq]
      rfl

theorem onSpace_eq (srv : Server E) (o : KeyOutcomes) (pic : ContextId) (s : CTCodeIME E) :
    s.onSpace srv o pic = s.realize o pic (s.effect srv o.pastEnd
      (if s.client.lastResponse.hasCandidates then .nextCandidate
        else if s.client.lastResponse.isBufferEmpty then .idle else .convert)) := by
  unfold onSpace
  by_cases hc : s.client.lastResponse.hasCandidates = true
  · rw [if_pos hc, if_pos hc]
    rfl
  rw [if_neg hc, if_neg hc]
  by_cases hb : s.client.lastResponse.isBufferEmpty = true
  · rw [if_neg (by simp [hb]), if_pos hb]
    rfl
  · rw [if_pos (by simpa using hb), if_neg hb]
    exact realize_commandEffect srv .convert o pic s fun client => rfl

theorem onNavigation_eq (srv : Server E) (o : KeyOutcomes) (pic : ContextId) (wParam : ℕ)
    (s : CTCodeIME E) : s.onNavigation srv o pic wParam =
      s.realize o pic (s.effect srv o.pastEnd
        (if s.client.lastResponse.hasCandidates then .move wParam
          else if s.client.lastResponse.isBufferEmpty then .passed
          else if wParam = VK_LEFT then .inflect .left
          else if wParam = VK_RIGHT then .inflect .right
          else .passed)) := by
  unfold onNavigation
  by_cases hc : s.client.lastResponse.hasCandidates = true
  · rw [if_pos hc, if_pos hc]
    rfl
  rw [if_neg hc, if_neg hc]
  by_cases hb : s.client.lastResponse.isBufferEmpty = true
  · rw [if_neg (by simp [hb]), if_pos hb]
    rfl
  rw [if_neg hb]
  -- neither arrow ends with the list, so nothing follows the edit session
  have hend (client : CEngineClient E) (session : WString × WString) :
      .finish { s with client := client } true
        ({ s with client := client }.requestEditSession o.session pic session.1 session.2) =
      s.realize o pic { client := client, session := some session } := by
    simp [realize, enter, edit, moveIndex, updateList]
  by_cases hl : wParam = VK_LEFT
  · rw [if_pos (by simp [hb, hl]), if_pos hl, if_pos hl]
    exact realize_commandEffect srv .left o pic s fun client => hend client (_, _)
  rw [if_neg hl, if_neg hl]
  by_cases hr : wParam = VK_RIGHT
  · rw [if_pos (by simp [hb, hr]), if_pos hr]
    exact realize_commandEffect srv .right o pic s fun client => hend client (_, _)
  · rw [if_neg (by simp [hl, hr]), if_neg hr]
    rfl

theorem onReturn_eq (srv : Server E) (o : KeyOutcomes) (pic : ContextId) (s : CTCodeIME E) :
    s.onReturn srv o pic = s.realize o pic (s.effect srv o.pastEnd
      (if s.client.lastResponse.hasCandidates then .select else .idle)) := by
  unfold onReturn
  by_cases hc : s.client.lastResponse.hasCandidates = true
  · rw [if_pos hc, if_pos hc]
    simp only [CEngineClient.select_eq, CEngineClient.commit_eq, effect]
    split_ifs <;> rfl
  · rw [if_neg hc, if_neg hc]
    rfl

theorem onKeyDown_eq (srv : Server E) (o : KeyOutcomes) (pic : ContextId) (wParam : ℕ)
    (keys : Modifiers) (s : CTCodeIME E) :
    s.onKeyDown srv o pic wParam keys =
      s.realize o pic (s.effect srv o.pastEnd (s.keystroke o.compartment wParam keys)) := by
  have passed : (⟨s, false, .returned⟩ : KeyResult E) =
      s.realize o pic (s.effect srv o.pastEnd .passed) := rfl
  unfold onKeyDown keystroke
  dsimp only
  by_cases hslash : keys.isCtrlSlash wParam = true
  · rw [if_pos hslash, if_pos hslash]
    exact onCtrlSlash_eq srv o pic s
  rw [if_neg hslash, if_neg hslash]
  by_cases hdirect : s.getInputMode o.compartment = .direct
  · rw [if_pos hdirect, if_pos hdirect]
    exact passed
  rw [if_neg hdirect, if_neg hdirect]
  by_cases hmod : wParam = VK_SHIFT ∨ wParam = VK_CONTROL ∨ wParam = VK_MENU ∨ wParam = VK_LWIN ∨
      wParam = VK_RWIN
  · rw [if_pos hmod, passed]
    rcases hmod with rfl | rfl | rfl | rfl | rfl <;>
      simp [isCharacterKey, VK_SHIFT, VK_CONTROL, VK_MENU, VK_LWIN, VK_RWIN]
  rw [if_neg hmod]
  by_cases hheld : keys.held = true
  · rw [if_pos hheld, if_pos hheld]
    exact passed
  rw [if_neg hheld, if_neg hheld]
  by_cases hback : wParam = VK_BACK
  · rw [if_pos hback, if_pos hback]
    exact onBack_eq srv o pic s
  rw [if_neg hback, if_neg hback]
  by_cases hchar : isCharacterKey wParam = true
  · rw [if_pos hchar, if_pos hchar]
    exact onCharacter_eq srv o pic wParam s
  rw [if_neg hchar, if_neg hchar]
  by_cases hspace : wParam = VK_SPACE
  · rw [if_pos hspace, if_pos hspace]
    exact onSpace_eq srv o pic s
  rw [if_neg hspace, if_neg hspace]
  by_cases hnav : wParam = VK_LEFT ∨ wParam = VK_RIGHT ∨ wParam = VK_UP ∨ wParam = VK_DOWN ∨
      wParam = VK_NEXT ∨ wParam = VK_PRIOR
  · rw [if_pos hnav, if_pos hnav]
    exact onNavigation_eq srv o pic wParam s
  rw [if_neg hnav, if_neg hnav]
  by_cases hreturn : wParam = VK_RETURN
  · rw [if_pos hreturn, if_pos hreturn]
    exact onReturn_eq srv o pic s
  · rw [if_neg hreturn, if_neg hreturn]
    exact passed

/-! What `realize` does, once for all keys. -/

def editText (o : SessionOutcomes) (pic : ContextId) (session : Option (WString × WString))
    (t : TextServices) : Option TextServices :=
  session.elim (some t) fun session =>
    CManageCompositionEditSession.requestEditSession o pic session.1 session.2 t

def updateUI (o : UIOutcomes) (pThreadMgr : Bool) (candidates : List Str) (selectedIndex : Int32)
    (u : CandidateElement) : ListUpdate → Option CandidateElement
  | .none => some u
  | .sync => u.syncCandidateList o pThreadMgr candidates selectedIndex
  | .hide => u.hideCandidateList o pThreadMgr

theorem updateUI_isSome (o : UIOutcomes) {pThreadMgr : Bool} (candidates : List Str)
    (selectedIndex : Int32) (u : CandidateElement) {list : ListUpdate}
    (h : list = .none ∨ pThreadMgr = true) :
    (updateUI o pThreadMgr candidates selectedIndex u list).isSome := by
  cases list with
  | none => rfl
  | sync =>
    rcases h with h | rfl
    · cases h
    · exact CandidateElement.syncCandidateList_isSome o candidates selectedIndex u
  | hide =>
    rcases h with h | rfl
    · cases h
    · exact CandidateElement.hideCandidateList_isSome o u

theorem edit_eq (o : SessionOutcomes) (pic : ContextId) (session : Option (WString × WString))
    (s : CTCodeIME E) :
    s.edit o pic session = (editText o pic session s.text).map fun t => { s with text := t } := by
  cases session <;> rfl

theorem updateList_eq (o : UIOutcomes) (list : ListUpdate) (s : CTCodeIME E) :
    s.updateList o list = (updateUI o s.pThreadMgr s.client.lastResponse.candidates s.selectedIndex
      s.candidateUI list).map fun u => { s with candidateUI := u } := by
  cases list <;> rfl

theorem moveIndex_eq (i : Option Int32) (s : CTCodeIME E) :
    s.moveIndex i = { s with selectedIndex := i.getD s.selectedIndex } := by
  cases i <;> rfl

@[simp] theorem enter_pThreadMgr (o : CompartmentOutcomes) (mode : Option InputMode)
    (s : CTCodeIME E) : (s.enter o mode).pThreadMgr = s.pThreadMgr := by
  cases mode <;> rfl

@[simp] theorem enter_text (o : CompartmentOutcomes) (mode : Option InputMode) (s : CTCodeIME E) :
    (s.enter o mode).text = s.text := by
  cases mode <;> rfl

@[simp] theorem enter_selectedIndex (o : CompartmentOutcomes) (mode : Option InputMode)
    (s : CTCodeIME E) : (s.enter o mode).selectedIndex = s.selectedIndex := by
  cases mode <;> rfl

@[simp] theorem enter_candidateUI (o : CompartmentOutcomes) (mode : Option InputMode)
    (s : CTCodeIME E) : (s.enter o mode).candidateUI = s.candidateUI := by
  cases mode <;> rfl

theorem realize_of_thrown (o : KeyOutcomes) (pic : ContextId) {e : Effect E} (s : CTCodeIME E)
    {what : String} (h : e.thrown = some what) :
    s.realize o pic e =
      ⟨{ s.enter o.compartment e.mode with client := e.client }, e.pfEaten, .threw what⟩ := by
  simp [realize, h]

theorem realize_of_crash (o : KeyOutcomes) (pic : ContextId) {e : Effect E} (s : CTCodeIME E)
    (h : e.thrown = none) (ht : editText o.session pic e.session s.text = none) :
    s.realize o pic e =
      ⟨{ s.enter o.compartment e.mode with client := e.client }, e.pfEaten, .accessViolation⟩ := by
  simp [realize, h, edit_eq, ht, KeyResult.finish]

theorem realize_of_edited (o : KeyOutcomes) (pic : ContextId) {e : Effect E} (s : CTCodeIME E)
    (hlist : e.list = .none ∨ s.pThreadMgr = true) (h : e.thrown = none) {t : TextServices}
    (ht : editText o.session pic e.session s.text = some t) :
    ∃ u, updateUI o.ui s.pThreadMgr e.client.lastResponse.candidates
        (e.selectedIndex.getD s.selectedIndex) s.candidateUI e.list = some u ∧
      s.realize o pic e =
        ⟨{ s.enter o.compartment e.mode with
            client := e.client
            text := t
            candidateUI := u
            selectedIndex := e.selectedIndex.getD s.selectedIndex }, e.pfEaten, .returned⟩ := by
  obtain ⟨u, hu⟩ := Option.isSome_iff_exists.mp (updateUI_isSome o.ui
    e.client.lastResponse.candidates (e.selectedIndex.getD s.selectedIndex) s.candidateUI hlist)
  refine ⟨u, hu, ?_⟩
  simp only [realize, h, edit_eq, enter_text, ht, Option.map_some, Option.bind_some, moveIndex_eq,
    updateList_eq, enter_pThreadMgr, enter_selectedIndex, enter_candidateUI, hu, KeyResult.finish]

theorem realize_cases (o : KeyOutcomes) (pic : ContextId) (e : Effect E) (s : CTCodeIME E)
    (hlist : e.list = .none ∨ s.pThreadMgr = true) :
    (∃ what, e.thrown = some what ∧ s.realize o pic e =
      ⟨{ s.enter o.compartment e.mode with client := e.client }, e.pfEaten, .threw what⟩) ∨
    (e.thrown = none ∧ editText o.session pic e.session s.text = none ∧ s.realize o pic e =
      ⟨{ s.enter o.compartment e.mode with client := e.client }, e.pfEaten, .accessViolation⟩) ∨
    (∃ t u, e.thrown = none ∧ editText o.session pic e.session s.text = some t ∧
      updateUI o.ui s.pThreadMgr e.client.lastResponse.candidates
        (e.selectedIndex.getD s.selectedIndex) s.candidateUI e.list = some u ∧
      s.realize o pic e =
        ⟨{ s.enter o.compartment e.mode with
            client := e.client
            text := t
            candidateUI := u
            selectedIndex := e.selectedIndex.getD s.selectedIndex }, e.pfEaten, .returned⟩) := by
  cases hthrown : e.thrown with
  | some what => exact .inl ⟨what, rfl, realize_of_thrown o pic s hthrown⟩
  | none =>
    cases htext : editText o.session pic e.session s.text with
    | none => exact .inr (.inl ⟨rfl, rfl, realize_of_crash o pic s hthrown htext⟩)
    | some t =>
      obtain ⟨u, hu, h⟩ := realize_of_edited o pic s hlist hthrown htext
      exact .inr (.inr ⟨t, u, rfl, rfl, hu, h⟩)

/-! What the keys that act require of the state. -/

theorem inputChar_ne_nil {wParam : ℕ} {ch : Str} (h : inputChar wParam = some ch) : ch ≠ [] := by
  unfold inputChar at h
  split_ifs at h <;> (cases h; simp)

def admits (o : CompartmentOutcomes) (wParam : ℕ) (s : CTCodeIME E) : Keystroke → Prop
  | .passed => True
  | .toTcode => s.getInputMode o = .direct
  | .toDirect => s.getInputMode o = .tcode
  | .back => s.getInputMode o = .tcode ∧ wParam = VK_BACK
  | .put ch => s.getInputMode o = .tcode ∧ inputChar wParam = some ch
  | .nextCandidate => s.getInputMode o = .tcode ∧ s.client.lastResponse.candidates ≠ []
  | .convert => s.getInputMode o = .tcode ∧ s.client.lastResponse.candidates = [] ∧
      s.client.lastResponse.isBufferEmpty = false
  | .move key => s.getInputMode o = .tcode ∧ s.client.lastResponse.candidates ≠ [] ∧ key = wParam
  | .inflect _ => s.getInputMode o = .tcode ∧ s.client.lastResponse.candidates = [] ∧
      s.client.lastResponse.isBufferEmpty = false
  | .select => s.getInputMode o = .tcode ∧ s.client.lastResponse.candidates ≠ []
  | .idle => s.getInputMode o = .tcode

theorem keystroke_admits (o : CompartmentOutcomes) (wParam : ℕ) (keys : Modifiers)
    (s : CTCodeIME E) : s.admits o wParam (s.keystroke o wParam keys) := by
  have hdirect : s.getInputMode o ≠ .tcode → s.getInputMode o = .direct := by
    cases s.getInputMode o <;> simp
  unfold keystroke
  dsimp only
  by_cases hslash : keys.isCtrlSlash wParam = true
  · rw [if_pos hslash]
    by_cases hm : s.getInputMode o = .tcode
    · rw [if_pos hm]
      exact hm
    · rw [if_neg hm]
      exact hdirect hm
  rw [if_neg hslash]
  by_cases hmode : s.getInputMode o = .tcode
  swap
  · rw [if_pos (hdirect hmode)]
    trivial
  rw [if_neg (by rw [hmode]; simp)]
  by_cases hheld : keys.held = true
  · rw [if_pos hheld]
    trivial
  rw [if_neg hheld]
  by_cases hback : wParam = VK_BACK
  · rw [if_pos hback]
    split_ifs
    · trivial
    · exact ⟨hmode, hback⟩
  rw [if_neg hback]
  by_cases hchar : isCharacterKey wParam = true
  · rw [if_pos hchar]
    cases hch : inputChar wParam with
    | none => trivial
    | some ch => exact ⟨hmode, hch⟩
  rw [if_neg hchar]
  by_cases hspace : wParam = VK_SPACE
  · rw [if_pos hspace]
    split_ifs with hc hb
    · exact ⟨hmode, by simpa using hc⟩
    · exact hmode
    · exact ⟨hmode, by simpa using hc, by simpa using hb⟩
  rw [if_neg hspace]
  by_cases hnav : wParam = VK_LEFT ∨ wParam = VK_RIGHT ∨ wParam = VK_UP ∨ wParam = VK_DOWN ∨
      wParam = VK_NEXT ∨ wParam = VK_PRIOR
  · rw [if_pos hnav]
    split_ifs with hc hb
    · exact ⟨hmode, by simpa using hc, rfl⟩
    · trivial
    · exact ⟨hmode, by simpa using hc, by simpa using hb⟩
    · exact ⟨hmode, by simpa using hc, by simpa using hb⟩
    · trivial
  rw [if_neg hnav]
  by_cases hreturn : wParam = VK_RETURN
  · rw [if_pos hreturn]
    split_ifs with hc
    · exact ⟨hmode, by simpa using hc⟩
    · exact hmode
  · rw [if_neg hreturn]
    trivial

theorem keystroke_mode (o : CompartmentOutcomes) (wParam : ℕ) (keys : Modifiers) (s : CTCodeIME E) :
    s.keystroke o wParam keys = .passed ∨ s.keystroke o wParam keys = .toTcode ∨
      s.getInputMode o = .tcode := by
  have h := keystroke_admits o wParam keys s
  cases hk : s.keystroke o wParam keys with
  | passed => exact .inl rfl
  | toTcode => exact .inr (.inl rfl)
  | toDirect | idle => exact .inr (.inr (by rwa [hk] at h))
  | _ => exact .inr (.inr (by rw [hk] at h; exact h.1))

theorem effect_list (srv : Server E) (o : KeyOutcomes) (wParam : ℕ) (keys : Modifiers)
    (s : CTCodeIME E) :
    (s.effect srv o.pastEnd (s.keystroke o.compartment wParam keys)).list = .none ∨
      s.pThreadMgr = true := by
  rcases keystroke_mode o.compartment wParam keys s with h | h | h
  · exact .inl (by rw [h, effect])
  · exact .inl (by rw [h, effect])
  · exact .inr (Compartments.getInputMode_tcode h)

theorem commandEffect_cases (srv : Server E) (command : EngineCommand) (s : CTCodeIME E)
    (answered : CEngineClient E → Effect E) :
    (srv.status command.request s.client.engine = none ∧
      ∃ what, s.commandEffect srv command answered =
        { client := s.client.asked srv command.request, thrown := some what }) ∨
    ((srv.status command.request s.client.engine).isSome ∧
      s.commandEffect srv command answered = answered (s.client.asked srv command.request)) := by
  unfold commandEffect
  cases h : srv.status command.request s.client.engine with
  | none =>
    obtain ⟨what, hwhat⟩ := CEngineClient.executeCommand_error h
    exact .inl ⟨rfl, what, by rw [hwhat]⟩
  | some res => exact .inr ⟨rfl, by rw [CEngineClient.executeCommand_ok h]⟩

end CTCodeIME

end TCodeIME
