import TCodeIME.ScriptedServer

/-!
Where `OnKeyDown` evaluates `GetLastKey`, and when the character it picks is there.
-/

namespace TCodeIME

namespace BufferStatusResponse

/-- The two forms of a pending key that the engine writes. -/
def encodesLastKey (r : BufferStatusResponse) : Prop :=
  r.lastCharAsKey = "None".toList ∨ ∃ c, r.lastCharAsKey = "Some(".toList ++ c :: ")".toList

def lastKeyInBounds (r : BufferStatusResponse) : Prop :=
  r.isLastKeyEmpty = true ∨ 5 < (utf8ToWide r.lastCharAsKey).length

instance (r : BufferStatusResponse) : Decidable r.lastKeyInBounds := inferInstanceAs (Decidable (_ ∨ _))

def isNulKey (r : BufferStatusResponse) : Bool := r.lastCharAsKey == "Some(\x00)".toList

theorem getLastKey_pastEnd {r : BufferStatusResponse} (h : r.lastKeyInBounds) (p q : WChar) :
    r.getLastKey p = r.getLastKey q := by
  unfold getLastKey charAt
  rcases h with hempty | hlen
  · rw [if_pos hempty, if_pos hempty]
  · rw [dif_pos hlen, dif_pos hlen]

theorem preedit_pastEnd {r : BufferStatusResponse} (h : r.lastKeyInBounds) (p q : WChar) :
    r.preedit p = r.preedit q := by
  rw [preedit, preedit, getLastKey_pastEnd h p q]

theorem not_lastKeyInBounds_default : ¬ ({} : BufferStatusResponse).lastKeyInBounds := by
  decide

theorem lastKeyInBounds_iff {r : BufferStatusResponse} (h : r.encodesLastKey) :
    r.lastKeyInBounds ↔ r.isNulKey = false := by
  unfold lastKeyInBounds isNulKey isLastKeyEmpty
  rcases h with hnone | ⟨c, hsome⟩
  · rw [hnone]
    decide
  · rw [hsome]
    by_cases hc : c = '\x00'
    · subst hc
      decide
    · have hcut : Utf16.upTo '\x00' ("Some(".toList ++ c :: ")".toList) =
          "Some(".toList ++ c :: ")".toList := by
        apply Utf16.upTo_of_notMem
        simp [Ne.symm hc]
      have hpos := Utf16.encodeChar_length_pos c
      have hopen : (Utf16.encode "Some(".toList).length = 5 := by decide
      refine iff_of_true (.inr ?_) (by simpa using hc)
      rw [utf8ToWide, hcut, Utf16.encode_append, Utf16.encode_cons, List.length_append,
        List.length_append, hopen]
      omega

end BufferStatusResponse

variable {E : Type}

namespace CTCodeIME

/-- The cached statuses on which a key press evaluates `GetLastKey`. -/
def lastKeyReads (srv : Server E) (s : CTCodeIME E) (k : Keystroke) : List BufferStatusResponse :=
  match k with
  | .put _ => [s.response srv k]
  | .back => (s.answer srv k).toList
  | .convert => (s.answer srv k).toList
  | .inflect _ => (s.answer srv k).toList
  | _ => []

def readsInBounds (srv : Server E) (s : CTCodeIME E) : Event → Prop
  | .keyDown o _ wParam keys =>
    ∀ r ∈ s.lastKeyReads srv (s.keystroke o.compartment wParam keys), r.lastKeyInBounds
  | _ => True

def answersLastKey (srv : Server E) (s : CTCodeIME E) (k : Keystroke) : Bool :=
  match k with
  | .put _ => (s.answer srv k).any fun r => !r.isNulKey
  | .back => (s.answer srv k).all fun r => !r.isNulKey
  | .convert => (s.answer srv k).all fun r => !r.isNulKey
  | .inflect _ => (s.answer srv k).all fun r => !r.isNulKey
  | _ => true

def repliesLastKey (srv : Server E) (s : CTCodeIME E) : Event → Prop
  | .keyDown o _ wParam keys => s.answersLastKey srv (s.keystroke o.compartment wParam keys) = true
  | _ => True

instance (srv : Server E) (s : CTCodeIME E) (e : Event) : Decidable (s.readsInBounds srv e) :=
  match e with
  | .keyDown o _ wParam keys => inferInstanceAs (Decidable (∀ r ∈
      s.lastKeyReads srv (s.keystroke o.compartment wParam keys), r.lastKeyInBounds))
  | .click _ | .change _ _ | .terminated | .activate _ | .deactivate _ | .edited _ _ _ | .selected _ _ =>
    isTrue trivial

instance (srv : Server E) (s : CTCodeIME E) (e : Event) : Decidable (s.repliesLastKey srv e) :=
  match e with
  | .keyDown _ _ _ _ => inferInstanceAs (Decidable (_ = true))
  | .click _ | .change _ _ | .terminated | .activate _ | .deactivate _ | .edited _ _ _ | .selected _ _ =>
    isTrue trivial

theorem response_of_answer {srv : Server E} {s : CTCodeIME E} {k : Keystroke} {r : BufferStatusResponse}
    (h : s.answer srv k = some r) : s.response srv k = r := by
  obtain ⟨request, hk, hr⟩ := Option.bind_eq_some_iff.mp h
  exact response_of_request hk hr

theorem encodesLastKey_of_answer {srv : Server E}
    (hsrv : ∀ request e r, srv.status request e = some r → r.encodesLastKey) {s : CTCodeIME E}
    {k : Keystroke} {r : BufferStatusResponse} (h : s.answer srv k = some r) : r.encodesLastKey := by
  obtain ⟨request, -, hr⟩ := Option.bind_eq_some_iff.mp h
  exact hsrv request _ r hr

theorem lastKeyReads_inBounds_iff {srv : Server E}
    (hsrv : ∀ request e r, srv.status request e = some r → r.encodesLastKey) (s : CTCodeIME E)
    (k : Keystroke) :
    (∀ r ∈ s.lastKeyReads srv k, r.lastKeyInBounds) ↔ s.answersLastKey srv k = true := by
  have answered : (∀ r ∈ (s.answer srv k).toList, r.lastKeyInBounds) ↔
      (s.answer srv k).all (fun r => !r.isNulKey) = true := by
    cases ha : s.answer srv k with
    | none => simp
    | some r => simp [BufferStatusResponse.lastKeyInBounds_iff (encodesLastKey_of_answer hsrv ha)]
  cases k with
  | put ch =>
    simp only [lastKeyReads, answersLastKey, List.forall_mem_singleton]
    cases ha : s.answer srv (.put ch) with
    | none =>
      have hdefault : s.response srv (.put ch) = {} := by
        have hstatus : srv.status (.put ch) s.client.engine = none := ha
        simp [response, Keystroke.request, hstatus]
      rw [hdefault]
      exact iff_of_false BufferStatusResponse.not_lastKeyInBounds_default (by simp)
    | some r =>
      rw [response_of_answer ha,
        BufferStatusResponse.lastKeyInBounds_iff (encodesLastKey_of_answer hsrv ha)]
      simp
  | back => exact answered
  | convert => exact answered
  | inflect command => exact answered
  | _ => simp [lastKeyReads, answersLastKey]

/-- What lies behind the string is of no consequence to a key press whose reads are in bounds, so
`lastKeyReads` misses no read. -/
theorem effect_pastEnd (srv : Server E) {s : CTCodeIME E} {k : Keystroke} (hk : k ≠ .put [])
    (h : ∀ r ∈ s.lastKeyReads srv k, r.lastKeyInBounds) (p q : WChar) :
    s.effect srv p k = s.effect srv q k := by
  have command (c : EngineCommand) (f : WChar → CEngineClient E → Effect E)
      (hc : k.request s.selectedIndex = some c.request)
      (hreads : s.lastKeyReads srv k = (s.answer srv k).toList)
      (hf : ∀ client : CEngineClient E, client.lastResponse.lastKeyInBounds → f p client = f q client) :
      s.commandEffect srv c (f p) = s.commandEffect srv c (f q) := by
    unfold commandEffect
    cases hr : srv.status c.request s.client.engine with
    | none =>
      obtain ⟨what, he⟩ := CEngineClient.executeCommand_error hr
      rw [he]
    | some r =>
      have ha : s.answer srv k = some r := by rw [answer, hc, Option.bind_some, hr]
      rw [CEngineClient.executeCommand_ok hr]
      apply hf
      rw [hreads, ha] at h
      simpa [CEngineClient.asked, hr] using h
  cases k with
  | put ch =>
    have hch : ch ≠ [] := fun hnil => hk (by rw [hnil])
    obtain ⟨log, hclient⟩ := CEngineClient.executePut_eq srv hch s.client
    have hr : (s.client.executePut srv ch).2.lastResponse = s.response srv (.put ch) := by
      rw [hclient]
      rfl
    have hbounds := h _ (List.mem_singleton_self _)
    simp only [effect, hr, BufferStatusResponse.preedit_pastEnd hbounds p q]
  | back =>
    apply command .backspace (fun pastEnd client => _) rfl rfl
    intro client hclient
    simp only [BufferStatusResponse.preedit_pastEnd hclient p q]
  | convert =>
    apply command .convert (fun pastEnd client => _) rfl rfl
    intro client hclient
    simp only [BufferStatusResponse.preedit_pastEnd hclient p q]
  | inflect c =>
    apply command c (fun pastEnd client => _) rfl rfl
    intro client hclient
    simp only [BufferStatusResponse.getLastKey_pastEnd hclient p q]
  | _ => rfl

theorem lastKey_reads_in_bounds_iff (srv : Server E)
    (hsrv : ∀ request e r, srv.status request e = some r → r.encodesLastKey) (s : CTCodeIME E)
    (es : List Event) :
    Runs.Along (step srv) (readsInBounds srv) s es ↔ Runs.Along (step srv) (repliesLastKey srv) s es := by
  apply Runs.along_congr
  intro s e
  cases e with
  | keyDown o pic wParam keys => exact lastKeyReads_inBounds_iff hsrv s _
  | _ => exact Iff.rfl

theorem lastKey_reads_in_bounds_stroke :
    let srv := Server.scripted [.status ⟨[], [], [], "Some(j)".toList, true⟩]
    Runs.Along (step srv) (readsInBounds srv) fresh [.activate {}, .ctrlSlash, .key 0x4A] := by
  intro srv
  have hsrv : ∀ request e r, srv.status request e = some r → r.encodesLastKey := by
    intro request n r h
    rw [Server.scripted_status] at h
    have hn : n = 0 := Nat.lt_one_iff.mp (Server.lt_length_of_statusAt h)
    subst hn
    have hr : r = ⟨[], [], [], "Some(j)".toList, true⟩ := by
      apply Option.some.inj
      rw [← h]
      decide +kernel
    rw [hr]
    exact .inr ⟨'j', rfl⟩
  exact (lastKey_reads_in_bounds_iff srv hsrv fresh _).mpr (by decide +kernel)

theorem failed_put_reads_out_of_bounds :
    let srv := Server.scripted [.failure]
    (∀ request e r, srv.status request e = some r → r.encodesLastKey) ∧
      ¬ Runs.Along (step srv) (readsInBounds srv) fresh [.activate {}, .ctrlSlash, .key 0x4A] := by
  intro srv
  refine ⟨fun request n r h => ?_, by decide +kernel⟩
  rw [Server.scripted_status] at h
  have hn : n = 0 := Nat.lt_one_iff.mp (Server.lt_length_of_statusAt h)
  subst hn
  cases h

end CTCodeIME

end TCodeIME
