import TCodeIME.EngineOutput

/-!
Where the text goes that a commit has drained from the engine, for every outcome of the edit session.
-/

namespace TCodeIME

variable {E : Type}

namespace SessionOutcomes

def inserts (o : SessionOutcomes) (pic : ContextId) (t : TextServices) : Prop :=
  o.request = .granted ∧ CManageCompositionEditSession.inserts o.commit pic t

def wipes (o : SessionOutcomes) (pic : ContextId) (t : TextServices) : Prop :=
  o.request = .granted ∧ o.commit.getRange = false ∧
    CManageCompositionEditSession.wipes o.clear pic t

instance (o : SessionOutcomes) (pic : ContextId) (t : TextServices) : Decidable (o.inserts pic t) :=
  inferInstanceAs (Decidable (_ ∧ _))

instance (o : SessionOutcomes) (pic : ContextId) (t : TextServices) : Decidable (o.wipes pic t) :=
  inferInstanceAs (Decidable (_ ∧ _ ∧ _))

end SessionOutcomes

structure Mute (srv : Server E) : Prop where
  status : ∀ request e r, srv.status request e = some r →
    r.outputBuffer = [] ∧ r.isLastKeyEmpty = true
  commit : ∀ e c, srv.committed e = some c → c.output = []

namespace CManageCompositionEditSession

theorem wipes_commitText (o : SessionOutcomes) (ec : ContextId) {committed : WString}
    (h : committed ≠ []) (t : TextServices) :
    wipes o.clear ec (commitText o.commit ec committed t) ↔
      o.commit.getRange = false ∧ wipes o.clear ec t := by
  rw [wipes, commitText_pComposition o.commit ec h, wipes]
  cases o.commit.getRange <;> simp

theorem requestEditSession_writes {o : SessionOutcomes} {pic : ContextId}
    {committed composition : WString} {t t' : TextServices} (hne : committed ≠ [])
    (h : requestEditSession o pic committed composition t = some t') :
    ∃ new, (∀ w ∈ new, w.kind = .composition) ∧
      t'.writes = t.writes ++ ((if o.inserts pic t then [⟨pic, .committed, committed⟩] else []) ++
        (if o.wipes pic t then [⟨pic, .cleared, []⟩] else []) ++ new) := by
  unfold requestEditSession at h
  dsimp only at h
  split at h
  · next hgranted =>
    obtain ⟨new, hnew, hkind⟩ := startPreedit_writes h
    refine ⟨new, hkind, ?_⟩
    rw [hnew, clearComposition_writes, commitText_writes o.commit pic hne, List.append_assoc,
      List.append_assoc]
    simp only [wipes_commitText o pic hne, SessionOutcomes.inserts, SessionOutcomes.wipes, hgranted,
      true_and, List.append_assoc]
    rfl
  · next hrefused =>
    cases h
    exact ⟨[], by simp, by simp [SessionOutcomes.inserts, SessionOutcomes.wipes, hrefused,
      TextServices.request]⟩
  · next hrefused =>
    cases h
    exact ⟨[], by simp, by simp [SessionOutcomes.inserts, SessionOutcomes.wipes, hrefused,
      TextServices.request]⟩

theorem requestEditSession_of_not_granted {o : SessionOutcomes} (pic : ContextId)
    (committed composition : WString) (t : TextServices) (h : o.request ≠ .granted) :
    requestEditSession o pic committed composition t =
      some (t.request ⟨pic, committed, composition⟩) := by
  unfold requestEditSession
  cases hr : o.request with
  | granted => exact absurd hr h
  | refused => rfl
  | notGranted => rfl

end CManageCompositionEditSession

namespace CTCodeIME

def writesSince (s s' : CTCodeIME E) : List Write := s'.text.writes.drop s.text.writes.length

def Inserted (pic : ContextId) (t : Str) (s s' : CTCodeIME E) : Prop :=
  t = [] ∨ ⟨pic, .committed, Utf16.encode t⟩ ∈ s.writesSince s'

def Holds (outputBuffer : E → Str) (t : Str) (s : CTCodeIME E) : Prop :=
  t <:+: outputBuffer s.client.engine ∨
    ∃ srv es, Mute srv ∧ ∃ x ∈ s.sessionsSince (Runs.run (step srv) s es),
      Utf16.encode t <:+: x.committed

instance (pic : ContextId) (t : Str) (s s' : CTCodeIME E) : Decidable (s.Inserted pic t s') :=
  inferInstanceAs (Decidable (_ ∨ _))

theorem response_of_mute {srv : Server E} (h : Mute srv) {s : CTCodeIME E} {k : Keystroke}
    (ha : (s.answer srv k).isSome) :
    (s.response srv k).outputBuffer = [] ∧ (s.response srv k).isLastKeyEmpty = true := by
  unfold answer at ha
  cases hk : k.request s.selectedIndex with
  | none =>
    rw [hk] at ha
    cases ha
  | some request =>
    rw [hk, Option.bind_some] at ha
    obtain ⟨r, hr⟩ := Option.isSome_iff_exists.mp ha
    rw [response_of_request hk hr]
    exact h.status request _ r hr

theorem drainedText_of_mute {srv : Server E} (h : Mute srv) (s : CTCodeIME E) (k : Keystroke) :
    s.drainedText srv k = [] := by
  unfold drainedText
  cases k.request s.selectedIndex with
  | none => rfl
  | some request =>
    dsimp only [Option.elim]
    split_ifs
    · unfold CEngineClient.drainedText
      cases hc : srv.committed (s.client.asked srv request).engine with
      | none => rfl
      | some c => exact h.commit _ c hc
    · rfl

theorem committed_of_mute {srv : Server E} (h : Mute srv) {s : CTCodeIME E} {k : Keystroke}
    {pastEnd : WChar} (ha : k.throws = true → (s.answer srv k).isSome) {x : WString × WString}
    (hx : s.requestedSession srv pastEnd k = some x) : x.1 = [] := by
  cases hthrows : k.throws with
  | false => exact requestedSession_committed hthrows (drainedText_of_mute h s k) hx
  | true =>
    obtain ⟨hout, hkey⟩ := response_of_mute h (ha hthrows)
    have hwide : (s.response srv k).getOutputBuffer = [] := by
      rw [BufferStatusResponse.getOutputBuffer, hout, utf8ToWide_nil]
    unfold requestedSession at hx
    cases k with
    | back | convert =>
      cases hx
      exact hwide
    | inflect command =>
      cases hx
      rw [hwide, List.nil_append, BufferStatusResponse.getLastKey_eq_nil]
      exact hkey
    | _ => cases hthrows

theorem step_sessions_of_mute {srv : Server E} (h : Mute srv) (s : CTCodeIME E) (e : Event) :
    ∃ new, (s.step srv e).text.sessions = s.text.sessions ++ new ∧ ∀ x ∈ new, x.committed = [] := by
  cases e with
  | keyDown o pic wParam keys =>
    obtain ⟨log, ⟨-, -, what, hk⟩ | ⟨-, -, hk⟩ | ⟨ha, t, u, ht, -, hk⟩⟩ :=
      onKeyDown_cases srv o pic wParam keys s
    · exact ⟨[], by simp [step, hk], by simp⟩
    · exact ⟨[], by simp [step, hk], by simp⟩
    · refine ⟨_, by rw [step, hk]; exact editText_sessions ht, fun x hx => ?_⟩
      obtain ⟨y, hy, rfl⟩ := List.mem_map.mp hx
      exact committed_of_mute h ha (Option.mem_toList.mp hy)
  | _ => exact ⟨[], by rw [step_sessions rfl, List.append_nil], by simp⟩

theorem run_sessions_of_mute {srv : Server E} (h : Mute srv) (s : CTCodeIME E) (es : List Event) :
    ∃ new, (Runs.run (step srv) s es).text.sessions = s.text.sessions ++ new ∧
      ∀ x ∈ new, x.committed = [] := by
  refine @Runs.run_of_step _ _ (step srv)
    (fun s' => ∃ new, s'.text.sessions = s.text.sessions ++ new ∧ ∀ x ∈ new, x.committed = [])
    (fun _ _ => True) ?_ s es ⟨[], by simp, by simp⟩ (Runs.along_of_forall (by simp) s)
  rintro s' e ⟨new, hnew, hempty⟩ -
  obtain ⟨more, hmore, hrest⟩ := step_sessions_of_mute h s' e
  refine ⟨new ++ more, by rw [hmore, hnew, List.append_assoc], fun x hx => ?_⟩
  rcases List.mem_append.mp hx with hx | hx
  · exact hempty x hx
  · exact hrest x hx

theorem eq_nil_of_holds {outputBuffer : E → Str} {s : CTCodeIME E} (he : outputBuffer s.client.engine = [])
    {t : Str} (h : s.Holds outputBuffer t) : t = [] := by
  rcases h with h | ⟨srv, es, hmute, x, hx, h⟩
  · rw [he] at h
    exact List.infix_nil.mp h
  · obtain ⟨new, hnew, hempty⟩ := run_sessions_of_mute hmute s es
    rw [sessionsSince, hnew, List.drop_left] at hx
    rw [hempty x hx] at h
    exact (Utf16.encode_eq_nil t).mp (List.infix_nil.mp h)

theorem drained_of_mem_exchanges {srv : Server E} {s : CTCodeIME E} {k : Keystroke} {t : Str}
    (h : ⟨.commit, some t⟩ ∈ s.exchanges srv k) (pastEnd : WChar) :
    (∃ e c, srv.committed e = some c ∧ (s.requested srv k).engine = srv.after .commit e) ∧
      ∃ composition, s.requestedSession srv pastEnd k = some (utf8ToWide t, composition) := by
  unfold exchanges at h
  cases hreq : k.request s.selectedIndex with
  | none =>
    rw [hreq] at h
    cases h
  | some request =>
    rw [hreq] at h
    simp only [Option.elim, List.mem_cons, Exchange.mk.injEq] at h
    rcases h with ⟨rfl, -⟩ | h
    · exact absurd hreq (k.request_ne_commit s.selectedIndex)
    · split_ifs at h with hd
      · simp only [List.mem_singleton, Exchange.mk.injEq, true_and] at h
        obtain ⟨c, hc, rfl⟩ := Option.map_eq_some_iff.mp h.symm
        have htext : s.drainedText srv k = c.output := by
          simp [drainedText, hreq, hd, CEngineClient.drainedText, hc]
        have hresponse : s.response srv k = (s.client.asked srv request).lastResponse := by
          simp [response, hreq, CEngineClient.asked]
        refine ⟨⟨_, c, hc, by simp [requested, hreq, hd, CEngineClient.drained]⟩, ?_⟩
        rw [requestedSession, htext, hresponse]
        cases k with
        | put ch => exact ⟨_, rfl⟩
        | select => exact ⟨[], if_pos hd⟩
        | _ => cases hd
      · cases h

section Drained

variable {srv : Server E} {o : KeyOutcomes} {pic : ContextId} {wParam : ℕ} {keys : Modifiers}
  {s : CTCodeIME E} {t : Str}

theorem drained_onKeyDown
    (hcommit : ⟨.commit, some t⟩ ∈ s.exchangesSince (s.onKeyDown srv o pic wParam keys).ime) :
    (∃ e c, srv.committed e = some c ∧
      (s.onKeyDown srv o pic wParam keys).ime.client.engine = srv.after .commit e) ∧
      ∃ composition, s.requestedSession srv o.pastEnd (s.keystroke o.compartment wParam keys) =
        some (utf8ToWide t, composition) := by
  rw [exchangesSince_onKeyDown] at hcommit
  rw [onKeyDown_engine]
  exact drained_of_mem_exchanges hcommit o.pastEnd

theorem eq_nil_of_holds_drained {outputBuffer : E → Str}
    (hdrain : ∀ e c, srv.committed e = some c → outputBuffer (srv.after .commit e) = [])
    (hcommit : ⟨.commit, some t⟩ ∈ s.exchangesSince (s.onKeyDown srv o pic wParam keys).ime)
    (h : (s.onKeyDown srv o pic wParam keys).ime.Holds outputBuffer t) : t = [] := by
  obtain ⟨⟨e, c, hc, he⟩, -⟩ := drained_onKeyDown hcommit
  exact eq_nil_of_holds (by rw [he]; exact hdrain e c hc) h

theorem writesSince_of_drained
    (hcommit : ⟨.commit, some t⟩ ∈ s.exchangesSince (s.onKeyDown srv o pic wParam keys).ime)
    (hne : t ≠ []) (hz : '\x00' ∉ t)
    (hexit : (s.onKeyDown srv o pic wParam keys).exit = .returned) :
    ∃ new, (∀ w ∈ new, w.kind = .composition) ∧
      s.writesSince (s.onKeyDown srv o pic wParam keys).ime =
        (if o.session.inserts pic s.text then [⟨pic, .committed, Utf16.encode t⟩] else []) ++
        (if o.session.wipes pic s.text then [⟨pic, .cleared, []⟩] else []) ++ new := by
  obtain ⟨-, composition, hsession⟩ := drained_onKeyDown hcommit
  have ht := (onKeyDown_returned srv o pic wParam keys s hexit).2.1
  rw [hsession, (utf8ToWide_eq_encode t).mpr hz] at ht
  obtain ⟨new, hkind, hnew⟩ := CManageCompositionEditSession.requestEditSession_writes
    (mt (Utf16.encode_eq_nil t).mp hne) ht
  exact ⟨new, hkind, by rw [writesSince, hnew, List.drop_left]⟩

theorem inserted_iff
    (hcommit : ⟨.commit, some t⟩ ∈ s.exchangesSince (s.onKeyDown srv o pic wParam keys).ime)
    (hz : '\x00' ∉ t) (hexit : (s.onKeyDown srv o pic wParam keys).exit = .returned) :
    s.Inserted pic t (s.onKeyDown srv o pic wParam keys).ime ↔
      t = [] ∨ o.session.inserts pic s.text := by
  by_cases hne : t = []
  · exact iff_of_true (.inl hne) (.inl hne)
  obtain ⟨new, hkind, hnew⟩ := writesSince_of_drained hcommit hne hz hexit
  have hnot : ⟨pic, .committed, Utf16.encode t⟩ ∉ new := fun h => by cases hkind _ h
  apply or_congr_right
  rw [hnew]
  split_ifs with hi hw <;> simp [hi, hnot]

theorem cleared_iff
    (hcommit : ⟨.commit, some t⟩ ∈ s.exchangesSince (s.onKeyDown srv o pic wParam keys).ime)
    (hne : t ≠ []) (hz : '\x00' ∉ t)
    (hexit : (s.onKeyDown srv o pic wParam keys).exit = .returned) :
    (∃ w ∈ s.writesSince (s.onKeyDown srv o pic wParam keys).ime, w.kind = .cleared) ↔
      o.session.wipes pic s.text := by
  obtain ⟨new, hkind, hnew⟩ := writesSince_of_drained hcommit hne hz hexit
  have hnot : ¬ ∃ w ∈ new, w.kind = .cleared := by
    rintro ⟨w, hw, hcleared⟩
    rw [hkind w hw] at hcleared
    cases hcleared
  simp only [hnew, List.mem_append, or_and_right, exists_or, hnot, or_false]
  split_ifs with hi hw <;> simp [*]

end Drained

theorem drained_text_survives_iff (srv : Server E) (outputBuffer : E → Str)
    (hdrain : ∀ e c, srv.committed e = some c → outputBuffer (srv.after .commit e) = [])
    (o : KeyOutcomes) (pic : ContextId) (wParam : ℕ) (keys : Modifiers) (s : CTCodeIME E) (t : Str)
    (hcommit : ⟨.commit, some t⟩ ∈ s.exchangesSince (s.onKeyDown srv o pic wParam keys).ime)
    (hz : '\x00' ∉ t) (hexit : (s.onKeyDown srv o pic wParam keys).exit = .returned) :
    let s' := (s.onKeyDown srv o pic wParam keys).ime
    (s.Inserted pic t s' ∨ s'.Holds outputBuffer t ↔ t = [] ∨ o.session.inserts pic s.text) ∧
      (¬ s.Inserted pic t s' →
        ((∃ w ∈ s.writesSince s', w.kind = .cleared) ↔ o.session.wipes pic s.text)) ∧
      (o.session.request ≠ .granted →
        s'.text.contexts = s.text.contexts ∧ s'.text.pComposition = s.text.pComposition) := by
  intro s'
  refine ⟨?_, fun hnot => ?_, fun hrefused => ?_⟩
  · rw [← inserted_iff hcommit hz hexit]
    refine ⟨fun h => h.elim id fun hheld => ?_, .inl⟩
    exact .inl (eq_nil_of_holds_drained hdrain hcommit hheld)
  · exact cleared_iff hcommit (fun h => hnot (.inl h)) hz hexit
  · obtain ⟨-, composition, hsession⟩ := drained_onKeyDown hcommit
    have ht := (onKeyDown_returned srv o pic wParam keys s hexit).2.1
    rw [hsession, editText, Option.elim,
      CManageCompositionEditSession.requestEditSession_of_not_granted _ _ _ _ hrefused] at ht
    rw [← Option.some.inj ht]
    exact ⟨rfl, rfl⟩

theorem drained_text_survives_put :
    let outputBuffer : ℕ → Str := fun n => if n = 2 then "の".toList else []
    let srv := Server.scripted
      [.status ⟨[], [], [], "Some(j)".toList, true⟩, .status ⟨"の".toList, [], [], "None".toList, true⟩,
        .commit ⟨"の".toList⟩]
    let s := Runs.run (step srv) fresh [.activate {}, .ctrlSlash, .key 0x4A]
    let s' := (s.onKeyDown srv {} 0 0x46 {}).ime
    s.Inserted 0 "の".toList s' ∨ s'.Holds outputBuffer "の".toList := by
  intro outputBuffer srv s s'
  have hsrv : KeepsOutputBuffer srv outputBuffer :=
    keepsOutputBuffer_scripted (by decide +kernel) (by decide +kernel)
  exact (drained_text_survives_iff srv outputBuffer (fun e c hc => (hsrv.commit e c hc).2) {} 0 0x46 {} s
    "の".toList (by decide +kernel) (by decide +kernel) (by decide +kernel)).1.mpr
    (.inr (by decide +kernel))

/-- A stroke whose edit session is refused, and one whose preedit has no range for the committed
text but one for the wipe. -/
theorem drained_text_lost :
    let outputBuffer : ℕ → Str := fun n => if n = 2 then "の".toList else []
    let srv := Server.scripted
      [.status ⟨[], [], [], "Some(j)".toList, true⟩, .status ⟨"の".toList, [], [], "None".toList, true⟩,
        .commit ⟨"の".toList⟩]
    let s := Runs.run (step srv) fresh [.activate {}, .ctrlSlash, .key 0x4A]
    let refused := s.onKeyDown srv { session := { request := .refused } } 0 0x46 {}
    let rangeless := s.onKeyDown srv { session := { commit := { getRange := false } } } 0 0x46 {}
    KeepsOutputBuffer srv outputBuffer ∧
      (⟨.commit, some "の".toList⟩ ∈ s.exchangesSince refused.ime ∧ refused.exit = .returned ∧
        ¬ s.Inserted 0 "の".toList refused.ime ∧ ¬ refused.ime.Holds outputBuffer "の".toList) ∧
      (⟨.commit, some "の".toList⟩ ∈ s.exchangesSince rangeless.ime ∧ rangeless.exit = .returned ∧
        ¬ s.Inserted 0 "の".toList rangeless.ime ∧
        (s.text.contexts 0).text = Utf16.encode "(j)".toList ∧
        (rangeless.ime.text.contexts 0).text = []) := by
  intro outputBuffer srv s refused rangeless
  have hsrv : KeepsOutputBuffer srv outputBuffer :=
    keepsOutputBuffer_scripted (by decide +kernel) (by decide +kernel)
  have hcommit : ⟨.commit, some "の".toList⟩ ∈ s.exchangesSince refused.ime := by decide +kernel
  refine ⟨hsrv, ⟨hcommit, by decide +kernel, by decide +kernel, fun h => ?_⟩, by decide +kernel⟩
  exact absurd (eq_nil_of_holds_drained (fun e c hc => (hsrv.commit e c hc).2) hcommit h) (by decide)

end CTCodeIME

end TCodeIME
