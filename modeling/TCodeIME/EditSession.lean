import TCodeIME.TextServices

namespace TCodeIME

/-- `RequestEditSession` fails itself, grants no synchronous lock, or runs the session. -/
inductive RequestOutcome where
  | refused
  | notGranted
  | granted
deriving DecidableEq

/-- `StartComposition` fails, succeeds without a composition, or starts one. -/
inductive StartOutcome where
  | failed
  | rejected
  | started
deriving DecidableEq

/-! Whether each call in the three parts of `DoEditSession` succeeds. -/

structure CommitOutcomes where
  getRange : Bool := true
  getSelection : Bool := true
  setText : Bool := true
  endComposition : Bool := true
  setSelection : Bool := true
deriving DecidableEq

structure ClearOutcomes where
  getRange : Bool := true
  setText : Bool := true
  endComposition : Bool := true
deriving DecidableEq

structure StartOutcomes where
  queryInterface : Bool := true
  getSelection : Bool := true
  startComposition : StartOutcome := .started
  getRange : Bool := true
  setText : Bool := true
  setSelection : Bool := true
deriving DecidableEq

structure SessionOutcomes where
  request : RequestOutcome := .granted
  commit : CommitOutcomes := {}
  clear : ClearOutcomes := {}
  start : StartOutcomes := {}
deriving DecidableEq

namespace CManageCompositionEditSession

def committedRange (o : CommitOutcomes) (ec : ContextId) (t : TextServices) : Option Range :=
  match t.pComposition with
  | some k => t.getRange o.getRange k
  | none => t.getSelection o.getSelection ec

def insertCommitted (o : CommitOutcomes) (ec : ContextId) (committed : WString) (r : Range)
    (t : TextServices) : TextServices :=
  let w := t.setText o.setText ec .committed r committed
  (w.1.endComposition o.endComposition ec).setSelection o.setSelection ec
    ⟨w.2.context, w.2.span.collapseEnd⟩

/-- Part 1 of `DoEditSession`: the committed text replaces the composition or the selection. -/
def commitText (o : CommitOutcomes) (ec : ContextId) (committed : WString) (t : TextServices) :
    TextServices :=
  if committed.isEmpty then t
  else
    match committedRange o ec t with
    | none => t
    | some r => insertCommitted o ec committed r t

/-- Part 2: whatever composition is left is wiped out and ended. -/
def clearComposition (o : ClearOutcomes) (ec : ContextId) (t : TextServices) : TextServices :=
  match t.pComposition with
  | none => t
  | some k =>
    match t.getRange o.getRange k with
    | some r => (t.setText o.setText ec .cleared r []).1.endComposition o.endComposition ec
    | none => t.endComposition o.endComposition ec

def insertComposition (o : StartOutcomes) (ec : ContextId) (composition : WString)
    (t : TextServices) : TextServices :=
  match t.pComposition.bind (t.getRange o.getRange ·) with
  | none => t
  | some r =>
    let w := t.setText o.setText ec .composition r composition
    w.1.setSelection o.setSelection ec ⟨w.2.context, w.2.span.collapseEnd⟩

/-- The new composition. When `StartComposition` succeeds without yielding one, the call that
follows dereferences a null pointer. -/
def startPreedit (o : StartOutcomes) (ec : ContextId) (composition : WString) (t : TextServices) :
    Option TextServices :=
  if composition.isEmpty ∨ o.queryInterface = false then some t
  else
    match t.getSelection o.getSelection ec with
    | none => some t
    | some _ =>
      match o.startComposition with
      | .failed => some t
      | .rejected => none
      | .started => some (insertComposition o ec composition (t.startComposition ec))

def doEditSession (o : SessionOutcomes) (ec : ContextId) (committed composition : WString)
    (t : TextServices) : Option TextServices :=
  startPreedit o.start ec composition
    (clearComposition o.clear ec (commitText o.commit ec committed t))

def requestEditSession (o : SessionOutcomes) (pic : ContextId) (committed composition : WString)
    (t : TextServices) : Option TextServices :=
  let t := t.request ⟨pic, committed, composition⟩
  match o.request with
  | .granted => doEditSession o pic committed composition t
  | .refused => some t
  | .notGranted => some t

theorem commitText_nil (o : CommitOutcomes) (ec : ContextId) (t : TextServices) :
    commitText o ec [] t = t := rfl

theorem clearComposition_of_none (o : ClearOutcomes) (ec : ContextId) {t : TextServices}
    (h : t.pComposition = none) : clearComposition o ec t = t := by
  simp [clearComposition, h]

theorem doEditSession_nil_of_none (o : SessionOutcomes) (ec : ContextId) {t : TextServices}
    (h : t.pComposition = none) : doEditSession o ec [] [] t = some t := by
  rw [doEditSession, commitText_nil, clearComposition_of_none _ _ h]
  simp [startPreedit]

@[simp] theorem insertCommitted_pComposition (o : CommitOutcomes) (ec : ContextId)
    (committed : WString) (r : Range) (t : TextServices) :
    (insertCommitted o ec committed r t).pComposition = none := by
  simp [insertCommitted]

@[simp] theorem commitText_nextComposition (o : CommitOutcomes) (ec : ContextId) (committed : WString)
    (t : TextServices) : (commitText o ec committed t).nextComposition = t.nextComposition := by
  unfold commitText
  split_ifs
  · rfl
  · split <;> simp [insertCommitted]

@[simp] theorem commitText_sessions (o : CommitOutcomes) (ec : ContextId) (committed : WString)
    (t : TextServices) : (commitText o ec committed t).sessions = t.sessions := by
  unfold commitText
  split_ifs
  · rfl
  · split <;> simp [insertCommitted]

@[simp] theorem clearComposition_pComposition (o : ClearOutcomes) (ec : ContextId)
    (t : TextServices) : (clearComposition o ec t).pComposition = none := by
  unfold clearComposition
  split
  · assumption
  · split <;> simp

theorem clearComposition_text (o : ClearOutcomes) (ec : ContextId) (t : TextServices) (c : ContextId) :
    ((clearComposition o ec t).contexts c).text = (t.contexts c).text ∨
      ∃ k m, t.pComposition = some k ∧ (t.contexts k.context).marks k.id = some m ∧ c = k.context ∧
        ((clearComposition o ec t).contexts c).text = splice (t.contexts c).text m [] := by
  unfold clearComposition
  split
  · exact .inl rfl
  · next k hk =>
    split
    · next r hr =>
      simp only [TextServices.getRange] at hr
      split_ifs at hr
      obtain ⟨m, hm, rfl⟩ := Option.map_eq_some_iff.mp hr
      rw [TextServices.endComposition_text]
      rcases TextServices.setText_text o.setText ec .cleared ⟨k.context, m⟩ [] t c with h | ⟨hc, h⟩
      · exact .inl h
      · exact .inr ⟨k, m, hk, hm, hc, h⟩
    · exact .inl (TextServices.endComposition_text _ _ t c)

@[simp] theorem clearComposition_nextComposition (o : ClearOutcomes) (ec : ContextId)
    (t : TextServices) : (clearComposition o ec t).nextComposition = t.nextComposition := by
  unfold clearComposition
  split
  · rfl
  · split <;> simp

@[simp] theorem clearComposition_sessions (o : ClearOutcomes) (ec : ContextId) (t : TextServices) :
    (clearComposition o ec t).sessions = t.sessions := by
  unfold clearComposition
  split
  · rfl
  · split <;> simp

@[simp] theorem insertComposition_pComposition (o : StartOutcomes) (ec : ContextId)
    (composition : WString) (t : TextServices) :
    (insertComposition o ec composition t).pComposition = t.pComposition := by
  unfold insertComposition
  split <;> simp

@[simp] theorem insertComposition_sessions (o : StartOutcomes) (ec : ContextId)
    (composition : WString) (t : TextServices) :
    (insertComposition o ec composition t).sessions = t.sessions := by
  unfold insertComposition
  split <;> simp

theorem startPreedit_ok (ec : ContextId) (composition : WString) (t : TextServices) :
    startPreedit {} ec composition t = some (if composition.isEmpty then t
      else insertComposition {} ec composition (t.startComposition ec)) := by
  unfold startPreedit
  by_cases h : composition.isEmpty = true
  · rw [if_pos (.inl h), if_pos h]
  · rw [if_neg (by simp [h]), if_neg h]
    rfl

theorem doEditSession_pComposition {ec : ContextId} {committed composition : WString}
    {t t' : TextServices} (h : doEditSession {} ec committed composition t = some t') :
    t'.pComposition = if composition.isEmpty then none else some ⟨ec, t.nextComposition⟩ := by
  rw [doEditSession, startPreedit_ok, Option.some.injEq] at h
  rw [← h]
  by_cases hempty : composition.isEmpty = true
  · rw [if_pos hempty, if_pos hempty, clearComposition_pComposition]
  · rw [if_neg hempty, if_neg hempty, insertComposition_pComposition]
    simp [TextServices.startComposition]

theorem doEditSession_composing {ec : ContextId} {committed composition : WString}
    {t t' : TextServices} (h : doEditSession {} ec committed composition t = some t') :
    t'.pComposition.isSome = !composition.isEmpty := by
  rw [doEditSession_pComposition h]
  split_ifs with hempty <;> simp [hempty]

theorem requestEditSession_nil_of_none (o : SessionOutcomes) (pic : ContextId) {t : TextServices}
    (h : t.pComposition = none) :
    requestEditSession o pic [] [] t = some (t.request ⟨pic, [], []⟩) := by
  unfold requestEditSession
  dsimp only
  cases o.request with
  | granted => exact doEditSession_nil_of_none o pic h
  | refused => rfl
  | notGranted => rfl

theorem startPreedit_sessions {o : StartOutcomes} {ec : ContextId} {composition : WString}
    {t t' : TextServices} (h : startPreedit o ec composition t = some t') :
    t'.sessions = t.sessions := by
  unfold startPreedit at h
  split_ifs at h
  · cases h; rfl
  · split at h
    · cases h; rfl
    · split at h
      · cases h; rfl
      · cases h
      · cases h; simp [TextServices.startComposition]

theorem requestEditSession_sessions {o : SessionOutcomes} {pic : ContextId}
    {committed composition : WString} {t t' : TextServices}
    (h : requestEditSession o pic committed composition t = some t') :
    t'.sessions = t.sessions ++ [⟨pic, committed, composition⟩] := by
  unfold requestEditSession at h
  dsimp only at h
  split at h
  · rw [startPreedit_sessions h]
    simp [TextServices.request]
  · cases h; rfl
  · cases h; rfl

/-! Which of its writes take effect. -/

def inserts (o : CommitOutcomes) (ec : ContextId) (t : TextServices) : Prop :=
  o.setText = true ∧ t.pComposition.elim (o.getSelection = true) fun k =>
    o.getRange = true ∧ k.context = ec

def wipes (o : ClearOutcomes) (ec : ContextId) (t : TextServices) : Prop :=
  (o.getRange = true ∧ o.setText = true) ∧ t.pComposition.elim False fun k => k.context = ec

instance (o : CommitOutcomes) (ec : ContextId) (t : TextServices) : Decidable (inserts o ec t) :=
  match h : t.pComposition with
  | none => decidable_of_iff (o.setText = true ∧ o.getSelection = true) (by simp [inserts, h])
  | some k =>
    decidable_of_iff (o.setText = true ∧ o.getRange = true ∧ k.context = ec) (by simp [inserts, h])

instance (o : ClearOutcomes) (ec : ContextId) (t : TextServices) : Decidable (wipes o ec t) :=
  match h : t.pComposition with
  | none => isFalse (by simp [wipes, h])
  | some k =>
    decidable_of_iff ((o.getRange = true ∧ o.setText = true) ∧ k.context = ec) (by simp [wipes, h])

theorem setText_writes_live {t : TextServices} {k : Composition} (h : t.pComposition = some k)
    {r : Range} (hr : t.getRange true k = some r) (ok : Bool) (ec : ContextId) (kind : WriteKind)
    (text : WString) : (t.setText ok ec kind r text).1.writes =
      t.writes ++ if ok = true ∧ k.context = ec then [⟨ec, kind, text⟩] else [] := by
  obtain ⟨span, hspan, hle⟩ := TextServices.getRange_live h
  rw [hspan, Option.some.injEq] at hr
  subst hr
  rw [TextServices.setText_writes]
  by_cases hc : k.context = ec
  · subst hc
    by_cases hok : ok = true <;> simp [hok, hle]
  · simp [hc]

theorem setText_writes_selection (t : TextServices) (ok : Bool) (ec : ContextId) (kind : WriteKind)
    (text : WString) : (t.setText ok ec kind ⟨ec, (t.contexts ec).selection⟩ text).1.writes =
      t.writes ++ if ok = true then [⟨ec, kind, text⟩] else [] := by
  have hle := (t.contexts ec).selection_le
  rw [TextServices.setText_writes]
  by_cases hok : ok = true <;> simp [hok, hle]

theorem commitText_writes (o : CommitOutcomes) (ec : ContextId) {committed : WString}
    (h : committed ≠ []) (t : TextServices) :
    (commitText o ec committed t).writes =
      t.writes ++ if inserts o ec t then [⟨ec, .committed, committed⟩] else [] := by
  have hne : committed.isEmpty = false := by simpa using h
  rw [commitText, hne, if_neg (by simp), committedRange]
  cases hk : t.pComposition with
  | none =>
    cases hsel : o.getSelection with
    | false => simp [TextServices.getSelection, inserts, hk, hsel]
    | true =>
      simp [TextServices.getSelection, insertCommitted, setText_writes_selection, inserts, hk, hsel]
  | some k =>
    cases hget : o.getRange with
    | false => simp [TextServices.getRange, inserts, hk, hget]
    | true =>
      obtain ⟨span, hspan, -⟩ := TextServices.getRange_live hk
      simp [hspan, insertCommitted, setText_writes_live hk hspan, inserts, hk, hget]

theorem commitText_pComposition (o : CommitOutcomes) (ec : ContextId) {committed : WString}
    (h : committed ≠ []) (t : TextServices) :
    (commitText o ec committed t).pComposition = if o.getRange = true then none else t.pComposition := by
  have hne : committed.isEmpty = false := by simpa using h
  rw [commitText, hne, if_neg (by simp), committedRange]
  cases hk : t.pComposition with
  | none => cases o.getSelection <;> simp [TextServices.getSelection, hk]
  | some k =>
    cases hget : o.getRange with
    | false => simpa [TextServices.getRange] using hk
    | true =>
      obtain ⟨span, hspan, -⟩ := TextServices.getRange_live hk
      simp [hspan]

theorem clearComposition_writes (o : ClearOutcomes) (ec : ContextId) (t : TextServices) :
    (clearComposition o ec t).writes =
      t.writes ++ if wipes o ec t then [⟨ec, .cleared, []⟩] else [] := by
  unfold clearComposition
  split
  · next hk => simp [wipes, hk]
  · next k hk =>
    cases hget : o.getRange with
    | false => simp [TextServices.getRange, wipes, hk, hget]
    | true =>
      obtain ⟨span, hspan, -⟩ := TextServices.getRange_live hk
      simp [hspan, setText_writes_live hk hspan, wipes, hk, hget]

theorem startPreedit_writes {o : StartOutcomes} {ec : ContextId} {composition : WString}
    {t t' : TextServices} (h : startPreedit o ec composition t = some t') :
    ∃ new, t'.writes = t.writes ++ new ∧ ∀ w ∈ new, w.kind = .composition := by
  have unchanged : ∃ new, t.writes = t.writes ++ new ∧ ∀ w ∈ new, w.kind = .composition :=
    ⟨[], by simp, by simp⟩
  unfold startPreedit at h
  split_ifs at h
  · exact Option.some.inj h ▸ unchanged
  · split at h
    · exact Option.some.inj h ▸ unchanged
    · split at h
      · exact Option.some.inj h ▸ unchanged
      · cases h
      · rw [← Option.some.inj h]
        unfold insertComposition
        split
        · exact unchanged
        · simp only [TextServices.setSelection_writes, TextServices.setText_writes]
          split_ifs
          · exact ⟨[_], rfl, by simp⟩
          · exact unchanged

end CManageCompositionEditSession

end TCodeIME
