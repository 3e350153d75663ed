import TCodeIME.DeadCompositions
import TCodeIME.Library.Runs
import Mathlib.Data.List.Nodup

/-!
When an edit session outlives the calls that terminate its composition behind its back.
-/

open Runs

namespace TCodeIME

namespace CompositionRefs

/-- Of the references obtained, those that are not released are in local variables, `loc`, or in
`_pComposition`. -/
structure Balanced (loc : List Reference) (s : CompositionRefs) : Prop where
  nodup : s.obtained.Nodup
  numbered : ∀ r ∈ s.obtained, r.number < s.next
  outstanding : s.obtained.Perm (s.released ++ (loc ++ s.pComposition.toList))

/-- The call `x` has a result exactly under the condition `c`. Its result has the local references
`loc`, and `p` says whether it has a composition. -/
def Outcome (c : Prop) (loc : List Reference) (p : Bool) (x : Option CompositionRefs) : Prop :=
  (c → ∃ t, x = some t ∧ t.Balanced loc ∧ t.pComposition.isSome = p) ∧ (¬c → x = none)

variable {loc loc' : List Reference} {s : CompositionRefs} {r : Reference}

theorem Outcome.pure {p : Bool} (hs : s.Balanced loc) (hp : s.pComposition.isSome = p) :
    Outcome True loc p (some s) := ⟨fun _ => ⟨s, rfl, hs, hp⟩, fun h => absurd trivial h⟩

theorem Outcome.bind {c c' : Prop} {p q : Bool} {x : Option CompositionRefs}
    {f : CompositionRefs → Option CompositionRefs} (hx : Outcome c loc p x)
    (hf : ∀ t : CompositionRefs, t.Balanced loc → t.pComposition.isSome = p →
      Outcome c' loc' q (f t)) : Outcome (c ∧ c') loc' q (x >>= f) := by
  constructor
  · rintro ⟨hc, hc'⟩
    obtain ⟨t, rfl, ht, hp⟩ := hx.1 hc
    exact (hf t ht hp).1 hc'
  · intro hnot
    by_cases hc : c
    · obtain ⟨t, rfl, ht, hp⟩ := hx.1 hc
      exact (hf t ht hp).2 fun hc' => hnot ⟨hc, hc'⟩
    · rw [hx.2 hc]
      rfl

theorem Outcome.congr {c c' : Prop} {p : Bool} {x : Option CompositionRefs} (hx : Outcome c loc p x)
    (h : c ↔ c') : Outcome c' loc p x := propext h ▸ hx

theorem Outcome.of_iff {c c' : Prop} {p q : Bool} {x : Option CompositionRefs}
    (hx : Outcome c loc p x) (h : c ↔ c') (hp : p = q) : Outcome c' loc q x := hp ▸ hx.congr h

theorem Balanced.live (hs : s.Balanced loc) (hr : r ∈ loc ++ s.pComposition.toList) :
    r ∈ s.obtained ∧ r ∉ s.released := by
  have hnodup := hs.outstanding.nodup_iff.mp hs.nodup
  refine ⟨hs.outstanding.mem_iff.mpr (List.mem_append_right _ hr), fun hrel => ?_⟩
  exact (List.nodup_append.mp hnodup).2.2 r hrel r hr rfl

theorem use_eq (hs : s.Balanced loc) (hr : r ∈ loc ++ s.pComposition.toList) : s.use r = some s :=
  if_pos (hs.live hr)

theorem use_outcome (hs : s.Balanced loc) (hr : r ∈ loc) {p : Bool}
    (hp : s.pComposition.isSome = p) : Outcome True loc p (s.use r) := by
  rw [use_eq hs (List.mem_append_left _ hr)]
  exact Outcome.pure hs hp

theorem release_outcome (hs : s.Balanced (r :: loc)) {p : Bool} (hp : s.pComposition.isSome = p) :
    Outcome True loc p (s.release r) := by
  rw [release, use_eq hs (by simp)]
  refine Outcome.pure ⟨hs.nodup, hs.numbered, hs.outstanding.trans ?_⟩ hp
  exact List.perm_middle

theorem Balanced.composition_cases (hs : s.Balanced loc) {p : Bool}
    (hp : s.pComposition.isSome = p) :
    s.pComposition = none ∧ p = false ∨
      ∃ c, s.pComposition = some c ∧ p = true ∧ s.use c = some s := by
  subst hp
  cases hc : s.pComposition with
  | none => exact .inl ⟨rfl, rfl⟩
  | some c => exact .inr ⟨c, rfl, rfl, use_eq hs (by simp [hc])⟩

theorem useComposition_outcome (hs : s.Balanced loc) {p : Bool} (hp : s.pComposition.isSome = p) :
    Outcome (p = true) loc p s.useComposition := by
  rcases hs.composition_cases hp with ⟨hc, rfl⟩ | ⟨c, hc, rfl, huse⟩
  · simp [Outcome, useComposition, hc]
  · have heq : s.useComposition = some s := by simp [useComposition, hc, huse]
    rw [heq]
    exact (Outcome.pure hs hp).congr (by simp)

theorem releaseComposition_outcome (hs : s.Balanced loc) {p : Bool}
    (hp : s.pComposition.isSome = p) : Outcome (p = true) loc false s.releaseComposition := by
  rcases hs.composition_cases hp with ⟨hc, rfl⟩ | ⟨c, hc, rfl, huse⟩
  · simp [Outcome, releaseComposition, hc]
  · have heq : s.releaseComposition =
        some { s with released := c :: s.released, pComposition := none } := by
      simp [releaseComposition, release, hc, huse]
    have hmove : (s.released ++ (loc ++ s.pComposition.toList)).Perm
        (c :: s.released ++ (loc ++ [])) := by
      rw [hc, Option.toList_some, List.append_nil, ← List.append_assoc]
      exact List.perm_append_singleton c _
    have hpure : Outcome True loc false
        (some { s with released := c :: s.released, pComposition := none }) :=
      Outcome.pure ⟨hs.nodup, hs.numbered, hs.outstanding.trans hmove⟩ rfl
    rw [heq]
    exact hpure.congr (by simp)

theorem reenter_outcome (hs : s.Balanced loc) {p : Bool} (hp : s.pComposition.isSome = p)
    (reenters : Bool) : Outcome True loc (p && !reenters) (s.reenter reenters) := by
  cases reenters with
  | false =>
    rw [Bool.not_false, Bool.and_true]
    exact Outcome.pure hs hp
  | true =>
    rw [Bool.not_true, Bool.and_false]
    change Outcome _ _ _ s.onCompositionTerminated
    unfold onCompositionTerminated
    split_ifs with h
    · exact (releaseComposition_outcome hs hp).congr (by simp [← hp, h])
    · exact Outcome.pure hs (by simpa using h)

theorem endComposition_outcome (hs : s.Balanced loc) {p : Bool} (hp : s.pComposition.isSome = p)
    (reenters : Bool) :
    Outcome (p = true ∧ reenters = false) loc false (s.endComposition reenters) := by
  have h := (useComposition_outcome hs hp).bind fun t ht hpt =>
    (reenter_outcome ht hpt reenters).bind fun u hu hpu => releaseComposition_outcome hu hpu
  exact h.congr (by cases p <;> simp)

theorem setText_outcome (hs : s.Balanced loc) (hr : r ∈ loc) {p : Bool}
    (hp : s.pComposition.isSome = p) (reenters : Bool) :
    Outcome True loc (p && !reenters) (s.setText r reenters) := by
  have h := (use_outcome hs hr hp).bind fun t ht hpt => reenter_outcome ht hpt reenters
  exact h.congr (by simp)

theorem collapseAndSelect_outcome (hs : s.Balanced (r :: loc)) {p : Bool}
    (hp : s.pComposition.isSome = p) (reenters : Bool) :
    Outcome True loc (p && !reenters) (s.collapseAndSelect r reenters) := by
  have h := (use_outcome hs List.mem_cons_self hp).bind fun t ht hpt =>
    (use_outcome ht List.mem_cons_self hpt).bind fun u hu hpu =>
      (reenter_outcome hu hpu reenters).bind fun v hv hpv => release_outcome hv hpv
  exact h.congr (by simp)

/-! Ranges -/

theorem Balanced.obtain (hs : s.Balanced loc) :
    { s with obtained := .range s.next :: s.obtained, next := s.next + 1 }.Balanced
      (.range s.next :: loc) where
  nodup := List.nodup_cons.mpr ⟨fun h => Nat.lt_irrefl _ (hs.numbered _ h), hs.nodup⟩
  numbered q hq := by
    rcases List.mem_cons.mp hq with rfl | hq
    · exact Nat.lt_succ_self _
    · exact Nat.lt_succ_of_lt (hs.numbered q hq)
  outstanding := (hs.outstanding.cons _).trans List.perm_middle.symm

section

variable {c₁ c₂ : Prop} {p q₁ q₂ : Bool}
  {f : Option Reference × CompositionRefs → Option CompositionRefs}

theorem Outcome.obtainRange (succeeds : Bool) (hs : s.Balanced loc) (hp : s.pComposition.isSome = p)
    (hsome : ∀ r t, Balanced (r :: loc) t → t.pComposition.isSome = p →
      Outcome c₁ loc' q₁ (f (some r, t)))
    (hnone : Outcome c₂ loc' q₂ (f (none, s))) :
    Outcome (if succeeds then c₁ else c₂) loc' (if succeeds then q₁ else q₂)
      (f (s.obtainRange succeeds)) := by
  cases succeeds with
  | true => exact hsome _ _ hs.obtain hp
  | false => exact hnone

theorem Outcome.getRange (succeeds : Bool) (hs : s.Balanced loc) (hp : s.pComposition.isSome = p)
    (hsome : ∀ r t, Balanced (r :: loc) t → t.pComposition.isSome = p →
      Outcome c₁ loc' q₁ (f (some r, t)))
    (hnone : ∀ t, Balanced loc t → t.pComposition.isSome = p → Outcome c₂ loc' q₂ (f (none, t))) :
    Outcome (p = true ∧ if succeeds then c₁ else c₂) loc' (if succeeds then q₁ else q₂)
      (s.getRange succeeds >>= f) := by
  have h := (useComposition_outcome hs hp).bind fun t ht hpt =>
    Outcome.obtainRange succeeds ht hpt hsome (hnone t ht hpt)
  rw [CompositionRefs.getRange, Option.bind_eq_bind, Option.bind_map]
  exact h

end

/-! The parts of `DoEditSession` -/

theorem endIfComposing_outcome (hs : s.Balanced loc) {p : Bool} (hp : s.pComposition.isSome = p)
    (reenters : Bool) :
    Outcome (p = true → reenters = false) loc false (s.endIfComposing reenters) := by
  unfold endIfComposing
  split_ifs with h
  · have hend := endComposition_outcome hs hp reenters
    exact hend.congr (by simp [← hp, h])
  · have hfalse : s.pComposition.isSome = false := by simpa using h
    exact (Outcome.pure hs hfalse).congr (by simp [← hp, h])

theorem insertCommitted_outcome (o : CommitCalls) (hs : s.Balanced (r :: loc)) {p : Bool}
    (hp : s.pComposition.isSome = p) :
    Outcome (p = true → o.setTextReenters = false → o.endCompositionReenters = false) loc false
      (s.insertCommitted o r) := by
  have h := (setText_outcome hs List.mem_cons_self hp o.setTextReenters).bind fun t ht hpt =>
    (endIfComposing_outcome ht hpt o.endCompositionReenters).bind fun u hu hpu =>
      collapseAndSelect_outcome hu hpu o.setSelectionReenters
  exact h.congr (by simp)

theorem commitText_outcome (o : CommitCalls) (committed : WString) (hs : s.Balanced loc) {p : Bool}
    (hp : s.pComposition.isSome = p) :
    Outcome
      (committed.isEmpty = false → p = true → o.getRange = true → o.setTextReenters = false →
        o.endCompositionReenters = false)
      loc (p && (committed.isEmpty || !o.getRange)) (s.commitText o committed) := by
  unfold commitText
  split_ifs with hempty
  · exact (Outcome.pure hs hp).of_iff (by simp [hempty]) (by simp [hempty])
  · unfold committedRange
    split_ifs with hsome
    · have hcomposing : p = true := hp.symm.trans hsome
      refine (Outcome.getRange o.getRange hs hp (fun r t ht hpt => insertCommitted_outcome o ht hpt)
        fun t ht hpt => Outcome.pure ht hpt).of_iff ?_ ?_
      · cases o.getRange <;> simp [hcomposing, hempty]
      · cases o.getRange <;> simp [hcomposing, hempty]
    · have hidle : p = false := by simpa [hp] using hsome
      refine (Outcome.obtainRange (f := fun x => some x >>= _) o.getSelection hs hp
        (fun r t ht hpt => insertCommitted_outcome o ht hpt) (Outcome.pure hs hp)).of_iff ?_ ?_
      · cases o.getSelection <;> simp [hidle]
      · cases o.getSelection <;> simp [hidle]

theorem clearComposition_outcome (o : ClearCalls) (hs : s.Balanced loc) {p : Bool}
    (hp : s.pComposition.isSome = p) :
    Outcome
      (p = true → o.endCompositionReenters = false ∧
        (o.getRange = true → o.setTextReenters = false))
      loc false (s.clearComposition o) := by
  unfold clearComposition
  split_ifs with hnone
  · have hidle : s.pComposition.isSome = false := by simpa using hnone
    exact (Outcome.pure hs hidle).congr (by simp [← hp, hidle])
  · have hcomposing : p = true := by
      rw [← hp]
      cases hc : s.pComposition with
      | none => simp [hc] at hnone
      | some c => rfl
    refine (Outcome.getRange o.getRange hs hp
      (fun r t ht hpt => (setText_outcome ht List.mem_cons_self hpt o.setTextReenters).bind
        fun u hu hpu => (release_outcome hu hpu).bind
          fun v hv hpv => endComposition_outcome hv hpv o.endCompositionReenters)
      fun t ht hpt => endComposition_outcome ht hpt o.endCompositionReenters).of_iff ?_ ?_
    · cases o.getRange <;> simp [hcomposing, and_comm]
    · cases o.getRange <;> rfl

theorem startComposition_outcome (o : StartOutcome) (reentry : StartReentry) (hs : s.Balanced loc)
    (hp : s.pComposition.isSome = false) :
    Outcome True loc (decide (o = .started) && !decide (reentry = .afterStored))
      (s.startComposition o reentry) := by
  have hstore : ∀ t : CompositionRefs, t.Balanced loc → t.pComposition.isSome = false →
      (t.storeComposition o).Balanced loc ∧
        (t.storeComposition o).pComposition.isSome = decide (o = .started) := by
    intro t ht hpt
    have hnone : t.pComposition = none := by simpa using hpt
    cases o with
    | failed => exact ⟨ht, hpt⟩
    | rejected =>
      refine ⟨⟨ht.nodup, ht.numbered, ?_⟩, rfl⟩
      have hout := ht.outstanding
      rw [hnone] at hout
      exact hout
    | started =>
      refine ⟨⟨List.nodup_cons.mpr ⟨fun h => Nat.lt_irrefl _ (ht.numbered _ h), ht.nodup⟩, ?_, ?_⟩, rfl⟩
      · intro q hq
        rcases List.mem_cons.mp hq with rfl | hq
        · exact Nat.lt_succ_self _
        · exact Nat.lt_succ_of_lt (ht.numbered q hq)
      · have hout := ht.outstanding
        rw [hnone, Option.toList_none, List.append_nil] at hout
        have hmove := (hout.cons (.composition t.next)).trans (List.perm_append_singleton _ _).symm
        rw [List.append_assoc] at hmove
        exact hmove
  have h := (reenter_outcome hs hp (reentry = .beforeStored)).bind fun t ht hpt =>
    reenter_outcome (hstore t ht (by simpa using hpt)).1 (hstore t ht (by simpa using hpt)).2
      (reentry = .afterStored)
  exact h.congr (by simp)

theorem insertComposition_outcome (o : StartCalls) (hs : s.Balanced loc) {p : Bool}
    (hp : s.pComposition.isSome = p) :
    Outcome (p = true) loc
      (p && !(o.getRange && (o.setTextReenters || o.setSelectionReenters)))
      (s.insertComposition o) := by
  refine (Outcome.getRange o.getRange hs hp
    (fun r t ht hpt => (setText_outcome ht List.mem_cons_self hpt o.setTextReenters).bind
      fun u hu hpu => collapseAndSelect_outcome hu hpu o.setSelectionReenters)
    fun t ht hpt => Outcome.pure ht hpt).of_iff ?_ ?_
  · cases o.getRange <;> simp
  · cases o.getRange <;> simp [Bool.and_assoc]

theorem insertIfStarted_outcome (o : StartCalls) (hs : s.Balanced loc) {p : Bool}
    (hp : s.pComposition.isSome = p) :
    Outcome (o.startComposition = .failed ∨ p = true) loc
      (p && (decide (o.startComposition = .failed) ||
        !(o.getRange && (o.setTextReenters || o.setSelectionReenters))))
      (s.insertIfStarted o) := by
  unfold insertIfStarted
  split_ifs with hfailed
  · exact (Outcome.pure hs hp).of_iff (by simp [hfailed]) (by simp [hfailed])
  · exact (insertComposition_outcome o hs hp).of_iff (by simp [hfailed]) (by simp [hfailed])

def Started (o : StartCalls) : Prop :=
  o.startComposition = .failed ∨ o.startComposition = .started ∧ o.startReentry ≠ .afterStored

instance (o : StartCalls) : Decidable (Started o) :=
  inferInstanceAs (Decidable (_ ∨ _))

def composes (o : StartCalls) : Bool :=
  decide (o.startComposition = .started) && !decide (o.startReentry = .afterStored) &&
    !(o.getRange && (o.setTextReenters || o.setSelectionReenters))

theorem startAt_outcome (o : StartCalls) (hs : s.Balanced (r :: loc))
    (hp : s.pComposition.isSome = false) :
    Outcome (Started o) loc (composes o) (s.startAt o r) := by
  refine ((use_outcome hs List.mem_cons_self hp).bind fun t ht hpt =>
    (startComposition_outcome o.startComposition o.startReentry ht hpt).bind fun u hu hpu =>
      (insertIfStarted_outcome o hu hpu).bind fun v hv hpv => release_outcome hv hpv).of_iff ?_ ?_
  · simp [Started]
  · cases h : o.startComposition <;> simp [composes, h]

theorem startPreedit_outcome (o : StartCalls) (composition : WString) (hs : s.Balanced loc)
    (hp : s.pComposition.isSome = false) :
    Outcome
      (composition.isEmpty = false → o.queryInterface = true → o.getSelection = true → Started o)
      loc (!composition.isEmpty && o.queryInterface && o.getSelection && composes o)
      (s.startPreedit o composition) := by
  unfold startPreedit
  split_ifs with hskip
  · have hnone : composition.isEmpty = false → o.queryInterface ≠ true := by
      intro hne
      simpa [hne] using hskip
    refine (Outcome.pure hs hp).of_iff ?_ ?_
    · simp +contextual [hnone]
    · cases hempty : composition.isEmpty
      · simp [hnone hempty]
      · simp
  · rw [not_or, Bool.not_eq_true, Bool.not_eq_false] at hskip
    cases o.getSelection with
    | true =>
      have h := startAt_outcome o hs.obtain hp
      exact h.of_iff (by simp [hskip]) (by simp [hskip])
    | false => exact (Outcome.pure hs hp).of_iff (by simp) (by simp)

theorem moveCandidateWindow_outcome (o : LayoutCalls) (hs : s.Balanced loc) {p : Bool}
    (hp : s.pComposition.isSome = p) : Outcome True loc p (s.moveCandidateWindow o) := by
  unfold moveCandidateWindow
  split_ifs with hskip
  · exact Outcome.pure hs hp
  · have hcomposing : p = true := by
      rw [← hp]
      cases hc : s.pComposition with
      | none => simp [hc] at hskip
      | some c => rfl
    refine (Outcome.getRange o.getRange hs hp
      (fun r t ht hpt => (use_outcome ht List.mem_cons_self hpt).bind
        fun u hu hpu => release_outcome hu hpu)
      fun t ht hpt => Outcome.pure ht hpt).of_iff ?_ ?_
    · simp [hcomposing]
    · simp

/-! The session -/

def CommitSurvives (o : CommitCalls) (committed : WString) (s : CompositionRefs) : Prop :=
  committed.isEmpty = false → s.pComposition.isSome = true → o.getRange = true →
    o.setTextReenters = false → o.endCompositionReenters = false

def ClearSurvives (o : SessionCalls) (committed : WString) (s : CompositionRefs) : Prop :=
  s.pComposition.isSome = true → (committed.isEmpty = true ∨ o.commit.getRange = false) →
    o.clear.endCompositionReenters = false ∧
      (o.clear.getRange = true → o.clear.setTextReenters = false)

def StartSurvives (o : StartCalls) (composition : WString) : Prop :=
  composition.isEmpty = false → o.queryInterface = true → o.getSelection = true → Started o

structure Survives (o : SessionCalls) (committed composition : WString) (s : CompositionRefs) :
    Prop where
  commit : CommitSurvives o.commit committed s
  clear : ClearSurvives o committed s
  start : StartSurvives o.start composition

instance (o : CommitCalls) (committed : WString) (s : CompositionRefs) :
    Decidable (CommitSurvives o committed s) :=
  inferInstanceAs (Decidable (_ → _ → _ → _ → _))

instance (o : SessionCalls) (committed : WString) (s : CompositionRefs) :
    Decidable (ClearSurvives o committed s) :=
  inferInstanceAs (Decidable (_ → _ → _))

instance (o : StartCalls) (composition : WString) : Decidable (StartSurvives o composition) :=
  inferInstanceAs (Decidable (_ → _ → _ → _))

instance (o : SessionCalls) (committed composition : WString) (s : CompositionRefs) :
    Decidable (Survives o committed composition s) :=
  decidable_of_iff (CommitSurvives o.commit committed s ∧ ClearSurvives o committed s ∧
      StartSurvives o.start composition)
    ⟨fun h => ⟨h.1, h.2.1, h.2.2⟩, fun h => ⟨h.commit, h.clear, h.start⟩⟩

theorem doEditSession_outcome (o : SessionCalls) (committed composition : WString)
    (hs : s.Balanced loc) :
    Outcome (Survives o committed composition s) loc
      (!composition.isEmpty && o.start.queryInterface && o.start.getSelection && composes o.start)
      (s.doEditSession o committed composition) := by
  refine ((commitText_outcome o.commit committed hs rfl).bind fun t ht hpt =>
    (clearComposition_outcome o.clear ht hpt).bind fun u hu hpu =>
      (startPreedit_outcome o.start composition hu hpu).bind fun v hv hpv =>
        moveCandidateWindow_outcome o.layout hv hpv).congr ?_
  constructor
  · rintro ⟨hcommit, hclear, hstart, -⟩
    refine ⟨hcommit, fun hsome hleft => hclear ?_, hstart⟩
    rcases hleft with hempty | hrange
    · simp [hsome, hempty]
    · simp [hsome, hrange]
  · rintro ⟨hcommit, hclear, hstart⟩
    refine ⟨hcommit, fun hleft => ?_, hstart, trivial⟩
    rw [Bool.and_eq_true, Bool.or_eq_true, Bool.not_eq_true'] at hleft
    exact hclear hleft.1 hleft.2

theorem onCompositionTerminated_outcome (hs : s.Balanced loc) :
    Outcome True loc false s.onCompositionTerminated := by
  have h := reenter_outcome hs rfl true
  rw [Bool.not_true, Bool.and_false] at h
  exact h

def ReleasedOnce (s : CompositionRefs) : Prop := ∀ r ∈ s.obtained, s.released.count r = 1

theorem Balanced.releasedOnce (hs : s.Balanced []) (hp : s.pComposition = none) : s.ReleasedOnce := by
  have hperm : s.obtained.Perm s.released := by
    have hout := hs.outstanding
    rwa [hp, Option.toList_none, List.append_nil, List.append_nil] at hout
  intro r hr
  rw [← hperm.count_eq]
  exact List.count_eq_one_of_mem hs.nodup hr

theorem destroy_releasedOnce (hs : s.Balanced []) : ∃ t, s.destroy = some t ∧ t.ReleasedOnce := by
  unfold destroy
  cases hc : s.pComposition with
  | none => exact ⟨s, rfl, hs.releasedOnce hc⟩
  | some c =>
    have hrelease := releaseComposition_outcome hs (p := true) (by simp [hc])
    obtain ⟨t, ht, hbalanced, hnone⟩ := hrelease.1 rfl
    rw [releaseComposition, hc] at ht
    obtain ⟨u, hu, rfl⟩ := Option.map_eq_some_iff.mp ht
    exact ⟨u, hu, hbalanced.releasedOnce rfl⟩

end CompositionRefs

inductive CompositionCall where
  | session (o : SessionCalls) (committed composition : WString)
  | terminated
deriving DecidableEq

namespace CompositionRefs

def call (s : CompositionRefs) : CompositionCall → Option CompositionRefs
  | .session o committed composition => s.doEditSession o committed composition
  | .terminated => s.onCompositionTerminated

def step (s : Option CompositionRefs) (e : CompositionCall) : Option CompositionRefs :=
  s.bind (·.call e)

def SurvivesCall : Option CompositionRefs → CompositionCall → Prop
  | some s, .session o committed composition => Survives o committed composition s
  | _, _ => True

instance : ∀ st e, Decidable (SurvivesCall st e)
  | some s, .session o committed composition =>
    inferInstanceAs (Decidable (Survives o committed composition s))
  | some _, .terminated => isTrue trivial
  | none, _ => isTrue trivial

variable {s : CompositionRefs}

theorem call_outcome (hs : s.Balanced []) (e : CompositionCall) :
    ∃ p, Outcome (SurvivesCall (some s) e) [] p (s.call e) := by
  cases e with
  | session o committed composition => exact ⟨_, doEditSession_outcome o committed composition hs⟩
  | terminated => exact ⟨_, onCompositionTerminated_outcome hs⟩

theorem run_none (es : List CompositionCall) : run step none es = none := by
  induction es with
  | nil => rfl
  | cons e es ih => exact ih

theorem run_outcome (hs : s.Balanced []) (es : List CompositionCall) :
    (Along step SurvivesCall (some s) es → ∃ t, run step (some s) es = some t ∧ t.Balanced []) ∧
      (¬Along step SurvivesCall (some s) es → run step (some s) es = none) := by
  induction es generalizing s with
  | nil => exact ⟨fun _ => ⟨s, rfl, hs⟩, fun h => absurd trivial h⟩
  | cons e es ih =>
    obtain ⟨p, hcall⟩ := call_outcome hs e
    have hrun : run step (some s) (e :: es) = run step (s.call e) es := rfl
    have halong : Along step SurvivesCall (some s) (e :: es) ↔
        SurvivesCall (some s) e ∧ Along step SurvivesCall (s.call e) es := Iff.rfl
    rw [hrun, halong]
    by_cases hok : SurvivesCall (some s) e
    · obtain ⟨t, ht, hbalanced, -⟩ := hcall.1 hok
      rw [ht, and_iff_right hok]
      exact ih hbalanced
    · rw [hcall.2 hok, run_none]
      exact ⟨fun h => absurd h.1 hok, fun _ => rfl⟩

theorem compositions_released_once_iff (hs : s.Balanced []) (es : List CompositionCall) :
    (∃ t u, run step (some s) es = some t ∧ t.destroy = some u ∧ u.ReleasedOnce) ↔
      Along step SurvivesCall (some s) es := by
  constructor
  · rintro ⟨t, u, ht, -, -⟩
    by_contra hdead
    rw [(run_outcome hs es).2 hdead] at ht
    cases ht
  · intro hlong
    obtain ⟨t, ht, hbalanced⟩ := (run_outcome hs es).1 hlong
    obtain ⟨u, hu, honce⟩ := destroy_releasedOnce hbalanced
    exact ⟨t, u, ht, hu, honce⟩

def composedAndCommitted : List CompositionCall :=
  [.session {} [] [97], .session { commit.setTextReenters := true } [98] [99], .terminated]

theorem balanced_new : Balanced [] {} := ⟨List.nodup_nil, by simp, List.Perm.refl _⟩

theorem compositions_released_once_composed :
    ∃ t u, run step (some {}) composedAndCommitted = some t ∧ t.destroy = some u ∧ u.ReleasedOnce :=
  (compositions_released_once_iff balanced_new composedAndCommitted).mpr (by decide)

/-- TSF accepts `StartComposition` and returns no composition. -/
theorem rejected_composition_called :
    Balanced [] {} ∧
      run step (some {}) [.session { start.startComposition := .rejected } [] [97]] = none :=
  ⟨balanced_new, by decide⟩

end CompositionRefs

/-! Where nothing re-enters, the session does with `_pComposition` what it does in the model of the
texts. -/

namespace CManageCompositionEditSession

def callsOf (o : SessionOutcomes) (ec : ContextId) (committed : WString) (t : TextServices) :
    SessionCalls :=
  let t₁ := commitText o.commit ec committed t
  let t₂ := clearComposition o.clear ec t₁
  let t₃ := t₂.startComposition ec
  { commit :=
      { getRange := (t.pComposition.bind (t.getRange o.commit.getRange ·)).isSome
        getSelection := (t.getSelection o.commit.getSelection ec).isSome }
    clear := { getRange := (t₁.pComposition.bind (t₁.getRange o.clear.getRange ·)).isSome }
    start :=
      { queryInterface := o.start.queryInterface
        getSelection := (t₂.getSelection o.start.getSelection ec).isSome
        startComposition := o.start.startComposition
        getRange := (t₃.pComposition.bind (t₃.getRange o.start.getRange ·)).isSome } }

theorem startPreedit_composing (o : StartOutcomes) (ec : ContextId) (composition : WString)
    {t : TextServices} (ht : t.pComposition = none) :
    (startPreedit o ec composition t).map (·.pComposition.isSome) =
      if composition.isEmpty = false → o.queryInterface = true → o.getSelection = true →
          o.startComposition ≠ .rejected
      then some (!composition.isEmpty && o.queryInterface && o.getSelection &&
        decide (o.startComposition = .started))
      else none := by
  unfold startPreedit TextServices.getSelection
  cases composition.isEmpty with
  | true => simp [ht]
  | false =>
    cases o.queryInterface with
    | false => simp [ht]
    | true =>
      cases o.getSelection with
      | false => simp [ht]
      | true => cases o.startComposition <;> simp [ht, TextServices.startComposition]

theorem isSome_getSelection (ok : Bool) (c : ContextId) (t : TextServices) :
    (t.getSelection ok c).isSome = ok := by
  cases ok <;> rfl

theorem survives_callsOf (o : SessionOutcomes) (ec : ContextId) (committed composition : WString)
    (t : TextServices) (s : CompositionRefs) :
    CompositionRefs.Survives (callsOf o ec committed t) committed composition s ↔
      (composition.isEmpty = false → o.start.queryInterface = true → o.start.getSelection = true →
        o.start.startComposition ≠ .rejected) := by
  have hstarted : CompositionRefs.Started (callsOf o ec committed t).start ↔
      o.start.startComposition ≠ .rejected := by
    simp only [CompositionRefs.Started, callsOf]
    cases o.start.startComposition <;> simp
  have hselection : (callsOf o ec committed t).start.getSelection = o.start.getSelection :=
    isSome_getSelection _ _ _
  constructor
  · intro h hne hquery hsel
    exact hstarted.mp (h.start hne hquery (hselection.trans hsel))
  · intro h
    refine ⟨fun _ _ _ _ => rfl, fun _ _ => ⟨rfl, fun _ => rfl⟩, fun hne hquery hsel => ?_⟩
    exact hstarted.mpr (h hne hquery (hselection.symm.trans hsel))

theorem doEditSession_pComposition_eq (o : SessionOutcomes) (ec : ContextId)
    (committed composition : WString) (t : TextServices) {s : CompositionRefs}
    (hs : s.Balanced []) :
    (s.doEditSession (callsOf o ec committed t) committed composition).map (·.pComposition.isSome) =
      (doEditSession o ec committed composition t).map (·.pComposition.isSome) := by
  have hstart := startPreedit_composing o.start ec composition
    (clearComposition_pComposition o.clear ec (commitText o.commit ec committed t))
  have hout := s.doEditSession_outcome (callsOf o ec committed t) committed composition hs
  rw [doEditSession, hstart]
  split_ifs with halive
  · obtain ⟨u, hu, -, hcomposing⟩ := hout.1 ((survives_callsOf ..).mpr halive)
    rw [hu, Option.map_some, hcomposing]
    simp [callsOf, isSome_getSelection, CompositionRefs.composes]
  · rw [hout.2 fun h => halive ((survives_callsOf ..).mp h)]
    rfl

end CManageCompositionEditSession

end TCodeIME
