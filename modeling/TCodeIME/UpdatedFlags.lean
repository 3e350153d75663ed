import TCodeIME.UILessHost

namespace TCodeIME

open Runs

namespace CTCodeCandidateListUI

structure Announced (seen now : CTCodeCandidateListUI) (flags : UInt32) : Prop where
  count : now.getCount ≠ seen.getCount → flags &&& TF_CLUIE_COUNT ≠ 0
  string : (∃ uIndex, now.getString uIndex ≠ seen.getString uIndex) → flags &&& TF_CLUIE_STRING ≠ 0
  selection : now.getSelection ≠ seen.getSelection → flags &&& TF_CLUIE_SELECTION ≠ 0
  pageIndex : now.pageIndex ≠ seen.pageIndex → flags &&& TF_CLUIE_PAGEINDEX ≠ 0
  currentPage : now.getCurrentPage ≠ seen.getCurrentPage → flags &&& TF_CLUIE_CURRENTPAGE ≠ 0

end CTCodeCandidateListUI

open CTCodeCandidateListUI ListWrite

def ListWrite.assignsFlags : ListWrite → Bool
  | setPageIndex _ => false
  | _ => true

def lastAssignment (since : List ListWrite) : Option ListWrite :=
  (since.filter assignsFlags).getLast?

theorem lastAssignment_append (since : List ListWrite) (w : ListWrite) :
    lastAssignment (since ++ [w]) = if w.assignsFlags then some w else lastAssignment since := by
  unfold lastAssignment
  split_ifs with hw <;> simp [hw]

def Leaves (seen now : CTCodeCandidateListUI) : Option ListWrite → Prop
  | none =>
    now.candidates = seen.candidates ∧ now.selectedIndex = seen.selectedIndex ∧
      now.currentPage = seen.currentPage ∧ now.updatedFlags = 0
  | some w => w.assignsFlags = true ∧ ∃ l pageIndex, now = { w.write l with pageIndex := pageIndex }

theorem Leaves.setPageIndex {seen now : CTCodeCandidateListUI} {last : Option ListWrite}
    (h : Leaves seen now last) (pageIndex : List ℕ) : Leaves seen (now.setPageIndex pageIndex) last := by
  cases last with
  | none => exact h
  | some w =>
    obtain ⟨hw, l, table, rfl⟩ := h
    exact ⟨hw, l, pageIndex, rfl⟩

theorem leaves_run {seen : CTCodeCandidateListUI} (hseen : seen.updatedFlags = 0)
    (since : List ListWrite) : Leaves seen (run write seen since) (lastAssignment since) := by
  induction since using List.reverseRecOn with
  | nil => exact ⟨rfl, rfl, rfl, hseen⟩
  | append_singleton since w ih =>
    have hrun : run write seen (since ++ [w]) = w.write (run write seen since) := by
      simp [run, List.foldl_append]
    rw [hrun, lastAssignment_append]
    cases w with
    | setCandidates candidates selectedIndex => exact ⟨rfl, _, _, rfl⟩
    | clearCandidates => exact ⟨rfl, _, _, rfl⟩
    | setPageIndex pageIndex => exact ih.setPageIndex pageIndex

def Informs (seen now : CTCodeCandidateListUI) : Option ListWrite → Prop
  | none => now.pageIndex = seen.pageIndex
  | some (.setCandidates [] _) =>
    now.pageIndex = seen.pageIndex ∧ now.currentPage = seen.currentPage
  | some .clearCandidates =>
    seen.candidates = [] ∧ seen.getSelection = 0 ∧ now.pageIndex = seen.pageIndex ∧
      now.currentPage = seen.currentPage
  | some _ => True

theorem pageStarts_isEmpty_cons (candidate : WString) (candidates : List WString) :
    (pageStarts (candidate :: candidates).length 0).isEmpty = false := by
  rw [pageStarts, if_pos (by simp)]
  rfl

theorem exists_getString_ne_iff {seen now : CTCodeCandidateListUI} :
    (∃ uIndex, now.getString uIndex ≠ seen.getString uIndex) ↔ now.candidates ≠ seen.candidates := by
  constructor
  · rintro ⟨uIndex, h⟩ heq
    exact h (by rw [getString, getString, heq])
  · intro h
    by_contra hall
    push Not at hall
    exact h (List.ext_getElem? hall)

section

variable {seen now : CTCodeCandidateListUI} {flags : UInt32}

/-! What the flags do not name has not changed. -/

namespace CTCodeCandidateListUI.Announced

theorem candidates_eq (h : Announced seen now flags)
    (hflag : flags &&& TF_CLUIE_STRING = 0) : now.candidates = seen.candidates := by
  by_contra hne
  exact h.string (exists_getString_ne_iff.mpr hne) hflag

theorem getSelection_eq (h : Announced seen now flags)
    (hflag : flags &&& TF_CLUIE_SELECTION = 0) : now.getSelection = seen.getSelection := by
  by_contra hne
  exact h.selection hne hflag

theorem pageIndex_eq (h : Announced seen now flags)
    (hflag : flags &&& TF_CLUIE_PAGEINDEX = 0) : now.pageIndex = seen.pageIndex := by
  by_contra hne
  exact h.pageIndex hne hflag

theorem currentPage_eq (h : Announced seen now flags)
    (hflag : flags &&& TF_CLUIE_CURRENTPAGE = 0) : now.currentPage = seen.currentPage := by
  by_contra hne
  exact h.currentPage hne hflag

end CTCodeCandidateListUI.Announced

theorem announced_unassigned (hcandidates : now.candidates = seen.candidates)
    (hselected : now.selectedIndex = seen.selectedIndex) (hpage : now.currentPage = seen.currentPage) :
    Announced seen now 0 ↔ now.pageIndex = seen.pageIndex := by
  have hselection : now.getSelection = seen.getSelection := by rw [getSelection, getSelection, hselected]
  constructor
  · intro ha
    exact ha.pageIndex_eq rfl
  · intro htable
    exact ⟨fun hne => absurd (congrArg List.length hcandidates) hne,
      fun hne => absurd hcandidates (exists_getString_ne_iff.mp hne),
      fun hne => absurd hselection hne, fun hne => absurd htable hne, fun hne => absurd hpage hne⟩

theorem announced_emptied :
    Announced seen now (TF_CLUIE_COUNT ||| TF_CLUIE_STRING ||| TF_CLUIE_SELECTION) ↔
      now.pageIndex = seen.pageIndex ∧ now.currentPage = seen.currentPage := by
  constructor
  · intro ha
    exact ⟨ha.pageIndex_eq (by decide), ha.currentPage_eq (by decide)⟩
  · rintro ⟨htable, hpage⟩
    exact ⟨fun _ => by decide, fun _ => by decide, fun _ => by decide,
      fun hne => absurd htable hne, fun hne => absurd hpage hne⟩

theorem announced_filled :
    Announced seen now (TF_CLUIE_COUNT ||| TF_CLUIE_STRING ||| TF_CLUIE_SELECTION |||
      TF_CLUIE_PAGEINDEX ||| TF_CLUIE_CURRENTPAGE) :=
  ⟨fun _ => by decide, fun _ => by decide, fun _ => by decide, fun _ => by decide, fun _ => by decide⟩

theorem announced_cleared (hcandidates : now.candidates = []) (hselection : now.getSelection = 0) :
    Announced seen now TF_CLUIE_COUNT ↔
      seen.candidates = [] ∧ seen.getSelection = 0 ∧ now.pageIndex = seen.pageIndex ∧
        now.currentPage = seen.currentPage := by
  constructor
  · intro ha
    exact ⟨(ha.candidates_eq (by decide)).symm.trans hcandidates,
      (ha.getSelection_eq (by decide)).symm.trans hselection,
      ha.pageIndex_eq (by decide), ha.currentPage_eq (by decide)⟩
  · rintro ⟨hseen, hselected, htable, hpage⟩
    exact ⟨fun _ => by decide,
      fun hne => absurd (hcandidates.trans hseen.symm) (exists_getString_ne_iff.mp hne),
      fun hne => absurd (hselection.trans hselected.symm) hne,
      fun hne => absurd htable hne, fun hne => absurd hpage hne⟩

theorem announced_iff_informs {last : Option ListWrite} (h : Leaves seen now last) :
    Announced seen now now.updatedFlags ↔ Informs seen now last := by
  match last with
  | none =>
    obtain ⟨hcandidates, hselected, hpage, hflags⟩ := h
    rw [hflags]
    exact announced_unassigned hcandidates hselected hpage
  | some (.setPageIndex pageIndex) => exact Bool.noConfusion h.1
  | some (.setCandidates [] selectedIndex) =>
    obtain ⟨-, l, table, hl⟩ := h
    have hflags : now.updatedFlags = TF_CLUIE_COUNT ||| TF_CLUIE_STRING ||| TF_CLUIE_SELECTION := by
      rw [hl]
      simp only [write, CTCodeCandidateListUI.setCandidates]
      rw [pageStarts]
      rfl
    rw [hflags]
    exact announced_emptied
  | some (.setCandidates (candidate :: candidates) selectedIndex) =>
    obtain ⟨-, l, table, hl⟩ := h
    have hflags : now.updatedFlags = TF_CLUIE_COUNT ||| TF_CLUIE_STRING ||| TF_CLUIE_SELECTION |||
        TF_CLUIE_PAGEINDEX ||| TF_CLUIE_CURRENTPAGE := by
      rw [hl]
      simp only [write, CTCodeCandidateListUI.setCandidates, pageStarts_isEmpty_cons]
      rfl
    rw [hflags]
    exact iff_of_true announced_filled trivial
  | some .clearCandidates =>
    obtain ⟨-, l, table, hl⟩ := h
    have hflags : now.updatedFlags = TF_CLUIE_COUNT := by rw [hl]; rfl
    have hcandidates : now.candidates = [] := by rw [hl]; rfl
    have hselection : now.getSelection = 0 := by rw [hl]; rfl
    rw [hflags]
    exact announced_cleared hcandidates hselection

end

inductive PollEvent where
  | write (w : ListWrite)
  | getUpdatedFlags

structure Polled where
  list : CTCodeCandidateListUI := {}
  seen : Option CTCodeCandidateListUI := none
  since : List ListWrite := []

namespace Polled

def poll (s : Polled) : PollEvent → Polled
  | .write w => { s with list := w.write s.list, since := s.since ++ [w] }
  | .getUpdatedFlags =>
    { list := s.list.getUpdatedFlags.2, seen := some s.list.getUpdatedFlags.2, since := [] }

def announces (s : Polled) : PollEvent → Prop
  | .write _ => True
  | .getUpdatedFlags => ∀ seen ∈ s.seen, Announced seen s.list s.list.getUpdatedFlags.1

def informs (s : Polled) : PollEvent → Prop
  | .write _ => True
  | .getUpdatedFlags => ∀ seen ∈ s.seen, Informs seen s.list (lastAssignment s.since)

def Recorded (s : Polled) : Prop :=
  ∀ seen ∈ s.seen, seen.updatedFlags = 0 ∧ s.list = run write seen s.since

theorem poll_recorded {s : Polled} (e : PollEvent) (h : s.Recorded) : (s.poll e).Recorded := by
  cases e with
  | write w =>
    intro seen hseen
    obtain ⟨hflags, hlist⟩ := h seen hseen
    refine ⟨hflags, ?_⟩
    simp only [poll, hlist, run, List.foldl_append]
    rfl
  | getUpdatedFlags =>
    intro seen hseen
    cases hseen
    exact ⟨rfl, rfl⟩

theorem announces_iff_informs {s : Polled} (h : s.Recorded) (e : PollEvent) :
    s.announces e ↔ s.informs e := by
  cases e with
  | write w => exact Iff.rfl
  | getUpdatedFlags =>
    have heach : ∀ seen ∈ s.seen, Announced seen s.list s.list.updatedFlags ↔
        Informs seen s.list (lastAssignment s.since) := by
      intro seen hseen
      obtain ⟨hflags, hlist⟩ := h seen hseen
      apply announced_iff_informs
      rw [hlist]
      exact leaves_run hflags s.since
    constructor
    · intro ha seen hseen
      exact (heach seen hseen).mp (ha seen hseen)
    · intro hi seen hseen
      exact (heach seen hseen).mpr (hi seen hseen)

theorem announced_along_iff (es : List PollEvent) :
    Along poll announces {} es ↔ Along poll informs {} es := by
  have hall : Along poll (fun _ _ => True) {} es := along_of_forall (fun _ _ _ => trivial) _
  apply along_iff_along (I := Recorded) ?_ ?_ ?_ hall
  · intro s e hs _
    exact announces_iff_informs hs e
  · intro s e hs _ _
    exact poll_recorded e hs
  · intro seen hseen
    cases hseen

theorem cleared_page_unannounced :
    ¬ Along poll announces {} [.write (.setCandidates [[0x4E00]] 0), .getUpdatedFlags,
      .write .clearCandidates, .getUpdatedFlags] := by
  rintro ⟨-, -, -, h, -⟩
  have htable : pageStarts 1 0 = [0] := pageStarts_zero 1
  refine (h _ rfl).pageIndex ?_ (by decide)
  change [] ≠ pageStarts 1 0
  rw [htable]
  decide

end Polled

end TCodeIME
