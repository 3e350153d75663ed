import TCodeIME.KilledProcesses
import TCodeIME.Library.ReusedNames
import TCodeIME.Library.Runs

/-!
How the process table comes about, and what `KillProcessTree` makes of pids that have been reused.
-/

namespace TCodeProxy

open Descent Relation ReusedNames Runs

/-- The running processes. The pid of a process is kept while a handle of it is open. -/
abbrev ProcessHistory := Population UInt32

inductive ProcessEvent where
  | createProcess (parentPid pid : UInt32) (keepHandle : Bool)
  | exitProcess (pid : UInt32)
  | closeHandle (birth : ℕ)

namespace ProcessHistory

open Processes

def table (s : ProcessHistory) : List ProcessEntry := s.members.map fun m => ⟨m.name, m.parentName⟩

def single (pid parentPid : UInt32) : ProcessHistory where
  members := [⟨1, pid, 0, parentPid⟩]
  held := []
  next := 2
  births_lt := by simp
  parents_lt := by simp
  births_inj := by simp
  names_nodup := List.nodup_singleton _
  parent_named := by simp
  held_lt := by simp
  held_bears := by simp
  held_named := by simp

theorem single_faithful {pid parentPid : UInt32} (h : pid ≠ parentPid) : (single pid parentPid).Faithful := by
  intro c hc a howns
  rw [List.mem_singleton.mp hc] at howns
  rcases howns with ⟨m, hm, -, hname⟩ | hheld
  · rw [List.mem_singleton.mp hm] at hname
    exact absurd hname h
  · cases hheld

/-- The system gives out a pid that is free, to a child of a process that runs. -/
def createProcess (parentPid pid : UInt32) (keepHandle : Bool) (s : ProcessHistory) : ProcessHistory :=
  match h : s.members.find? (·.name = parentPid) with
  | none => s
  | some parent =>
    if hfree : s.isFree pid = true then
      let child : Member UInt32 := ⟨s.next, pid, parent.birth, parent.name⟩
      let s' := s.bear parent pid (List.mem_of_find?_eq_some h) hfree
      if keepHandle then s'.hold child (List.mem_append_right _ (List.mem_singleton_self child)) else s'
    else s

def step (s : ProcessHistory) : ProcessEvent → ProcessHistory
  | .createProcess parentPid pid keepHandle => s.createProcess parentPid pid keepHandle
  | .exitProcess pid => s.restrict (·.name ≠ pid)
  | .closeHandle birth => s.release birth

/-- `KillProcessTree` of the pid returns, and has terminated the processes that were born of the birth,
directly or by way of processes that run, and no other. -/
def KillsExactly (s : ProcessHistory) (birth : ℕ) (pid : UInt32) : Prop :=
  ∃ fuel w, killProcessTree {} fuel pid { table := s.table } = some w ∧
    ∀ m ∈ s.members, m.name ∈ w.terminated ↔ ReflTransGen s.Bore birth m.birth

def takesFreshPid (s : ProcessHistory) : ProcessEvent → Prop
  | .createProcess parentPid pid _ =>
    (∃ parent ∈ s.members, parent.name = parentPid) → s.isFree pid = true →
      ∀ m ∈ s.members, m.parentName ≠ pid
  | _ => True

section

variable {s : ProcessHistory} {birth : ℕ} {pid : UInt32}

theorem createProcess_cases (s : ProcessHistory) (parentPid pid : UInt32) (keepHandle : Bool) :
    (s.createProcess parentPid pid keepHandle = s ∧
        ((∀ m ∈ s.members, m.name ≠ parentPid) ∨ s.isFree pid = false)) ∨
      ∃ parent, ∃ hparent : parent ∈ s.members, ∃ hfree : s.isFree pid = true,
        parent.name = parentPid ∧
        ∃ hchild : (⟨s.next, pid, parent.birth, parent.name⟩ : Member UInt32) ∈
            (s.bear parent pid hparent hfree).members,
          s.createProcess parentPid pid keepHandle =
            if keepHandle then (s.bear parent pid hparent hfree).hold _ hchild
            else s.bear parent pid hparent hfree := by
  unfold createProcess
  split
  · next h =>
    refine Or.inl ⟨rfl, Or.inl fun m hm => ?_⟩
    have hnot := List.find?_eq_none.mp h m hm
    simpa using hnot
  · next parent h =>
    have hname : parent.name = parentPid := by simpa using List.find?_some h
    by_cases hfree : s.isFree pid = true
    · rw [dif_pos hfree]
      exact Or.inr ⟨parent, List.mem_of_find?_eq_some h, hfree, hname,
        List.mem_append_right _ (List.mem_singleton_self _), rfl⟩
    · rw [dif_neg hfree]
      exact Or.inl ⟨rfl, Or.inr (Bool.eq_false_of_not_eq_true hfree)⟩

theorem child_table_iff {pid' : UInt32} : Child s.table pid pid' ↔ s.Names pid pid' := by
  simp [Child, table, Population.Names, and_comm]

theorem names_table : s.table.map (·.th32ProcessID) = s.members.map Member.name := by
  rw [table, List.map_map]
  rfl

theorem reach_table_iff {pid' : UInt32} :
    ReflTransGen (Child s.table) pid pid' ↔ ReflTransGen s.Names pid pid' := by
  have hsame : Child s.table = s.Names := by
    funext x y
    exact propext child_table_iff
  rw [hsame]

theorem mem_terminated_iff {fuel : ℕ} {w : Processes}
    (h : killProcessTree {} fuel pid { table := s.table } = some w) (pid' : UInt32) :
    pid' ∈ w.terminated ↔ (∃ m ∈ s.members, m.name = pid') ∧ ReflTransGen s.Names pid pid' := by
  have hends : Ends (Child s.table) pid := ends_of_killProcessTree (fun _ => rfl) (fun _ => rfl) h
  have hdistinct : Distinct s.table := by
    rw [Distinct, names_table]
    exact s.names_nodup
  obtain ⟨fuel', w', killed, hw', hkills⟩ :=
    killProcessTree_kills (w := { table := s.table }) hends (fun _ he => he) hdistinct
  have hsame : w = w' := by
    have hmore := killProcessTree_of_le h (Nat.le_max_left fuel fuel')
    rw [killProcessTree_of_le hw' (Nat.le_max_right fuel fuel')] at hmore
    exact (Option.some.inj hmore).symm
  have hlog : w'.terminated = killed := hkills.log
  rw [hsame, hlog, hkills.mem_iff, names_table, List.mem_map]
  simp only [List.mem_singleton, exists_eq_left, reach_table_iff]

theorem acyclic_table (hs : s.Faithful) (pid : UInt32) : Acyclic (Child s.table) pid := by
  intro x _ hcycle
  have hcycle' : TransGen s.Names x x :=
    TransGen.mono (fun _ _ => child_table_iff.mp) _ _ hcycle
  obtain ⟨y, -, m, hm, -, rfl⟩ := TransGen.tail'_iff.mp hcycle'
  exact Nat.lt_irrefl _ (Population.names_lt hs hm hm hcycle')

theorem killsExactly_of_faithful (hs : s.Faithful) (howns : s.Owns birth pid) :
    s.KillsExactly birth pid := by
  obtain ⟨fuel, w, hw⟩ := killProcessTree_of_ends (w := { table := s.table }) {}
    (ends_child_iff.mpr (acyclic_table hs pid)) (fun _ he => he)
  refine ⟨fuel, w, hw, fun m hm => ?_⟩
  rw [mem_terminated_iff hw]
  constructor
  · rintro ⟨-, hnames⟩
    exact Population.bore_of_names hs howns hnames hm rfl
  · intro hbore
    exact ⟨⟨m, hm, rfl⟩, Population.names_of_bore howns hbore hm rfl⟩

theorem faithful_of_killsExactly (h : ∀ birth pid, s.Owns birth pid → s.KillsExactly birth pid) :
    s.Faithful := by
  intro c hc a howns
  obtain ⟨fuel, w, hw, hkills⟩ := h a c.parentName howns
  have hnames : s.Names c.parentName c.name := ⟨c, hc, rfl, rfl⟩
  have hbore := (hkills c hc).mp
    ((mem_terminated_iff hw c.name).mpr ⟨⟨c, hc, rfl⟩, ReflTransGen.single hnames⟩)
  rcases ReflTransGen.cases_tail hbore with heq | ⟨x, hax, d, hd, rfl, hdc⟩
  · -- the process would be its own parent, and the recursion without an end
    have hself : c.name = c.parentName := (howns.birth_iff hc).mp heq
    have hends : Ends (Child s.table) c.parentName :=
      ends_of_killProcessTree (fun _ => rfl) (fun _ => rfl) hw
    rw [← hself] at hnames hends
    exact absurd (TransGen.single (child_table_iff.mpr hnames)) hends.irrefl
  · have hdc' : d = c := s.births_inj d hd c hc hdc
    rw [hdc'] at hax
    rcases ReflTransGen.cases_tail hax with heq | ⟨y, -, q, hq, -, hqb⟩
    · exact heq
    · have hname := s.parent_named c hc q hq hqb.symm
      rw [← hqb]
      exact (howns.birth_iff hq).mpr hname.symm

theorem faithful_step_iff (hs : s.Faithful) (e : ProcessEvent) :
    (s.step e).Faithful ↔ s.takesFreshPid e := by
  cases e with
  | createProcess parentPid pid keepHandle =>
    unfold takesFreshPid
    dsimp only
    rcases createProcess_cases s parentPid pid keepHandle with
      ⟨h, hnot⟩ | ⟨parent, hparent, hfree, hname, hchild, h⟩
    · rw [step, h]
      refine iff_of_true hs fun hsome hfree => ?_
      obtain ⟨parent, hparent, hname⟩ := hsome
      rcases hnot with hnot | hnot
      · exact absurd hname (hnot parent hparent)
      · rw [hnot] at hfree
        cases hfree
    · have hiff : (s.step (.createProcess parentPid pid keepHandle)).Faithful ↔
          (s.bear parent pid hparent hfree).Faithful := by
        rw [step, h]
        cases keepHandle with
        | false => exact Iff.rfl
        | true =>
          constructor
          · intro hhold c hc a ha
            apply hhold c hc a
            exact ha.imp id (List.mem_cons_of_mem _)
          · intro hbear
            exact Population.faithful_hold hbear hchild
      rw [hiff, Population.faithful_bear_iff hs]
      exact ⟨fun hall _ _ => hall, fun hall => hall ⟨parent, hparent, hname⟩ hfree⟩
  | exitProcess pid => exact iff_of_true (Population.faithful_restrict hs _) trivial
  | closeHandle birth => exact iff_of_true (Population.faithful_release hs birth) trivial

end

theorem killsExactly_throughout_iff (s : ProcessHistory) (es : List ProcessEvent) :
    Throughout step (fun s => ∀ birth pid, s.Owns birth pid → KillsExactly s birth pid) s es ↔
      s.Faithful ∧ Along step takesFreshPid s es := by
  have hall : Along step (fun _ _ => True) s es := along_of_forall (fun _ _ _ => trivial) _
  by_cases hs : s.Faithful
  · rw [and_iff_right hs]
    refine throughout_iff_along (I := Population.Faithful) ?_ ?_ ?_ hs hall
    · intro s hs birth pid howns
      exact killsExactly_of_faithful hs howns
    · intro s e hs _
      rw [← faithful_step_iff hs e]
      exact ⟨faithful_of_killsExactly, fun hfaithful birth pid howns =>
        killsExactly_of_faithful hfaithful howns⟩
    · intro s e hs _ hok
      exact (faithful_step_iff hs e).mpr hok
  · refine iff_of_false (fun h => hs ?_) (fun h => hs h.1)
    cases es with
    | nil => exact faithful_of_killsExactly h
    | cons e es => exact faithful_of_killsExactly h.1

end ProcessHistory

end TCodeProxy
