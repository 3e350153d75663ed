import TCodeIME.KilledProcesses
import TCodeIME.Library.Frontier
import TCodeIME.Library.Runs

/-!
`KillProcessTree` step by step, while other processes go on.
-/

namespace TCodeProxy

open Descent Frontier Relation Runs Processes

/-- A call of `KillProcessTree`: before its snapshot, and in the loop over the children that are left. -/
inductive KillFrame where
  | enter (pid : UInt32)
  | children (pid : UInt32) (found : List UInt32)
deriving DecidableEq

def KillFrame.named : KillFrame → List UInt32
  | .enter pid => [pid]
  | .children _ found => found

def KillFrame.entered : KillFrame → List UInt32
  | .enter _ => []
  | .children pid _ => [pid]

/-- `frames` is the call stack. `tree` are the processes that stem from the first call's, `seen` the pids that were
looked for among the parents of a snapshot, and `used` the pids ever given out. -/
structure RunningKill where
  processes : Processes
  frames : List KillFrame
  tree : List UInt32
  used : List UInt32
  seen : List UInt32 := []

inductive KillEvent where
  | advance
  | createProcess (parentPid pid : UInt32)
  | exitProcess (pid : UInt32)
deriving DecidableEq

namespace RunningKill

def named (s : RunningKill) : List UInt32 := s.frames.flatMap KillFrame.named

def stack (s : RunningKill) : List UInt32 := s.frames.flatMap KillFrame.entered

def runs (s : RunningKill) (pid : UInt32) : Prop := pid ∈ s.processes.table.map (·.th32ProcessID)

def advance (s : RunningKill) : RunningKill :=
  match s.frames with
  | [] => s
  | .enter pid :: frames =>
    { s with
      processes := { s.processes with snapshots := s.processes.snapshots + 1 }
      frames := .children pid (children pid s.processes.table) :: frames
      seen := pid :: s.seen }
  | .children pid (child :: found) :: frames =>
    { s with frames := .enter child :: .children pid found :: frames }
  | .children pid [] :: frames =>
    { s with
      processes := s.processes.terminate {} pid
      frames := frames }

def createProcess (parentPid pid : UInt32) (s : RunningKill) : RunningKill :=
  { s with
    processes := { s.processes with table := s.processes.table ++ [⟨pid, parentPid⟩] }
    tree := if parentPid ∈ s.tree then pid :: s.tree else s.tree
    used := pid :: s.used }

def exitProcess (pid : UInt32) (s : RunningKill) : RunningKill :=
  { s with
    processes := { s.processes with table := s.processes.table.filter (·.th32ProcessID ≠ pid) } }

def step (s : RunningKill) : KillEvent → RunningKill
  | .advance => s.advance
  | .createProcess parentPid pid => s.createProcess parentPid pid
  | .exitProcess pid => s.exitProcess pid

/-- No pid is given out again. -/
def Allowed (s : RunningKill) : KillEvent → Prop
  | .createProcess parentPid pid => s.runs parentPid ∧ pid ∉ s.used
  | _ => True

def IsSeen (s : RunningKill) (pid : UInt32) : Prop := pid ∈ s.seen

def Covered (s : RunningKill) : Prop :=
  ∀ pid ∈ s.tree, s.runs pid → pid ∈ s.stack ∨
    ∃ root ∈ s.named, Finds (Child s.processes.table) s.IsSeen root pid

def keepsCovered (s : RunningKill) : KillEvent → Prop
  | .createProcess parentPid _ => parentPid ∈ s.tree → parentPid ∉ s.seen
  | .exitProcess pid => pid ∈ s.named ∨ pid ∈ s.seen ∨
    ∀ e ∈ s.processes.table, e.th32ParentProcessID = pid → e.th32ProcessID ∈ s.tree →
      e.th32ProcessID ≠ pid → e.th32ProcessID ∈ s.named ∨ e.th32ProcessID ∈ s.seen
  | .advance => True

instance (s : RunningKill) (pid : UInt32) : Decidable (s.runs pid) := inferInstanceAs (Decidable (pid ∈ _))

instance (s : RunningKill) : ∀ e, Decidable (s.Allowed e)
  | .createProcess parentPid pid => inferInstanceAs (Decidable (s.runs parentPid ∧ pid ∉ s.used))
  | .advance | .exitProcess _ => isTrue trivial

instance (s : RunningKill) : ∀ e, Decidable (s.keepsCovered e)
  | .createProcess parentPid _ => inferInstanceAs (Decidable (parentPid ∈ s.tree → parentPid ∉ s.seen))
  | .exitProcess pid =>
    inferInstanceAs (Decidable (pid ∈ s.named ∨ pid ∈ s.seen ∨
      ∀ e ∈ s.processes.table, e.th32ParentProcessID = pid → e.th32ProcessID ∈ s.tree →
        e.th32ProcessID ≠ pid → e.th32ProcessID ∈ s.named ∨ e.th32ProcessID ∈ s.seen))
  | .advance => isTrue trivial

structure Inv (s : RunningKill) : Prop where
  distinct : Distinct s.processes.table
  closed : ∀ parentPid pid, parentPid ∈ s.tree → Child s.processes.table parentPid pid → pid ∈ s.tree
  ends : ∀ pid ∈ s.tree, Ends (Child s.processes.table) pid
  named : ∀ pid ∈ s.named, pid ∈ s.tree
  nodup : s.named.Nodup
  unseen : ∀ pid ∈ s.named, pid ∉ s.seen
  seen : ∀ pid ∈ s.seen, pid ∈ s.tree
  known : ∀ parentPid pid, parentPid ∈ s.tree → Child s.processes.table parentPid pid →
    pid ∈ s.named ∨ pid ∈ s.seen → parentPid ∈ s.seen
  stack : ∀ pid ∈ s.stack, pid ∈ s.seen
  running : ∀ pid ∈ s.seen, s.runs pid → pid ∈ s.stack
  tree : ∀ pid ∈ s.tree, pid ∈ s.used
  pids : ∀ e ∈ s.processes.table, e.th32ProcessID ∈ s.used ∧ e.th32ParentProcessID ∈ s.used
  terminated : ∀ pid ∈ s.processes.terminated, pid ∈ s.tree

variable {s : RunningKill}

theorem child_filter {table : List ProcessEntry} {q parentPid pid : UInt32} :
    Child (table.filter (·.th32ProcessID ≠ q)) parentPid pid ↔ Without q (Child table) parentPid pid := by
  simp [Child, Without]

theorem runs_filter {table : List ProcessEntry} {q pid : UInt32} :
    pid ∈ (table.filter (·.th32ProcessID ≠ q)).map (·.th32ProcessID) ↔
      pid ∈ table.map (·.th32ProcessID) ∧ pid ≠ q := by
  simp only [List.mem_map, List.mem_filter, decide_eq_true_eq]
  constructor
  · rintro ⟨e, ⟨he, hne⟩, rfl⟩
    exact ⟨⟨e, he, rfl⟩, hne⟩
  · rintro ⟨⟨e, he, rfl⟩, hne⟩
    exact ⟨e, ⟨he, hne⟩, rfl⟩

theorem finds_congr {table table' : List ProcessEntry} {seen seen' : UInt32 → Prop} {root pid : UInt32}
    (htable : ∀ x y, Child table x y → Child table' x y) (hseen : ∀ x, seen' x → seen x)
    (h : Finds (Child table) seen root pid) : Finds (Child table') seen' root pid :=
  ReflTransGen.mono (fun x y ha => ⟨htable x y ha.1, fun hx => ha.2 (hseen x hx)⟩) _ _ h

/-! A call takes its snapshot. -/

section Enter

variable {pid : UInt32} {frames : List KillFrame}

theorem advance_enter (h : s.frames = .enter pid :: frames) :
    s.advance =
      { s with
        processes := { s.processes with snapshots := s.processes.snapshots + 1 }
        frames := .children pid (children pid s.processes.table) :: frames
        seen := pid :: s.seen } := by
  rw [advance, h]

/-- A child of a process that is not looked at yet is new: had it been named or seen, so would its parent be. -/
theorem Inv.children_new (hi : s.Inv) (hpid : pid ∈ s.named) :
    ∀ x ∈ children pid s.processes.table, x ∉ s.named ∧ x ∉ s.seen := by
  intro x hx
  have hknown := hi.known pid x (hi.named pid hpid) (mem_children.mp hx)
  have hunseen := hi.unseen pid hpid
  exact ⟨fun hin => hunseen (hknown (.inl hin)), fun hin => hunseen (hknown (.inr hin))⟩

theorem inv_enter (hi : s.Inv) (h : s.frames = .enter pid :: frames) : s.advance.Inv := by
  have hnamed : s.named = pid :: frames.flatMap KillFrame.named := by
    simp [RunningKill.named, h, KillFrame.named]
  have hstack : s.stack = frames.flatMap KillFrame.entered := by
    simp [RunningKill.stack, h, KillFrame.entered]
  have hpidNamed : pid ∈ s.named := hnamed ▸ List.mem_cons_self ..
  have hrest : ∀ x ∈ frames.flatMap KillFrame.named, x ∈ s.named :=
    fun x hx => hnamed ▸ List.mem_cons_of_mem _ hx
  have hpid : pid ∈ s.tree := hi.named pid hpidNamed
  obtain ⟨hpidRest, hnodup⟩ := List.nodup_cons.mp (hnamed ▸ hi.nodup)
  have hnew := hi.children_new hpidNamed
  rw [advance_enter h]
  refine ⟨hi.distinct, hi.closed, hi.ends, ?_, ?_, ?_, ?_, ?_, ?_, ?_, hi.tree, hi.pids, hi.terminated⟩
  · intro x hx
    simp only [RunningKill.named, List.flatMap_cons, List.mem_append, KillFrame.named] at hx
    rcases hx with hx | hx
    · exact hi.closed pid x hpid (mem_children.mp hx)
    · exact hi.named x (hrest x hx)
  · simp only [RunningKill.named, List.flatMap_cons, KillFrame.named]
    refine List.nodup_append'.mpr ⟨hi.distinct.nodup_children pid, hnodup, ?_⟩
    intro x hx hin
    exact (hnew x hx).1 (hrest x hin)
  · intro x hx hseen
    simp only [RunningKill.named, List.flatMap_cons, List.mem_append, KillFrame.named] at hx
    rcases hx with hx | hx
    · rcases List.mem_cons.mp hseen with rfl | hseen
      · exact (hi.ends x hpid).irrefl (.single (mem_children.mp hx))
      · exact (hnew x hx).2 hseen
    · rcases List.mem_cons.mp hseen with rfl | hseen
      · exact hpidRest hx
      · exact hi.unseen x (hrest x hx) hseen
  · intro x hx
    rcases List.mem_cons.mp hx with rfl | hx
    · exact hpid
    · exact hi.seen x hx
  · intro x y hx hchild hy
    simp only [RunningKill.named, List.flatMap_cons, List.mem_append, KillFrame.named, List.mem_cons] at hy
    rcases hy with (hy | hy) | rfl | hy
    · have heq := hi.distinct.unique_parent x pid y hchild (mem_children.mp hy)
      exact heq ▸ List.mem_cons_self ..
    · exact List.mem_cons_of_mem _ (hi.known x y hx hchild (.inl (hrest y hy)))
    · exact List.mem_cons_of_mem _ (hi.known x y hx hchild (.inl hpidNamed))
    · exact List.mem_cons_of_mem _ (hi.known x y hx hchild (.inr hy))
  · intro x hx
    simp only [RunningKill.stack, List.flatMap_cons, List.mem_append, KillFrame.entered,
      List.mem_singleton] at hx
    rcases hx with rfl | hx
    · exact List.mem_cons_self ..
    · exact List.mem_cons_of_mem _ (hi.stack x (hstack ▸ hx))
  · intro x hx hruns
    simp only [RunningKill.stack, List.flatMap_cons, List.mem_append, KillFrame.entered, List.mem_singleton]
    rcases List.mem_cons.mp hx with rfl | hx
    · exact .inl rfl
    · exact .inr (hstack ▸ hi.running x hx hruns)

theorem covered_enter_iff (hi : s.Inv) (h : s.frames = .enter pid :: frames) : s.advance.Covered ↔ s.Covered := by
  have hnamed : s.named = pid :: frames.flatMap KillFrame.named := by
    simp [RunningKill.named, h, KillFrame.named]
  have hstack : s.stack = frames.flatMap KillFrame.entered := by
    simp [RunningKill.stack, h, KillFrame.entered]
  have hpid : pid ∈ s.named := hnamed ▸ List.mem_cons_self ..
  rw [advance_enter h]
  constructor
  · intro hc x hx hruns
    rcases hc x hx hruns with hon | ⟨root, hroot, hfinds⟩
    · simp only [RunningKill.stack, List.flatMap_cons, List.mem_append, KillFrame.entered,
        List.mem_singleton] at hon
      rcases hon with rfl | hon
      · exact .inr ⟨x, hpid, .refl⟩
      · exact .inl (hstack ▸ hon)
    · simp only [RunningKill.named, List.flatMap_cons, List.mem_append, KillFrame.named] at hroot
      have hbefore : Finds (Child s.processes.table) s.IsSeen root x :=
        finds_congr (fun _ _ => id) (fun y hy => List.mem_cons_of_mem pid hy) hfinds
      rcases hroot with hroot | hroot
      · exact .inr ⟨pid, hpid, .head ⟨mem_children.mp hroot, hi.unseen pid hpid⟩ hbefore⟩
      · exact .inr ⟨root, hnamed ▸ List.mem_cons_of_mem pid hroot, hbefore⟩
  · intro hc x hx hruns
    simp only [RunningKill.stack, RunningKill.named, List.flatMap_cons, List.mem_append, KillFrame.entered,
      KillFrame.named, List.mem_singleton]
    rcases hc x hx hruns with hon | ⟨root, hroot, hfinds⟩
    · exact .inl (.inr (hstack ▸ hon))
    · have hseen : ∀ y, IsSeen { s with seen := pid :: s.seen } y → y = pid ∨ s.IsSeen y :=
        fun y hy => List.mem_cons.mp hy
      rcases hfinds.see pid with rfl | hsame | ⟨child, hchild, hbehind⟩
      · exact .inl (.inl rfl)
      · rcases List.mem_cons.mp (hnamed ▸ hroot) with rfl | hroot
        · exact .inl (.inl (hsame.eq_of_seen (.inl rfl)))
        · exact .inr ⟨root, .inr hroot, finds_congr (fun _ _ => id) hseen hsame⟩
      · exact .inr ⟨child, .inl (mem_children.mpr hchild), finds_congr (fun _ _ => id) hseen hbehind⟩

end Enter

/-! A call goes on to the next child that it found. -/

section Next

variable {pid child : UInt32} {found : List UInt32} {frames : List KillFrame}

theorem advance_next (h : s.frames = .children pid (child :: found) :: frames) :
    s.advance = { s with frames := .enter child :: .children pid found :: frames } := by
  rw [advance, h]

theorem named_next (h : s.frames = .children pid (child :: found) :: frames) :
    (KillFrame.enter child :: .children pid found :: frames).flatMap KillFrame.named = s.named := by
  simp [RunningKill.named, h, KillFrame.named]

theorem stack_next (h : s.frames = .children pid (child :: found) :: frames) :
    (KillFrame.enter child :: .children pid found :: frames).flatMap KillFrame.entered = s.stack := by
  simp [RunningKill.stack, h, KillFrame.entered]

theorem inv_next (hi : s.Inv) (h : s.frames = .children pid (child :: found) :: frames) : s.advance.Inv := by
  rw [advance_next h]
  refine ⟨hi.distinct, hi.closed, hi.ends, ?_, ?_, ?_, hi.seen, ?_, ?_, ?_, hi.tree, hi.pids, hi.terminated⟩
  · rw [RunningKill.named, named_next h]
    exact hi.named
  · rw [RunningKill.named, named_next h]
    exact hi.nodup
  · rw [RunningKill.named, named_next h]
    exact hi.unseen
  · rw [RunningKill.named, named_next h]
    exact hi.known
  · rw [RunningKill.stack, stack_next h]
    exact hi.stack
  · rw [RunningKill.stack, stack_next h]
    exact hi.running

theorem covered_next_iff (h : s.frames = .children pid (child :: found) :: frames) :
    s.advance.Covered ↔ s.Covered := by
  rw [advance_next h, Covered, RunningKill.named, RunningKill.stack, named_next h, stack_next h]
  rfl

end Next

/-! A call has come to its end. -/

section Terminate

variable {pid : UInt32} {frames : List KillFrame}

theorem advance_terminate (h : s.frames = .children pid [] :: frames) :
    s.advance = { s with processes := s.processes.terminate {} pid, frames := frames } := by
  rw [advance, h]

theorem terminate_table (pid : UInt32) (w : Processes) :
    (w.terminate {} pid).table = w.table.filter (·.th32ProcessID ≠ pid) := by
  unfold terminate
  split_ifs with h
  · rfl
  · refine (List.filter_eq_self.mpr fun e he => ?_).symm
    have hne : e.th32ProcessID ≠ pid := by
      rintro rfl
      exact h ⟨List.mem_map_of_mem he, rfl, rfl⟩
    simpa using hne

theorem mem_terminate_terminated {pid x : UInt32} {w : Processes} (h : x ∈ (w.terminate {} pid).terminated) :
    x = pid ∨ x ∈ w.terminated := by
  unfold terminate at h
  split_ifs at h
  · rcases List.mem_append.mp h with h | h
    · exact .inr h
    · exact .inl (List.mem_singleton.mp h)
  · exact .inr h

theorem inv_filter {w : Processes} {q : UInt32} (hi : s.Inv)
    (htable : w.table = s.processes.table.filter (·.th32ProcessID ≠ q))
    (hterminated : ∀ x ∈ w.terminated, x ∈ s.tree) {frames : List KillFrame}
    (hnamed : frames.flatMap KillFrame.named = s.named)
    (hstack : ∀ x ∈ frames.flatMap KillFrame.entered, x ∈ s.stack)
    (hkept : ∀ x ∈ s.stack, x ≠ q → x ∈ frames.flatMap KillFrame.entered) :
    Inv { s with processes := w, frames := frames } where
  distinct := by
    rw [htable]
    exact List.Nodup.sublist (List.filter_sublist.map _) hi.distinct
  closed x y hx hchild := by
    rw [htable] at hchild
    exact hi.closed x y hx (child_filter.mp hchild).1
  ends x hx := by
    rw [htable]
    exact (hi.ends x hx).mono fun y z hchild => (child_filter.mp hchild).1
  named x hx := hi.named x (hnamed ▸ hx)
  nodup := by
    rw [RunningKill.named, hnamed]
    exact hi.nodup
  unseen x hx := hi.unseen x (hnamed ▸ hx)
  seen := hi.seen
  known x y hx hchild hy := by
    rw [htable] at hchild
    rw [RunningKill.named, hnamed] at hy
    exact hi.known x y hx (child_filter.mp hchild).1 hy
  stack x hx := hi.stack x (hstack x hx)
  running x hx hruns := by
    have hboth := hruns
    rw [runs, htable, runs_filter] at hboth
    exact hkept x (hi.running x hx hboth.1) hboth.2
  tree := hi.tree
  pids e he := by
    rw [htable] at he
    exact hi.pids e (List.mem_filter.mp he).1
  terminated := hterminated

theorem inv_terminate (hi : s.Inv) (h : s.frames = .children pid [] :: frames) : s.advance.Inv := by
  have hnamed : s.named = frames.flatMap KillFrame.named := by
    simp [RunningKill.named, h, KillFrame.named]
  have hstack : s.stack = pid :: frames.flatMap KillFrame.entered := by
    simp [RunningKill.stack, h, KillFrame.entered]
  have hpid : pid ∈ s.tree := hi.seen pid (hi.stack pid (hstack ▸ List.mem_cons_self ..))
  rw [advance_terminate h]
  apply inv_filter hi (terminate_table pid s.processes)
  · intro x hx
    rcases mem_terminate_terminated hx with rfl | hx
    · exact hpid
    · exact hi.terminated x hx
  · exact hnamed.symm
  · intro x hx
    rw [hstack]
    exact List.mem_cons_of_mem _ hx
  · intro x hx hne
    rw [hstack] at hx
    exact (List.mem_cons.mp hx).resolve_left hne

theorem covered_terminate_iff (hi : s.Inv) (h : s.frames = .children pid [] :: frames) :
    s.advance.Covered ↔ s.Covered := by
  have hnamed : s.named = frames.flatMap KillFrame.named := by
    simp [RunningKill.named, h, KillFrame.named]
  have hstack : s.stack = pid :: frames.flatMap KillFrame.entered := by
    simp [RunningKill.stack, h, KillFrame.entered]
  have hseen : s.IsSeen pid := hi.stack pid (hstack ▸ List.mem_cons_self ..)
  have hedge : ∀ y z, Child (s.processes.terminate {} pid).table y z ↔
      Without pid (Child s.processes.table) y z := by
    intro y z
    rw [terminate_table]
    exact child_filter
  rw [advance_terminate h]
  constructor
  · intro hc x hx hruns
    by_cases hne : x = pid
    · exact .inl (hstack ▸ hne ▸ List.mem_cons_self ..)
    · have hstill : x ∈ (s.processes.terminate {} pid).table.map (·.th32ProcessID) := by
        rw [terminate_table]
        exact runs_filter.mpr ⟨hruns, hne⟩
      rcases hc x hx hstill with hon | ⟨root, hroot, hfinds⟩
      · exact .inl (hstack ▸ List.mem_cons_of_mem pid hon)
      · exact .inr ⟨root, hnamed ▸ hroot, hfinds.mono fun y z hchild => ((hedge y z).mp hchild).1⟩
  · intro hc x hx hruns
    rw [runs, terminate_table, runs_filter] at hruns
    rcases hc x hx hruns.1 with hon | ⟨root, hroot, hfinds⟩
    · rw [hstack] at hon
      exact .inl ((List.mem_cons.mp hon).resolve_left hruns.2)
    · rw [hnamed] at hroot
      exact .inr ⟨root, hroot, (hfinds.without_seen hruns.2 hseen).mono fun y z => (hedge y z).mpr⟩

end Terminate

/-! What the other processes do. -/

section Others

variable {parentPid pid : UInt32}

theorem runs_append {table : List ProcessEntry} {x : UInt32} :
    x ∈ (table ++ [(⟨pid, parentPid⟩ : ProcessEntry)]).map (·.th32ProcessID) ↔
      x ∈ table.map (·.th32ProcessID) ∨ x = pid := by
  simp

theorem child_append {table : List ProcessEntry} {x y : UInt32} :
    Child (table ++ [⟨pid, parentPid⟩]) x y ↔ Child table x y ∨ y = pid ∧ x = parentPid := by
  simp [Child]

theorem mem_createProcess_tree {x : UInt32} :
    x ∈ (s.createProcess parentPid pid).tree ↔ x ∈ s.tree ∨ x = pid ∧ parentPid ∈ s.tree := by
  rw [createProcess]
  dsimp only
  split_ifs with hin
  · simp [hin, or_comm]
  · simp [hin]

theorem Inv.not_runs (hi : s.Inv) (hfresh : pid ∉ s.used) : ¬s.runs pid := by
  intro hruns
  obtain ⟨e, he, rfl⟩ := List.mem_map.mp hruns
  exact hfresh (hi.pids e he).1

theorem Inv.childless (hi : s.Inv) (h : s.Allowed (.createProcess parentPid pid)) (x : UInt32) :
    ¬Child (s.createProcess parentPid pid).processes.table pid x := by
  intro hchild
  rcases child_append.mp hchild with hold | ⟨-, rfl⟩
  · exact h.2 (hi.pids _ hold).2
  · exact hi.not_runs h.2 h.1

theorem Inv.distinct_created (hi : s.Inv) (hfresh : pid ∉ s.used) :
    Distinct (s.createProcess parentPid pid).processes.table := by
  rw [createProcess, Distinct]
  simp only [List.map_append, List.map_cons, List.map_nil]
  refine List.nodup_append.mpr ⟨hi.distinct, List.nodup_singleton _, ?_⟩
  rintro x hx y hy rfl
  rw [List.mem_singleton.mp hy] at hx
  exact hi.not_runs hfresh hx

theorem Inv.ends_created (hi : s.Inv) (h : s.Allowed (.createProcess parentPid pid)) :
    ∀ x ∈ (s.createProcess parentPid pid).tree, Ends (Child (s.createProcess parentPid pid).processes.table) x := by
  have hpid : Ends (Child (s.createProcess parentPid pid).processes.table) pid :=
    ⟨pid, fun child hchild => absurd hchild (hi.childless h child)⟩
  intro x hx
  rcases mem_createProcess_tree.mp hx with hx | ⟨rfl, -⟩
  · refine hpid.of_cut (fun y z hchild => ?_) (hi.ends x hx)
    rcases child_append.mp hchild with hold | ⟨rfl, -⟩
    · exact .inl hold
    · exact .inr .refl
  · exact hpid

theorem inv_createProcess (hi : s.Inv) (h : s.Allowed (.createProcess parentPid pid)) :
    (s.createProcess parentPid pid).Inv := by
  have hchildless := hi.childless h
  have hends := hi.ends_created h
  obtain ⟨hparent, hfresh⟩ := h
  have hgrows : ∀ x ∈ s.tree, x ∈ (s.createProcess parentPid pid).tree :=
    fun x hx => mem_createProcess_tree.mpr (.inl hx)
  have hused : ∀ x ∈ s.used, x ∈ (s.createProcess parentPid pid).used := fun x hx => List.mem_cons_of_mem pid hx
  refine ⟨hi.distinct_created hfresh, ?_, hends, ?_, hi.nodup, hi.unseen, ?_, ?_, hi.stack, ?_, ?_, ?_, ?_⟩
  · intro x y hx hchild
    rcases mem_createProcess_tree.mp hx with hxold | ⟨rfl, -⟩
    · rcases child_append.mp hchild with hold | ⟨rfl, rfl⟩
      · exact hgrows y (hi.closed x y hxold hold)
      · exact mem_createProcess_tree.mpr (.inr ⟨rfl, hxold⟩)
    · exact absurd hchild (hchildless y)
  · intro x hx
    exact hgrows x (hi.named x hx)
  · intro x hx
    exact hgrows x (hi.seen x hx)
  · intro x y hx hchild hy
    have hytree : y ∈ s.tree := hy.elim (hi.named y) (hi.seen y)
    rcases mem_createProcess_tree.mp hx with hx | ⟨rfl, -⟩
    · rcases child_append.mp hchild with hold | ⟨rfl, -⟩
      · exact hi.known x y hx hold hy
      · exact absurd (hi.tree y hytree) hfresh
    · exact absurd hchild (hchildless y)
  · intro x hx hruns
    rcases runs_append.mp hruns with hold | rfl
    · exact hi.running x hx hold
    · exact absurd (hi.tree x (hi.seen x hx)) hfresh
  · intro x hx
    rcases mem_createProcess_tree.mp hx with hx | ⟨rfl, -⟩
    · exact hused x (hi.tree x hx)
    · exact List.mem_cons_self ..
  · intro e he
    rcases List.mem_append.mp he with he | he
    · exact ⟨hused _ (hi.pids e he).1, hused _ (hi.pids e he).2⟩
    · obtain ⟨p, hp, hname⟩ := List.mem_map.mp hparent
      rw [List.mem_singleton.mp he]
      exact ⟨List.mem_cons_self .., hused _ (hname ▸ (hi.pids p hp).1)⟩
  · intro x hx
    exact hgrows x (hi.terminated x hx)

theorem covered_createProcess_iff (hi : s.Inv) (hc : s.Covered) (h : s.Allowed (.createProcess parentPid pid)) :
    (s.createProcess parentPid pid).Covered ↔ s.keepsCovered (.createProcess parentPid pid) := by
  obtain ⟨hparent, hfresh⟩ := h
  have hgrown : ∀ x y, Child s.processes.table x y →
      Child (s.createProcess parentPid pid).processes.table x y :=
    fun x y hchild => child_append.mpr (.inl hchild)
  constructor
  · intro hcovered hin hseen
    have htree : pid ∈ (s.createProcess parentPid pid).tree := by
      simp [createProcess, hin]
    rcases hcovered pid htree (runs_append.mpr (.inr rfl)) with hstack | ⟨root, hroot, hfinds⟩
    · exact hfresh (hi.tree pid (hi.seen pid (hi.stack pid hstack)))
    · rcases ReflTransGen.cases_tail hfinds with heq | ⟨x, -, hx⟩
      · exact hfresh (hi.tree pid (hi.named pid (heq ▸ hroot)))
      · rcases child_append.mp hx.1 with hold | ⟨-, rfl⟩
        · exact hfresh (hi.pids _ hold).1
        · exact hx.2 hseen
  · intro hkeeps x hx hruns
    have hold (hx : x ∈ s.tree) (hruns : s.runs x) : x ∈ s.stack ∨ ∃ root ∈ s.named,
        Finds (Child (s.createProcess parentPid pid).processes.table) s.IsSeen root x := by
      rcases hc x hx hruns with hstack | ⟨root, hroot, hfinds⟩
      · exact .inl hstack
      · exact .inr ⟨root, hroot, hfinds.mono hgrown⟩
    rcases mem_createProcess_tree.mp hx with hxold | ⟨rfl, hin⟩
    · rcases runs_append.mp hruns with hran | rfl
      · exact hold hxold hran
      · exact absurd (hi.tree x hxold) hfresh
    · rcases hc parentPid hin hparent with hstack | ⟨root, hroot, hfinds⟩
      · exact absurd (hi.stack parentPid hstack) (hkeeps hin)
      · refine .inr ⟨root, hroot, (hfinds.mono hgrown).tail ⟨?_, hkeeps hin⟩⟩
        exact child_append.mpr (.inr ⟨rfl, rfl⟩)

theorem inv_exitProcess (hi : s.Inv) (q : UInt32) : (s.exitProcess q).Inv := by
  have htable : (s.exitProcess q).processes.table = s.processes.table.filter (·.th32ProcessID ≠ q) := rfl
  exact inv_filter hi htable hi.terminated rfl (fun _ => id) fun _ hx _ => hx

theorem covered_exitProcess_iff (hi : s.Inv) (hc : s.Covered) (q : UInt32) :
    (s.exitProcess q).Covered ↔ s.keepsCovered (.exitProcess q) := by
  constructor
  · intro hcovered
    by_contra hnot
    simp only [keepsCovered, not_or, not_forall] at hnot
    obtain ⟨hnamed, hseen, e, he, hparent, htree, hne, hchildNamed, hchildSeen⟩ := hnot
    have hruns : (s.exitProcess q).runs e.th32ProcessID :=
      runs_filter.mpr ⟨List.mem_map_of_mem he, hne⟩
    rcases hcovered _ htree hruns with hstack | ⟨root, hroot, hfinds⟩
    · exact hchildSeen (hi.stack _ hstack)
    · rcases ReflTransGen.cases_tail hfinds with heq | ⟨x, hx, hlast⟩
      · exact hchildNamed (heq ▸ hroot)
      · have hchild : Child s.processes.table q e.th32ProcessID := by
          rw [← hparent]
          exact he
        have hxq : x = q := hi.distinct.unique_parent x q _ (child_filter.mp hlast.1).1 hchild
        rw [hxq] at hx
        rcases ReflTransGen.cases_tail hx with heq | ⟨y, -, hy⟩
        · exact hnamed (heq ▸ hroot)
        · exact (child_filter.mp hy.1).2 rfl
  · intro hkeeps x hx hruns
    obtain ⟨hruns, hne⟩ := runs_filter.mp hruns
    have hedge : ∀ y z, Without q (Child s.processes.table) y z → Child (s.exitProcess q).processes.table y z :=
      fun y z hchild => child_filter.mpr hchild
    rcases hc x hx hruns with hstack | ⟨root, hroot, hfinds⟩
    · exact .inl hstack
    · rcases hfinds.without hne with hkept | ⟨hseen, hq, child, hchild, hchildNe, hbehind⟩
      · exact .inr ⟨root, hroot, hkept.mono hedge⟩
      · have hqTree : q ∈ s.tree := hq.closed hi.closed (hi.named root hroot)
        rcases hkeeps with hnamed | hseen' | hall
        · refine .inr ⟨q, hnamed, .head ⟨hedge q child ⟨hchild, hchildNe⟩, hseen⟩ ?_⟩
          exact hbehind.mono hedge
        · exact absurd hseen' hseen
        · rcases hall _ hchild rfl (hi.closed q child hqTree hchild) hchildNe with hnamed | hchildSeen
          · exact .inr ⟨child, hnamed, hbehind.mono hedge⟩
          · rw [hbehind.eq_of_seen hchildSeen] at hruns ⊢
            exact .inl (hi.running child hchildSeen hruns)

end Others

theorem advance_nil (h : s.frames = []) : s.advance = s := by
  rw [advance, h]

theorem inv_advance (hi : s.Inv) : s.advance.Inv := by
  cases hframes : s.frames with
  | nil => rwa [advance_nil hframes]
  | cons frame frames =>
    cases frame with
    | enter pid => exact inv_enter hi hframes
    | children pid found =>
      cases found with
      | nil => exact inv_terminate hi hframes
      | cons child found => exact inv_next hi hframes

theorem covered_advance_iff (hi : s.Inv) : s.advance.Covered ↔ s.Covered := by
  cases hframes : s.frames with
  | nil => rw [advance_nil hframes]
  | cons frame frames =>
    cases frame with
    | enter pid => exact covered_enter_iff hi hframes
    | children pid found =>
      cases found with
      | nil => exact covered_terminate_iff hi hframes
      | cons child found => exact covered_next_iff hframes

theorem advance_tree : s.advance.tree = s.tree := by
  unfold advance
  split <;> rfl

theorem inv_step {e : KillEvent} (hi : s.Inv) (h : s.Allowed e) : (s.step e).Inv := by
  cases e with
  | advance => exact inv_advance hi
  | createProcess parentPid pid => exact inv_createProcess hi h
  | exitProcess pid => exact inv_exitProcess hi pid

theorem covered_step_iff {e : KillEvent} (hi : s.Inv) (hc : s.Covered) (h : s.Allowed e) :
    (s.step e).Covered ↔ s.keepsCovered e := by
  cases e with
  | advance => exact iff_of_true ((covered_advance_iff hi).mpr hc) trivial
  | createProcess parentPid pid => exact covered_createProcess_iff hi hc h
  | exitProcess pid => exact covered_exitProcess_iff hi hc pid

/-! The calls when nothing else happens any more. -/

section Alone

variable {pid : UInt32} {found : List UInt32} {frames : List KillFrame} {fuel : ℕ} {w w' : Processes}

theorem inv_iterate (hi : s.Inv) (n : ℕ) : (advance^[n] s).Inv := by
  induction n generalizing s with
  | zero => exact hi
  | succ n ih =>
    rw [Function.iterate_succ_apply]
    exact ih (inv_advance hi)

theorem covered_iterate_iff (hi : s.Inv) (n : ℕ) : (advance^[n] s).Covered ↔ s.Covered := by
  induction n generalizing s with
  | zero => rfl
  | succ n ih =>
    rw [Function.iterate_succ_apply, ih (inv_advance hi)]
    exact covered_advance_iff hi

theorem iterate_tree (n : ℕ) : (advance^[n] s).tree = s.tree := by
  induction n generalizing s with
  | zero => rfl
  | succ n ih =>
    rw [Function.iterate_succ_apply, ih]
    exact advance_tree

def Returns (s : RunningKill) (frames : List KillFrame) (w : Processes) : Prop :=
  ∃ n, (advance^[n] s).frames = frames ∧ (advance^[n] s).processes = w

theorem Returns.iterate {n : ℕ} (h : (advance^[n] s).Returns frames w) : s.Returns frames w := by
  obtain ⟨m, hm⟩ := h
  refine ⟨m + n, ?_⟩
  rw [Function.iterate_add_apply]
  exact hm

theorem returns_killChildren
    (hkill : ∀ (s : RunningKill) child frames w, killProcessTree {} fuel child s.processes = some w →
      s.frames = .enter child :: frames → s.Returns frames w)
    (h : killChildren {} fuel found s.processes = some w) (hframes : s.frames = .children pid found :: frames) :
    s.Returns frames (w.terminate {} pid) := by
  induction found generalizing s with
  | nil =>
    cases h
    refine ⟨1, ?_⟩
    rw [Function.iterate_one, advance_terminate hframes]
    exact ⟨rfl, rfl⟩
  | cons child found ih =>
    rw [killChildren_cons] at h
    obtain ⟨w₁, hw₁, hrest⟩ := Option.bind_eq_some_iff.mp h
    have hcall : s.advance.frames = .enter child :: .children pid found :: frames := by
      rw [advance_next hframes]
    have hprocesses : s.advance.processes = s.processes := by
      rw [advance_next hframes]
    obtain ⟨n, hback, hw⟩ := hkill s.advance child _ w₁ (hprocesses ▸ hw₁) hcall
    apply Returns.iterate (n := 1)
    apply Returns.iterate (n := n)
    exact ih (hw ▸ hrest) hback

theorem returns_killProcessTree (h : killProcessTree {} fuel pid s.processes = some w)
    (hframes : s.frames = .enter pid :: frames) : s.Returns frames w := by
  induction fuel generalizing s pid frames w with
  | zero => cases h
  | succ fuel ih =>
    rcases killProcessTree_cases h with ⟨hfailed, -⟩ | ⟨found, w₁, hfound, hw₁, rfl⟩
    · cases hfailed
    · have hchildren : found = children pid s.processes.table := by
        rcases hfound with hfound | ⟨-, hfailed⟩
        · exact hfound
        · cases hfailed
      subst hchildren
      have hadvance := advance_enter hframes
      apply Returns.iterate (n := 1)
      apply returns_killChildren (fun s child frames w => ih)
      · rw [Function.iterate_one, hadvance]
        exact hw₁
      · rw [Function.iterate_one, hadvance]

theorem calls_end (hi : s.Inv) : ∃ n, (advance^[n] s).frames = [] := by
  have hchild : ∀ pid ∈ s.named, ∀ w : Processes, w.table ⊆ s.processes.table →
      ∃ fuel w', killProcessTree {} fuel pid w = some w' :=
    fun pid hpid w hw => killProcessTree_of_ends {} (hi.ends pid (hi.named pid hpid)) hw
  induction hframes : s.frames generalizing s with
  | nil => exact ⟨0, hframes⟩
  | cons frame frames ih =>
    have hreturns : ∃ w, s.Returns frames w := by
      cases frame with
      | enter pid =>
        have hpid : pid ∈ s.named := by simp [RunningKill.named, hframes, KillFrame.named]
        obtain ⟨fuel, w, hw⟩ := hchild pid hpid s.processes (fun _ he => he)
        exact ⟨w, returns_killProcessTree hw hframes⟩
      | children pid found =>
        have hfound : ∀ child ∈ found, child ∈ s.named := by
          intro child hin
          simp [RunningKill.named, hframes, KillFrame.named, hin]
        obtain ⟨fuel, w, hw⟩ := killChildren_ends (fun child hin => hchild child (hfound child hin))
          (fun _ he => he)
        exact ⟨_, returns_killChildren (fun s child frames w => returns_killProcessTree) hw hframes⟩
    obtain ⟨w, n, hback, -⟩ := hreturns
    have hinv := inv_iterate hi n
    obtain ⟨m, hm⟩ := ih hinv
      (fun pid hpid w hw => killProcessTree_of_ends {} (hinv.ends pid (hinv.named pid hpid)) hw) hback
    refine ⟨m + n, ?_⟩
    rw [Function.iterate_add_apply]
    exact hm

end Alone

def LeavesNone (s : RunningKill) : Prop :=
  ∀ n, (advance^[n] s).frames = [] → ∀ pid ∈ s.tree, ¬(advance^[n] s).runs pid

theorem covered_of_returned (h : s.frames = []) : s.Covered ↔ ∀ pid ∈ s.tree, ¬s.runs pid := by
  constructor
  · intro hc pid hpid hruns
    rcases hc pid hpid hruns with hstack | ⟨root, hroot, -⟩
    · simp [RunningKill.stack, h] at hstack
    · simp [RunningKill.named, h] at hroot
  · intro hgone pid hpid hruns
    exact absurd hruns (hgone pid hpid)

theorem leavesNone_iff (hi : s.Inv) : s.LeavesNone ↔ s.Covered := by
  have hreturned : ∀ n, (advance^[n] s).frames = [] →
      (s.Covered ↔ ∀ pid ∈ s.tree, ¬(advance^[n] s).runs pid) := by
    intro n hframes
    rw [← covered_iterate_iff hi n, covered_of_returned hframes, iterate_tree]
  constructor
  · intro hnone
    obtain ⟨n, hframes⟩ := calls_end hi
    exact (hreturned n hframes).mpr (hnone n hframes)
  · intro hc n hframes
    exact (hreturned n hframes).mp hc

def called (root : UInt32) (table : List ProcessEntry) (tree : List UInt32) : RunningKill where
  processes := { table := table }
  frames := [.enter root]
  tree := tree
  used := root :: table.flatMap fun e => [e.th32ProcessID, e.th32ParentProcessID]

section Called

variable {root : UInt32} {table : List ProcessEntry} {tree : List UInt32}

theorem inv_called (hdistinct : Distinct table) (hacyclic : Acyclic (Child table) root)
    (htree : ∀ pid, pid ∈ tree ↔ ReflTransGen (Child table) root pid) : (called root table tree).Inv where
  distinct := hdistinct
  closed x y hx hchild := (htree y).mpr (((htree x).mp hx).tail hchild)
  ends x hx := (ends_child_iff.mpr hacyclic).below ((htree x).mp hx)
  named x hx := (htree x).mpr (List.mem_singleton.mp hx ▸ .refl)
  nodup := List.nodup_singleton root
  unseen _ _ := List.not_mem_nil
  seen _ hx := absurd hx List.not_mem_nil
  known x y hx hchild hy := by
    rcases hy with hy | hy
    · rw [List.mem_singleton.mp hy] at hchild
      exact absurd (TransGen.tail' ((htree x).mp hx) hchild) (hacyclic root .refl)
    · cases hy
  stack _ hx := absurd hx List.not_mem_nil
  running _ hx := absurd hx List.not_mem_nil
  tree x hx := by
    rcases ReflTransGen.cases_tail ((htree x).mp hx) with rfl | ⟨y, -, hchild⟩
    · exact List.mem_cons_self ..
    · exact List.mem_cons_of_mem root (List.mem_flatMap.mpr ⟨_, hchild, List.mem_cons_self ..⟩)
  pids e he :=
    ⟨List.mem_cons_of_mem root (List.mem_flatMap.mpr ⟨e, he, by simp⟩),
      List.mem_cons_of_mem root (List.mem_flatMap.mpr ⟨e, he, by simp⟩)⟩
  terminated _ hx := absurd hx List.not_mem_nil

theorem covered_called (htree : ∀ pid, pid ∈ tree ↔ ReflTransGen (Child table) root pid) :
    (called root table tree).Covered := by
  intro x hx _
  refine .inr ⟨root, List.mem_singleton_self root, ?_⟩
  exact ReflTransGen.mono (fun _ _ hchild => ⟨hchild, List.not_mem_nil⟩) _ _ ((htree x).mp hx)

theorem leavesNone_throughout_iff (hdistinct : Distinct table) (hacyclic : Acyclic (Child table) root)
    (htree : ∀ pid, pid ∈ tree ↔ ReflTransGen (Child table) root pid) {es : List KillEvent}
    (hall : Along step Allowed (called root table tree) es) :
    (∀ pid ∈ (run step (called root table tree) es).processes.terminated,
      pid ∈ (run step (called root table tree) es).tree) ∧
    (∃ n, (advance^[n] (run step (called root table tree) es)).frames = []) ∧
    (Throughout step LeavesNone (called root table tree) es ↔
      Along step keepsCovered (called root table tree) es) := by
  have hi := inv_called hdistinct hacyclic htree
  have hrun := run_of_step (I := Inv) (fun s e hi h => inv_step hi h) hi hall
  refine ⟨hrun.terminated, calls_end hrun, ?_⟩
  apply throughout_iff_along (I := fun s => s.Inv ∧ s.Covered) _ _ _
    ⟨hi, covered_called htree⟩ hall
  · intro s hs
    exact (leavesNone_iff hs.1).mpr hs.2
  · intro s e hs h
    rw [leavesNone_iff (inv_step hs.1 h)]
    exact covered_step_iff hs.1 hs.2 h
  · intro s e hs h hkeeps
    exact ⟨inv_step hs.1 h, (covered_step_iff hs.1 hs.2 h).mpr hkeeps⟩

theorem leavesNone_throughout_created :
    let s := called 4 [⟨4, 1⟩, ⟨7, 4⟩, ⟨2, 1⟩] [4, 7]
    Throughout step LeavesNone s [.advance, .createProcess 7 9, .exitProcess 4, .advance, .advance] ∧
      ¬Throughout step LeavesNone s [.advance, .createProcess 4 9] := by
  have hleaf : Ends (Child [⟨4, 1⟩, ⟨7, 4⟩, ⟨2, 1⟩]) 7 := ⟨7, fun x hx => by simp [Child] at hx⟩
  have hends : Ends (Child [⟨4, 1⟩, ⟨7, 4⟩, ⟨2, 1⟩]) 4 := by
    refine ⟨4, fun x hx => ?_⟩
    have hx : x = 7 := by simpa [Child] using hx
    exact hx ▸ hleaf
  have htree : ∀ pid, pid ∈ ([4, 7] : List UInt32) ↔ ReflTransGen (Child [⟨4, 1⟩, ⟨7, 4⟩, ⟨2, 1⟩]) 4 pid := by
    intro pid
    constructor
    · intro hpid
      rcases List.mem_pair.mp hpid with rfl | rfl
      · exact .refl
      · exact .single (by simp [Child])
    · intro hbelow
      induction hbelow with
      | refl => decide
      | tail _ hchild ih =>
        rcases List.mem_pair.mp ih with rfl | rfl
        · simp_all [Child]
        · simp [Child] at hchild
  have hdistinct : Distinct [⟨4, 1⟩, ⟨7, 4⟩, ⟨2, 1⟩] := by
    unfold Distinct
    decide
  have hacyclic := ends_child_iff.mp hends
  constructor
  · exact (leavesNone_throughout_iff hdistinct hacyclic htree (by decide)).2.2.mpr (by decide)
  · exact fun hnone => absurd
      ((leavesNone_throughout_iff hdistinct hacyclic htree (by decide)).2.2.mp hnone) (by decide)

end Called

end RunningKill

end TCodeProxy
