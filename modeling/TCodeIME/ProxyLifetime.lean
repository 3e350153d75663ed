import TCodeIME.ProcessHistory

/-!
The engine process of the proxy: how it is started, and what becomes of it when the proxy ends.
-/

namespace TCodeProxy

open Relation ReusedNames Runs

/-- The proxy among the processes. `engine` are the births of the process it started and of all that stem
from it, whether or not they still run. The job goes by its name: `otherHandles` are those that further
proxies have on it, `killOnJobClose` is its limit and `job` are the births of those that this proxy has put
in, with what stems from them. -/
structure Proxy where
  processes : ProcessHistory
  pid : UInt32
  g_hJob : Bool := false
  otherHandles : ℕ := 0
  killOnJobClose : Bool := false
  g_childPid : UInt32 := 0
  g_childProcessHandle : Option ℕ := none
  started : Bool := false
  engine : List ℕ := []
  job : List ℕ := []

inductive ProxyEvent where
  | setupJobObject (createJobObject setInformation : Bool)
  -- the two calls of `StartEngineProcess`
  | createEngine (pid : UInt32)
  | assignEngine (assigned : Bool)
  -- what other processes do, the first two with the job of that name
  | openJob (setInformation : Bool)
  | closeJob
  | createProcess (parentPid pid : UInt32)
  | exitProcess (pid : UInt32)

namespace Proxy

open Processes

def inherit (parent child : ℕ) (l : List ℕ) : List ℕ := if parent ∈ l then child :: l else l

/-- `CreateJobObjectW` opens the job of that name where there is one. -/
def setupJobObject (createJobObject setInformation : Bool) (s : Proxy) : Proxy :=
  { s with
    g_hJob := createJobObject
    killOnJobClose := s.killOnJobClose || (createJobObject && setInformation) }

def openJob (setInformation : Bool) (s : Proxy) : Proxy :=
  { s with
    otherHandles := s.otherHandles + 1
    killOnJobClose := s.killOnJobClose || setInformation }

/-- The job goes with its last handle. -/
def closeJob (s : Proxy) : Proxy :=
  { s with
    otherHandles := s.otherHandles - 1
    killOnJobClose := s.killOnJobClose && (s.g_hJob || decide (1 < s.otherHandles)) }

/-- A process is in the job of the process that creates it. -/
def createProcess (parentPid pid : UInt32) (keepHandle : Bool) (s : Proxy) : Proxy :=
  match s.processes.members.find? (·.name = parentPid) with
  | none => s
  | some parent =>
    if s.processes.isFree pid then
      { s with
        processes := s.processes.createProcess parentPid pid keepHandle
        engine := inherit parent.birth s.processes.next s.engine
        job := inherit parent.birth s.processes.next s.job }
    else s

def createEngine (pid : UInt32) (s : Proxy) : Proxy :=
  let s' := s.createProcess s.pid pid true
  if s'.processes.next = s.processes.next then s
  else
    { s' with
      g_childPid := pid
      g_childProcessHandle := some s.processes.next
      started := false
      engine := s.processes.next :: s'.engine }

def assignEngine (assigned : Bool) (s : Proxy) : Proxy :=
  { s with
    started := true
    job := if s.g_hJob ∧ assigned then s.g_childProcessHandle.toList ++ s.job else s.job }

def step (s : Proxy) : ProxyEvent → Proxy
  | .setupJobObject createJobObject setInformation => s.setupJobObject createJobObject setInformation
  | .createEngine pid => s.createEngine pid
  | .assignEngine assigned => s.assignEngine assigned
  | .openJob setInformation => s.openJob setInformation
  | .closeJob => s.closeJob
  | .createProcess parentPid pid => s.createProcess parentPid pid false
  | .exitProcess pid => { s with processes := s.processes.restrict (·.name ≠ pid) }

/-- `KillProcessTree` is given fuel. -/
def killJavaProcess (fuel : ℕ) (s : Proxy) : Option Proxy :=
  let killed :=
    if s.g_childPid ≠ 0 then
      (killProcessTree {} fuel s.g_childPid { table := s.processes.table }).map fun w =>
        { s with
          processes := s.processes.restrict (·.name ∉ w.terminated)
          g_childPid := 0 }
    else some s
  killed.map fun s => s.g_childProcessHandle.elim s fun birth =>
    { s with
      processes := s.processes.release birth
      g_childProcessHandle := none }

/-- The handle of the job is closed when the proxy ends, however it ends. Only the last one takes the
processes in the job along. -/
def afterJobClose (s : Proxy) : ProcessHistory :=
  s.processes.restrict fun m => !(s.killOnJobClose && s.otherHandles = 0 && m.birth ∈ s.job)

/-- What `CreateProcessW` does to the processes, where it succeeds. -/
structure Created (parent : Member UInt32) (pid : UInt32) (keepHandle : Bool) (h h' : ProcessHistory) :
    Prop where
  parent_mem : parent ∈ h.members
  members : h'.members = h.members ++ [⟨h.next, pid, parent.birth, parent.name⟩]
  held : h'.held = if keepHandle then (h.next, pid) :: h.held else h.held
  next : h'.next = h.next + 1

section CreateProcess

variable {s : Proxy} {parentPid pid : UInt32} {keepHandle : Bool}

theorem createProcess_cases (s : Proxy) (parentPid pid : UInt32) (keepHandle : Bool) :
    (s.createProcess parentPid pid keepHandle = s ∧
        s.processes.createProcess parentPid pid keepHandle = s.processes) ∨
      ∃ parent, Created parent pid keepHandle s.processes
          (s.processes.createProcess parentPid pid keepHandle) ∧
        s.createProcess parentPid pid keepHandle =
          { s with
            processes := s.processes.createProcess parentPid pid keepHandle
            engine := inherit parent.birth s.processes.next s.engine
            job := inherit parent.birth s.processes.next s.job } := by
  rcases s.processes.createProcess_cases parentPid pid keepHandle with
    ⟨h, hnot⟩ | ⟨parent, hparent, hfree, hname, hchild, h⟩
  · refine Or.inl ⟨?_, h⟩
    unfold createProcess
    cases hfind : s.processes.members.find? (·.name = parentPid) with
    | none => rfl
    | some parent =>
      rcases hnot with hnot | hnot
      · exact absurd (by simpa using List.find?_some hfind) (hnot parent (List.mem_of_find?_eq_some hfind))
      · simp [hnot]
  · refine Or.inr ⟨parent, ⟨hparent, ?_, ?_, ?_⟩, ?_⟩
    · rw [h]
      cases keepHandle <;> rfl
    · rw [h]
      cases keepHandle <;> rfl
    · rw [h]
      cases keepHandle <;> rfl
    · have hfind : s.processes.members.find? (·.name = parentPid) = some parent := by
        cases hfound : s.processes.members.find? (·.name = parentPid) with
        | none =>
          have hnot := List.find?_eq_none.mp hfound parent hparent
          exact absurd hname (by simpa using hnot)
        | some parent' =>
          have hname' : parent'.name = parentPid := by simpa using List.find?_some hfound
          rw [s.processes.name_inj (List.mem_of_find?_eq_some hfound) hparent (hname'.trans hname.symm)]
      unfold createProcess
      rw [hfind]
      exact if_pos hfree

theorem createProcess_processes :
    (s.createProcess parentPid pid keepHandle).processes =
      s.processes.createProcess parentPid pid keepHandle := by
  rcases createProcess_cases s parentPid pid keepHandle with ⟨h, hsame⟩ | ⟨parent, -, h⟩
  · rw [h, hsame]
  · rw [h]

theorem createEngine_cases (s : Proxy) (pid : UInt32) :
    (s.createEngine pid = s ∧ s.processes.createProcess s.pid pid true = s.processes) ∨
      ∃ parent, Created parent pid true s.processes (s.processes.createProcess s.pid pid true) ∧
        s.createEngine pid =
          { s with
            processes := s.processes.createProcess s.pid pid true
            g_childPid := pid
            g_childProcessHandle := some s.processes.next
            started := false
            engine := s.processes.next :: inherit parent.birth s.processes.next s.engine
            job := inherit parent.birth s.processes.next s.job } := by
  unfold createEngine
  rcases createProcess_cases s s.pid pid true with ⟨h, hsame⟩ | ⟨parent, hcreated, h⟩
  · rw [h]
    exact Or.inl ⟨if_pos rfl, hsame⟩
  · rw [h]
    refine Or.inr ⟨parent, hcreated, ?_⟩
    dsimp only
    rw [if_neg]
    rw [hcreated.next]
    exact Nat.succ_ne_self _

end CreateProcess

/-! `KillJavaProcess`, which goes by the pid of the process that was started. -/

def processEvent (s : Proxy) : ProxyEvent → Option ProcessEvent
  | .createEngine pid => some (.createProcess s.pid pid true)
  | .createProcess parentPid pid => some (.createProcess parentPid pid false)
  | .exitProcess pid => some (.exitProcess pid)
  | _ => none

def takesFreshPid (s : Proxy) (e : ProxyEvent) : Prop :=
  ∀ e' ∈ s.processEvent e, s.processes.takesFreshPid e'

structure Tracks (s : Proxy) : Prop where
  faithful : s.processes.Faithful
  handle : s.g_childPid ≠ 0 →
    ∃ birth, s.g_childProcessHandle = some birth ∧ (birth, s.g_childPid) ∈ s.processes.held

section Tracks

variable {s : Proxy}

theorem step_processes (s : Proxy) (e : ProxyEvent) :
    (s.step e).processes = (s.processEvent e).elim s.processes s.processes.step := by
  cases e with
  | setupJobObject => rfl
  | createEngine pid =>
    rcases createEngine_cases s pid with ⟨h, hsame⟩ | ⟨parent, -, h⟩
    · rw [step, h]
      exact hsame.symm
    · rw [step, h]
      rfl
  | assignEngine => rfl
  | openJob => rfl
  | closeJob => rfl
  | createProcess parentPid pid => exact createProcess_processes
  | exitProcess pid => rfl

theorem tracks_step (hs : s.Tracks) {e : ProxyEvent} (hfresh : s.takesFreshPid e) : (s.step e).Tracks where
  faithful := by
    rw [step_processes]
    cases hevent : s.processEvent e with
    | none => exact hs.faithful
    | some e' => exact (ProcessHistory.faithful_step_iff hs.faithful e').mpr (hfresh e' hevent)
  handle := by
    cases e with
    | setupJobObject => exact hs.handle
    | createEngine pid =>
      rcases createEngine_cases s pid with ⟨h, -⟩ | ⟨parent, hcreated, h⟩
      · rw [step, h]
        exact hs.handle
      · rw [step, h]
        intro _
        refine ⟨_, rfl, ?_⟩
        dsimp only
        rw [hcreated.held]
        exact List.mem_cons_self
    | assignEngine => exact hs.handle
    | openJob => exact hs.handle
    | closeJob => exact hs.handle
    | createProcess parentPid pid =>
      rcases createProcess_cases s parentPid pid false with ⟨h, -⟩ | ⟨parent, hcreated, h⟩
      · rw [step, h]
        exact hs.handle
      · rw [step, h]
        dsimp only
        rw [hcreated.held]
        exact hs.handle
    | exitProcess pid => exact hs.handle

theorem killJavaProcess_of_tracks (hs : s.Tracks) (hpid : s.g_childPid ≠ 0) :
    ∃ birth fuel s', s.g_childProcessHandle = some birth ∧ s.killJavaProcess fuel = some s' ∧
      (∀ m, m ∈ s'.processes.members ↔
        m ∈ s.processes.members ∧ ¬ ReflTransGen s.processes.Bore birth m.birth) ∧
      ∀ fuel', s'.killJavaProcess fuel' = some s' := by
  obtain ⟨birth, hhandle, hheld⟩ := hs.handle hpid
  obtain ⟨fuel, w, hw, hkills⟩ := ProcessHistory.killsExactly_of_faithful hs.faithful (Or.inr hheld)
  let s' : Proxy :=
    { s with
      processes := (s.processes.restrict (·.name ∉ w.terminated)).release birth
      g_childPid := 0
      g_childProcessHandle := none }
  refine ⟨birth, fuel, s', hhandle, ?_, ?_, ?_⟩
  · rw [killJavaProcess, if_pos hpid, hw, Option.map_some, Option.map_some, hhandle, Option.elim_some]
  · intro m
    simp only [s', Population.release, Population.restrict, List.mem_filter, decide_eq_true_eq]
    constructor
    · rintro ⟨hm, hnot⟩
      exact ⟨hm, fun hbore => hnot ((hkills m hm).mpr hbore)⟩
    · rintro ⟨hm, hnot⟩
      exact ⟨hm, fun hmem => hnot ((hkills m hm).mp hmem)⟩
  · intro fuel'
    rfl

end Tracks

/-- From the return of `StartEngineProcess` on. -/
def EndsWithProxy (s : Proxy) : Prop :=
  s.started = true → ∀ m ∈ s.afterJobClose.members, m.birth ∉ s.engine

/-- The job is set up once, before the engine is started, which also happens once. -/
def allowed (s : Proxy) : ProxyEvent → Prop
  | .setupJobObject _ _ => s.g_hJob = false ∧ s.engine = []
  | .createEngine _ => s.engine = []
  | .assignEngine _ => s.started = false
  | _ => True

def boundByJob (s : Proxy) (b : ℕ) : Prop :=
  s.killOnJobClose = true ∧ s.otherHandles = 0 ∧ b ∈ s.job

def bindsEngine (s : Proxy) : ProxyEvent → Prop
  | .assignEngine assigned => ∀ m ∈ s.processes.members, m.birth ∈ s.engine →
      s.killOnJobClose = true ∧ s.otherHandles = 0 ∧ assigned = true ∧ s.g_childProcessHandle = some m.birth
  | .openJob _ => s.started = true → ∀ m ∈ s.processes.members, m.birth ∉ s.engine
  | _ => True

structure Kept (s : Proxy) : Prop where
  engine_lt : ∀ b ∈ s.engine, b < s.processes.next
  job_lt : ∀ b ∈ s.job, b < s.processes.next
  handle_lt : ∀ b, s.g_childProcessHandle = some b → b < s.processes.next
  limited : s.killOnJobClose = true → s.g_hJob = true ∨ 0 < s.otherHandles
  unassigned : s.started = false → s.job = []
  idle : s.engine = [] → s.job = [] ∧ s.g_childProcessHandle = none
  inJob : s.started = true → ∀ m ∈ s.processes.members, m.birth ∈ s.engine → s.boundByJob m.birth

section Job

variable {s : Proxy}

theorem endsWithProxy_iff : s.EndsWithProxy ↔
    (s.started = true → ∀ m ∈ s.processes.members, m.birth ∈ s.engine → s.boundByJob m.birth) := by
  apply imp_congr_right
  intro _
  simp only [afterJobClose, Population.restrict, List.mem_filter, and_imp]
  apply forall₂_congr
  intro m _
  have hcloses : (!(s.killOnJobClose && decide (s.otherHandles = 0) && decide (m.birth ∈ s.job))) = true ↔
      ¬ s.boundByJob m.birth := by
    rw [Bool.not_eq_true', ← Bool.not_eq_true, not_iff_not]
    simp only [boundByJob, Bool.and_eq_true, decide_eq_true_eq, and_assoc]
  rw [hcloses, not_imp_not]

theorem mem_inherit {parent child b : ℕ} {l : List ℕ} :
    b ∈ inherit parent child l ↔ b ∈ l ∨ (b = child ∧ parent ∈ l) := by
  unfold inherit
  split_ifs with h
  · rw [List.mem_cons, or_comm, and_iff_left h]
  · simp [h]

theorem inherit_lt {parent next : ℕ} {l : List ℕ} (hl : ∀ b ∈ l, b < next) :
    ∀ b ∈ inherit parent next l, b < next + 1 := by
  intro b hb
  rcases mem_inherit.mp hb with hb | ⟨rfl, -⟩
  · exact Nat.lt_succ_of_lt (hl b hb)
  · exact Nat.lt_succ_self _

theorem kept_createProcess (hs : s.Kept) (parentPid pid : UInt32) :
    (s.createProcess parentPid pid false).Kept := by
  rcases createProcess_cases s parentPid pid false with ⟨h, -⟩ | ⟨parent, hcreated, h⟩
  · rw [h]
    exact hs
  · rw [h]
    refine ⟨?_, ?_, ?_, hs.limited, ?_, ?_, ?_⟩
    · dsimp only
      rw [hcreated.next]
      exact inherit_lt hs.engine_lt
    · dsimp only
      rw [hcreated.next]
      exact inherit_lt hs.job_lt
    · intro b hb
      dsimp only
      rw [hcreated.next]
      exact Nat.lt_succ_of_lt (hs.handle_lt b hb)
    · intro hstarted
      dsimp only
      rw [hs.unassigned hstarted]
      rfl
    · intro hengine
      have hnone : s.engine = [] := by
        rw [List.eq_nil_iff_forall_not_mem] at hengine ⊢
        exact fun b hb => hengine b (mem_inherit.mpr (Or.inl hb))
      obtain ⟨hjob, hhandle⟩ := hs.idle hnone
      dsimp only
      rw [hjob]
      exact ⟨rfl, hhandle⟩
    · intro hstarted m hm hengine
      dsimp only at hm hengine ⊢
      rw [hcreated.members] at hm
      rw [mem_inherit] at hengine
      rcases List.mem_append.mp hm with hm | hm
      · have hlt := s.processes.births_lt m hm
        have hold : m.birth ∈ s.engine := by
          rcases hengine with hengine | ⟨hbirth, -⟩
          · exact hengine
          · exact absurd hbirth (Nat.ne_of_lt hlt)
        obtain ⟨hkill, hlast, hjob⟩ := hs.inJob hstarted m hm hold
        exact ⟨hkill, hlast, mem_inherit.mpr (Or.inl hjob)⟩
      · rw [List.mem_singleton.mp hm] at hengine ⊢
        rcases hengine with hengine | ⟨-, hparent⟩
        · exact absurd (hs.engine_lt _ hengine) (Nat.lt_irrefl _)
        · obtain ⟨hkill, hlast, hjob⟩ := hs.inJob hstarted parent hcreated.parent_mem hparent
          exact ⟨hkill, hlast, mem_inherit.mpr (Or.inr ⟨rfl, hjob⟩)⟩

theorem kept_createEngine (hs : s.Kept) (hengine : s.engine = []) (pid : UInt32) :
    (s.createEngine pid).Kept := by
  rcases createEngine_cases s pid with ⟨h, -⟩ | ⟨parent, hcreated, h⟩
  · rw [h]
    exact hs
  · obtain ⟨hjob, -⟩ := hs.idle hengine
    rw [h]
    refine ⟨?_, ?_, ?_, hs.limited, ?_, ?_, ?_⟩
    · intro b hb
      dsimp only at hb ⊢
      rw [hcreated.next]
      rcases List.mem_cons.mp hb with rfl | hb
      · exact Nat.lt_succ_self _
      · exact inherit_lt hs.engine_lt b hb
    · dsimp only
      rw [hjob]
      exact fun b hb => absurd hb List.not_mem_nil
    · intro b hb
      cases hb
      dsimp only
      rw [hcreated.next]
      exact Nat.lt_succ_self _
    · intro _
      dsimp only
      rw [hjob]
      rfl
    · intro hnone
      cases hnone
    · intro hstarted
      cases hstarted

theorem assignEngine_iff (hs : s.Kept) (hstarted : s.started = false) (assigned : Bool) :
    ((s.assignEngine assigned).EndsWithProxy ↔ s.bindsEngine (.assignEngine assigned)) ∧
      ((s.assignEngine assigned).EndsWithProxy → (s.assignEngine assigned).Kept) := by
  have hjob : ∀ b, b ∈ (s.assignEngine assigned).job ↔
      s.g_hJob = true ∧ assigned = true ∧ s.g_childProcessHandle = some b := by
    intro b
    unfold assignEngine
    dsimp only
    rw [hs.unassigned hstarted]
    split_ifs with h
    · simp [h]
    · exact iff_of_false List.not_mem_nil fun hb => h ⟨hb.1, hb.2.1⟩
  have hends : (s.assignEngine assigned).EndsWithProxy ↔ ∀ m ∈ s.processes.members, m.birth ∈ s.engine →
      (s.assignEngine assigned).boundByJob m.birth := by
    rw [endsWithProxy_iff]
    exact ⟨fun h => h rfl, fun h _ => h⟩
  constructor
  · rw [hends]
    apply forall₂_congr
    intro m _
    apply imp_congr_right
    intro _
    unfold boundByJob
    rw [hjob]
    constructor
    · rintro ⟨hkill, hlast, -, hassigned, hhandle⟩
      exact ⟨hkill, hlast, hassigned, hhandle⟩
    · rintro ⟨hkill, hlast, hassigned, hhandle⟩
      -- a limit without another handle is that of the proxy's own job
      have hown := (hs.limited hkill).resolve_right (by rw [hlast]; exact Nat.lt_irrefl 0)
      exact ⟨hkill, hlast, hown, hassigned, hhandle⟩
  · intro h
    refine ⟨hs.engine_lt, ?_, hs.handle_lt, hs.limited, ?_, ?_, fun _ => hends.mp h⟩
    · intro b hb
      exact hs.handle_lt b ((hjob b).mp hb).2.2
    · intro hunstarted
      cases hunstarted
    · intro hengine
      obtain ⟨-, hhandle⟩ := hs.idle hengine
      refine ⟨?_, hhandle⟩
      rw [List.eq_nil_iff_forall_not_mem]
      intro b hb
      have hsome := ((hjob b).mp hb).2.2
      rw [hhandle] at hsome
      cases hsome

theorem openJob_iff (hs : s.Kept) (setInformation : Bool) :
    ((s.openJob setInformation).EndsWithProxy ↔ s.bindsEngine (.openJob setInformation)) ∧
      ((s.openJob setInformation).EndsWithProxy → (s.openJob setInformation).Kept) := by
  have hshared (b : ℕ) : ¬ (s.openJob setInformation).boundByJob b := fun h => Nat.succ_ne_zero _ h.2.1
  have hends : (s.openJob setInformation).EndsWithProxy ↔ s.bindsEngine (.openJob setInformation) := by
    rw [endsWithProxy_iff]
    apply imp_congr_right
    intro _
    apply forall₂_congr
    intro m _
    exact imp_congr_right fun _ => iff_of_false (hshared _) id
  refine ⟨hends, fun h => ⟨hs.engine_lt, hs.job_lt, hs.handle_lt, ?_, hs.unassigned, hs.idle, ?_⟩⟩
  · intro _
    exact Or.inr (Nat.succ_pos _)
  · exact endsWithProxy_iff.mp h

theorem kept_closeJob (hs : s.Kept) : s.closeJob.Kept := by
  refine ⟨hs.engine_lt, hs.job_lt, hs.handle_lt, ?_, hs.unassigned, hs.idle, ?_⟩
  · intro h
    obtain ⟨-, h⟩ := Bool.and_eq_true_iff.mp h
    rcases Bool.or_eq_true_iff.mp h with hown | hothers
    · exact Or.inl hown
    · have hlt : 1 < s.otherHandles := of_decide_eq_true hothers
      exact Or.inr (Nat.sub_pos_of_lt hlt)
  · intro hstarted m hm hengine
    obtain ⟨hkill, hlast, hjob⟩ := hs.inJob hstarted m hm hengine
    have hown := (hs.limited hkill).resolve_right (by rw [hlast]; exact Nat.lt_irrefl 0)
    refine ⟨?_, ?_, hjob⟩
    · simp [closeJob, hkill, hown]
    · simp [closeJob, hlast]

theorem step_endsWithProxy_iff (hs : s.Kept) {e : ProxyEvent} (he : s.allowed e) :
    ((s.step e).EndsWithProxy ↔ s.bindsEngine e) ∧ ((s.step e).EndsWithProxy → (s.step e).Kept) := by
  have hquiet {s' : Proxy} (hs' : s'.Kept) : (s'.EndsWithProxy ↔ True) ∧ (s'.EndsWithProxy → s'.Kept) :=
    ⟨iff_of_true (endsWithProxy_iff.mpr hs'.inJob) trivial, fun _ => hs'⟩
  cases e with
  | setupJobObject createJobObject setInformation =>
    apply hquiet
    obtain ⟨hnone, hengine⟩ := he
    refine ⟨hs.engine_lt, hs.job_lt, hs.handle_lt, ?_, hs.unassigned, hs.idle, ?_⟩
    · intro h
      rcases Bool.or_eq_true_iff.mp h with hkill | hset
      · exact Or.inr ((hs.limited hkill).resolve_left (by simp [hnone]))
      · exact Or.inl (Bool.and_eq_true_iff.mp hset).1
    · intro _ m _ hm
      change m.birth ∈ s.engine at hm
      rw [hengine] at hm
      cases hm
  | createEngine pid => exact hquiet (kept_createEngine hs he pid)
  | assignEngine assigned => exact assignEngine_iff hs he assigned
  | openJob setInformation => exact openJob_iff hs setInformation
  | closeJob => exact hquiet (kept_closeJob hs)
  | createProcess parentPid pid => exact hquiet (kept_createProcess hs parentPid pid)
  | exitProcess pid =>
    apply hquiet
    refine ⟨hs.engine_lt, hs.job_lt, hs.handle_lt, hs.limited, hs.unassigned, hs.idle, ?_⟩
    intro hstarted m hm
    exact hs.inJob hstarted m (List.mem_filter.mp hm).1

end Job

end Proxy

end TCodeProxy
