import TCodeIME.Library.Descent
import Mathlib.Data.UInt

/-!
`KillProcessTree` of the proxy: when it ends, and what it terminates.
-/

namespace TCodeProxy

open Descent Relation

structure ProcessEntry where
  th32ProcessID : UInt32
  th32ParentProcessID : UInt32
deriving DecidableEq

/-- The process table, the processes terminated so far, oldest first, and the number of snapshots
taken of the table. -/
structure Processes where
  table : List ProcessEntry
  terminated : List UInt32 := []
  snapshots : ℕ := 0

/-- The calls that can fail: those on a snapshot by its number, those on a process by its pid. -/
structure ProcessOutcomes where
  createSnapshot : ℕ → Bool := fun _ => true
  processFirst : ℕ → Bool := fun _ => true
  openProcess : UInt32 → Bool := fun _ => true
  terminateProcess : UInt32 → Bool := fun _ => true

namespace Processes

def children (parentPid : UInt32) (table : List ProcessEntry) : List UInt32 :=
  (table.filter (·.th32ParentProcessID = parentPid)).map (·.th32ProcessID)

/-- `OpenProcess` finds nothing under the pid of a process that is gone. -/
def terminate (o : ProcessOutcomes) (pid : UInt32) (w : Processes) : Processes :=
  if pid ∈ w.table.map (·.th32ProcessID) ∧ o.openProcess pid ∧ o.terminateProcess pid then
    { w with
      table := w.table.filter (·.th32ProcessID ≠ pid)
      terminated := w.terminated ++ [pid] }
  else w

/-- The recursion has no bound of its own, so it is given fuel. -/
def killProcessTree (o : ProcessOutcomes) : ℕ → UInt32 → Processes → Option Processes
  | 0, _, _ => none
  | fuel + 1, parentPid, w =>
    let taken := { w with snapshots := w.snapshots + 1 }
    if o.createSnapshot w.snapshots then
      let found := if o.processFirst w.snapshots then children parentPid w.table else []
      (found.foldlM (fun w childPid => killProcessTree o fuel childPid w) taken).map
        (terminate o parentPid)
    else some taken

def killChildren (o : ProcessOutcomes) (fuel : ℕ) (found : List UInt32) (w : Processes) :
    Option Processes :=
  found.foldlM (fun w childPid => killProcessTree o fuel childPid w) w

def Child (table : List ProcessEntry) (parentPid pid : UInt32) : Prop := ⟨pid, parentPid⟩ ∈ table

theorem mem_children {table : List ProcessEntry} {parentPid pid : UInt32} :
    pid ∈ children parentPid table ↔ Child table parentPid pid := by
  simp only [children, Child, List.mem_map, List.mem_filter, decide_eq_true_eq]
  constructor
  · rintro ⟨⟨pid, parent⟩, ⟨hmem, rfl⟩, rfl⟩
    exact hmem
  · intro hmem
    exact ⟨_, ⟨hmem, rfl⟩, rfl⟩

theorem Child.mem_map {table : List ProcessEntry} {parentPid pid : UInt32}
    (h : Child table parentPid pid) : pid ∈ table.map (·.th32ProcessID) :=
  List.mem_map.mpr ⟨_, h, rfl⟩

section

variable {o : ProcessOutcomes} {fuel fuel' : ℕ} {pid : UInt32} {found : List UInt32}
  {w w' : Processes}

theorem killChildren_cons :
    killChildren o fuel (pid :: found) w =
      (killProcessTree o fuel pid w).bind (killChildren o fuel found) := rfl

theorem killProcessTree_cases (h : killProcessTree o (fuel + 1) pid w = some w') :
    (o.createSnapshot w.snapshots = false ∧ w' = { w with snapshots := w.snapshots + 1 }) ∨
      ∃ found w₁, (found = children pid w.table ∨ found = [] ∧ o.processFirst w.snapshots = false) ∧
        killChildren o fuel found { w with snapshots := w.snapshots + 1 } = some w₁ ∧
        w' = w₁.terminate o pid := by
  simp only [killProcessTree] at h
  split_ifs at h with hsnapshot hfirst
  · obtain ⟨w₁, hw₁, rfl⟩ := Option.map_eq_some_iff.mp h
    exact .inr ⟨_, w₁, .inl rfl, hw₁, rfl⟩
  · obtain ⟨w₁, hw₁, rfl⟩ := Option.map_eq_some_iff.mp h
    exact .inr ⟨_, w₁, .inr ⟨rfl, by simpa using hfirst⟩, hw₁, rfl⟩
  · cases h
    exact .inl ⟨by simpa using hsnapshot, rfl⟩

theorem killChildren_of_le (hmono : ∀ pid w w', killProcessTree o fuel pid w = some w' →
      killProcessTree o fuel' pid w = some w') (h : killChildren o fuel found w = some w') :
    killChildren o fuel' found w = some w' := by
  induction found generalizing w with
  | nil => exact h
  | cons pid found ih =>
    rw [killChildren_cons] at h
    obtain ⟨w₁, hw₁, hrest⟩ := Option.bind_eq_some_iff.mp h
    rw [killChildren_cons, hmono pid w w₁ hw₁]
    exact ih hrest

theorem killProcessTree_of_le (h : killProcessTree o fuel pid w = some w') (hle : fuel ≤ fuel') :
    killProcessTree o fuel' pid w = some w' := by
  induction fuel generalizing fuel' pid w w' with
  | zero => cases h
  | succ fuel ih =>
    obtain ⟨fuel', rfl⟩ := Nat.exists_eq_add_of_lt (Nat.lt_of_succ_le hle)
    have hmono : ∀ pid w w', killProcessTree o fuel pid w = some w' →
        killProcessTree o (fuel + fuel') pid w = some w' :=
      fun pid w w' h => ih h (Nat.le_add_right fuel fuel')
    simp only [killProcessTree] at h ⊢
    split_ifs at h ⊢ with hsnapshot hfirst
    · obtain ⟨w₁, hw₁, rfl⟩ := Option.map_eq_some_iff.mp h
      have hmore : killChildren o (fuel + fuel') (children pid w.table) _ = some w₁ :=
        killChildren_of_le hmono hw₁
      exact Option.map_eq_some_iff.mpr ⟨w₁, hmore, rfl⟩
    · exact h
    · exact h

structure Prunes (roots : List UInt32) (table table' : List ProcessEntry) : Prop where
  subset : table' ⊆ table
  kept : ∀ parentPid pid, Child table parentPid pid → Child table' parentPid pid ∨
    ∃ root ∈ roots, ReflTransGen (Child table) root pid

theorem Child.mono {table table' : List ProcessEntry} (hsub : table' ⊆ table) {parentPid pid : UInt32}
    (h : Child table' parentPid pid) : Child table parentPid pid := hsub h

theorem below_mono {table table' : List ProcessEntry} (hsub : table' ⊆ table) {root pid : UInt32}
    (h : ReflTransGen (Child table') root pid) : ReflTransGen (Child table) root pid :=
  ReflTransGen.mono (fun _ _ hxy => hxy.mono hsub) _ _ h

theorem Prunes.refl (roots : List UInt32) (table : List ProcessEntry) : Prunes roots table table :=
  ⟨fun _ h => h, fun _ _ h => .inl h⟩

theorem Prunes.trans {roots roots' : List UInt32} {table table' table'' : List ProcessEntry}
    (h : Prunes roots table table') (h' : Prunes roots' table' table'') :
    Prunes (roots ++ roots') table table'' where
  subset := fun _ he => h.subset (h'.subset he)
  kept := by
    intro parentPid pid hchild
    rcases h.kept parentPid pid hchild with hkept | ⟨root, hroot, hbelow⟩
    · rcases h'.kept parentPid pid hkept with hkept | ⟨root, hroot, hbelow⟩
      · exact .inl hkept
      · exact .inr ⟨root, List.mem_append_right roots hroot, below_mono h.subset hbelow⟩
    · exact .inr ⟨root, List.mem_append_left roots' hroot, hbelow⟩

theorem terminate_prunes (o : ProcessOutcomes) (pid : UInt32) (w : Processes) :
    Prunes [pid] w.table (w.terminate o pid).table := by
  unfold terminate
  split_ifs
  · refine ⟨fun e he => (List.mem_filter.mp he).1, ?_⟩
    intro parentPid child hchild
    by_cases hpid : child = pid
    · exact .inr ⟨pid, List.mem_singleton_self pid, hpid ▸ ReflTransGen.refl⟩
    · exact .inl (List.mem_filter.mpr ⟨hchild, by simpa using hpid⟩)
  · exact Prunes.refl _ _

theorem killChildren_prunes (hkill : ∀ pid w w', killProcessTree o fuel pid w = some w' →
      Prunes [pid] w.table w'.table) (h : killChildren o fuel found w = some w') :
    Prunes found w.table w'.table := by
  induction found generalizing w with
  | nil =>
    cases h
    exact Prunes.refl _ _
  | cons pid found ih =>
    rw [killChildren_cons] at h
    obtain ⟨w₁, hw₁, hrest⟩ := Option.bind_eq_some_iff.mp h
    exact (hkill pid w w₁ hw₁).trans (ih hrest)

theorem killProcessTree_prunes (h : killProcessTree o fuel pid w = some w') :
    Prunes [pid] w.table w'.table := by
  induction fuel generalizing pid w w' with
  | zero => cases h
  | succ fuel ih =>
    rcases killProcessTree_cases h with ⟨-, rfl⟩ | ⟨found, w₁, hfound, hw₁, rfl⟩
    · exact Prunes.refl _ _
    · have hchildren := killChildren_prunes (fun pid w w' => ih) hw₁
      have hboth := hchildren.trans (terminate_prunes o pid w₁)
      refine ⟨hboth.subset, ?_⟩
      intro parentPid child hchild
      rcases hboth.kept parentPid child hchild with hkept | ⟨root, hroot, hbelow⟩
      · exact .inl hkept
      · refine .inr ⟨pid, List.mem_singleton_self pid, ?_⟩
        rcases List.mem_append.mp hroot with hroot | hroot
        · rcases hfound with rfl | ⟨rfl, -⟩
          · exact ReflTransGen.head (mem_children.mp hroot) hbelow
          · cases hroot
        · rw [List.mem_singleton.mp hroot] at hbelow
          exact hbelow

theorem killChildren_ends {table : List ProcessEntry}
    (hkill : ∀ pid ∈ found, ∀ w : Processes, w.table ⊆ table →
      ∃ fuel w', killProcessTree o fuel pid w = some w') (hw : w.table ⊆ table) :
    ∃ fuel w', killChildren o fuel found w = some w' := by
  induction found generalizing w with
  | nil => exact ⟨0, w, rfl⟩
  | cons pid found ih =>
    obtain ⟨fuel₁, w₁, hw₁⟩ := hkill pid (by simp) w hw
    have hsub := (killProcessTree_prunes hw₁).subset
    obtain ⟨fuel₂, w₂, hw₂⟩ := ih (fun pid hpid => hkill pid (by simp [hpid]))
      (fun e he => hw (hsub he))
    refine ⟨max fuel₁ fuel₂, w₂, ?_⟩
    rw [killChildren_cons, killProcessTree_of_le hw₁ (Nat.le_max_left ..)]
    exact killChildren_of_le
      (fun pid w w' h => killProcessTree_of_le h (Nat.le_max_right ..)) hw₂

theorem killProcessTree_of_ends (o : ProcessOutcomes) {table : List ProcessEntry}
    (h : Ends (Child table) pid) (hw : w.table ⊆ table) :
    ∃ fuel w', killProcessTree o fuel pid w = some w' := by
  induction h generalizing w with
  | intro pid _ ih =>
    by_cases hsnapshot : o.createSnapshot w.snapshots = true
    · have hkill : ∀ child ∈ if o.processFirst w.snapshots then children pid w.table else [],
          ∀ w : Processes, w.table ⊆ table → ∃ fuel w', killProcessTree o fuel child w = some w' := by
        intro child hchild w₁ hw₁
        split_ifs at hchild
        · exact ih child ((mem_children.mp hchild).mono hw) hw₁
        · cases hchild
      obtain ⟨fuel, w', hw'⟩ := killChildren_ends
        (w := { w with snapshots := w.snapshots + 1 }) hkill hw
      refine ⟨fuel + 1, w'.terminate o pid, ?_⟩
      simp only [killProcessTree]
      rw [if_pos hsnapshot]
      exact Option.map_eq_some_iff.mpr ⟨w', hw', rfl⟩
    · refine ⟨1, { w with snapshots := w.snapshots + 1 }, ?_⟩
      simp only [killProcessTree]
      rw [if_neg hsnapshot]

theorem ends_of_killChildren
    (hkill : ∀ pid w w', killProcessTree o fuel pid w = some w' → Ends (Child w.table) pid)
    (h : killChildren o fuel found w = some w') : ∀ pid ∈ found, Ends (Child w.table) pid := by
  induction found generalizing w with
  | nil => simp
  | cons pid found ih =>
    rw [killChildren_cons] at h
    obtain ⟨w₁, hw₁, hrest⟩ := Option.bind_eq_some_iff.mp h
    have hhead := hkill pid w w₁ hw₁
    have hprunes := killProcessTree_prunes hw₁
    intro child hchild
    rcases List.mem_cons.mp hchild with rfl | hchild
    · exact hhead
    · apply hhead.of_cut _ (ih hrest child hchild)
      intro x y hxy
      rcases hprunes.kept x y hxy with hkept | ⟨root, hroot, hbelow⟩
      · exact .inl hkept
      · rw [List.mem_singleton.mp hroot] at hbelow
        exact .inr hbelow

theorem ends_of_killProcessTree (hsnapshot : ∀ n, o.createSnapshot n = true)
    (hfirst : ∀ n, o.processFirst n = true) (h : killProcessTree o fuel pid w = some w') :
    Ends (Child w.table) pid := by
  induction fuel generalizing pid w w' with
  | zero => cases h
  | succ fuel ih =>
    rcases killProcessTree_cases h with ⟨hfailed, -⟩ | ⟨found, w₁, hfound, hw₁, -⟩
    · rw [hsnapshot] at hfailed
      cases hfailed
    · have hchildren := ends_of_killChildren (fun pid w w' => ih) hw₁
      rcases hfound with rfl | ⟨-, hfailed⟩
      · exact ⟨pid, fun child hchild => hchildren child (mem_children.mpr hchild)⟩
      · rw [hfirst] at hfailed
        cases hfailed

end

theorem finite_pids (table : List ProcessEntry) : {pid | pid ∈ table.map (·.th32ProcessID)}.Finite :=
  List.finite_toSet _

theorem ends_child_iff {table : List ProcessEntry} {root : UInt32} :
    Ends (Child table) root ↔ Acyclic (Child table) root := by
  constructor
  · intro h
    exact h.acyclic
  · intro h
    exact ends_of_acyclic (finite_pids table) (fun _ _ hxy => hxy.mem_map) h

theorem killProcessTree_ends_iff (table : List ProcessEntry) (root : UInt32)
    (openProcess terminateProcess : UInt32 → Bool) :
    (∀ createSnapshot processFirst, ∃ fuel w, killProcessTree
      ⟨createSnapshot, processFirst, openProcess, terminateProcess⟩ fuel root { table := table } = some w) ↔
    Acyclic (Child table) root := by
  rw [← ends_child_iff]
  constructor
  · intro h
    obtain ⟨fuel, w, hw⟩ := h (fun _ => true) (fun _ => true)
    exact ends_of_killProcessTree (fun _ => rfl) (fun _ => rfl) hw
  · intro h createSnapshot processFirst
    exact killProcessTree_of_ends _ h (fun _ he => he)

/-- The pid 8 was given to a child of process 12 after the parent of process 12 had exited. -/
theorem killProcessTree_reused_pid :
    (12 : UInt32) ≠ 0 ∧
      ¬ ∃ fuel w, killProcessTree {} fuel 12 { table := [⟨8, 12⟩, ⟨12, 8⟩] } = some w := by
  refine ⟨by decide, ?_⟩
  rintro ⟨fuel, w, hw⟩
  have hends := ends_of_killProcessTree (fun _ => rfl) (fun _ => rfl) hw
  have hdown : Child [⟨8, 12⟩, ⟨12, 8⟩] 12 8 := by simp [Child]
  have hup : Child [⟨8, 12⟩, ⟨12, 8⟩] 8 12 := by simp [Child]
  exact hends.irrefl (TransGen.head hdown (TransGen.single hup))

end Processes

end TCodeProxy
