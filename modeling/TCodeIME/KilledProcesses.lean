import TCodeIME.KillProcessTree

/-!
The processes `KillProcessTree` terminates, where every call on a process that exists succeeds.
-/

namespace TCodeProxy

open Descent Relation

namespace Processes

def Distinct (table : List ProcessEntry) : Prop := (table.map (·.th32ProcessID)).Nodup

def less (killed : List UInt32) (table : List ProcessEntry) : List ProcessEntry :=
  table.filter (·.th32ProcessID ∉ killed)

theorem less_subset (killed : List UInt32) (table : List ProcessEntry) : less killed table ⊆ table :=
  fun _ he => (List.mem_filter.mp he).1

theorem child_less {killed : List UInt32} {table : List ProcessEntry} {parentPid pid : UInt32} :
    Child (less killed table) parentPid pid ↔ Child table parentPid pid ∧ pid ∉ killed := by
  simp [Child, less, List.mem_filter]

theorem mem_map_less {killed : List UInt32} {table : List ProcessEntry} {pid : UInt32} :
    pid ∈ (less killed table).map (·.th32ProcessID) ↔
      pid ∈ table.map (·.th32ProcessID) ∧ pid ∉ killed := by
  simp only [less, List.mem_map, List.mem_filter, decide_eq_true_eq]
  constructor
  · rintro ⟨e, ⟨he, hkilled⟩, rfl⟩
    exact ⟨⟨e, he, rfl⟩, hkilled⟩
  · rintro ⟨⟨e, he, rfl⟩, hkilled⟩
    exact ⟨e, ⟨he, hkilled⟩, rfl⟩

theorem less_less (killed killed' : List UInt32) (table : List ProcessEntry) :
    less killed' (less killed table) = less (killed ++ killed') table := by
  simp only [less, List.filter_filter]
  apply List.filter_congr
  intro e _
  simp [Bool.and_comm]

theorem Distinct.less {table : List ProcessEntry} (h : Distinct table) (killed : List UInt32) :
    Distinct (less killed table) := List.Nodup.sublist (List.filter_sublist.map _) h

theorem Distinct.unique_parent {table : List ProcessEntry} (h : Distinct table)
    (x y z : UInt32) (hx : Child table x z) (hy : Child table y z) : x = y := by
  have heq := List.inj_on_of_nodup_map h hx hy rfl
  cases heq
  rfl

theorem Distinct.nodup_children {table : List ProcessEntry} (h : Distinct table) (parentPid : UInt32) :
    (children parentPid table).Nodup := List.Nodup.sublist (List.filter_sublist.map _) h

structure Kills (roots : List UInt32) (w w' : Processes) (killed : List UInt32) : Prop where
  log : w'.terminated = w.terminated ++ killed
  table : w'.table = less killed w.table
  mem_iff : ∀ pid, pid ∈ killed ↔ pid ∈ w.table.map (·.th32ProcessID) ∧
    ∃ root ∈ roots, ReflTransGen (Child w.table) root pid
  nodup : killed.Nodup
  order : killed.Pairwise fun first later => ¬ TransGen (Child w.table) first later

section

variable {roots roots' found killed killed' : List UInt32} {w w' w'' : Processes} {pid : UInt32}

def Apart (table : List ProcessEntry) (root root' : UInt32) : Prop :=
  ∀ pid, ReflTransGen (Child table) root pid → ¬ ReflTransGen (Child table) root' pid

theorem Apart.mono {table table' : List ProcessEntry} (hsub : table' ⊆ table) {root root' : UInt32}
    (h : Apart table root root') : Apart table' root root' :=
  fun pid hpid hpid' => h pid (below_mono hsub hpid) (below_mono hsub hpid')

theorem Kills.nil (w : Processes) : Kills [] w w [] where
  log := (List.append_nil _).symm
  table := by simp [less]
  mem_iff := by simp
  nodup := List.nodup_nil
  order := List.Pairwise.nil

theorem Kills.kept (h : Kills roots w w' killed)
    (hapart : ∀ root ∈ roots, ∀ root' ∈ roots', Apart w.table root root') {root' : UInt32}
    (hroot' : root' ∈ roots') :
    ∀ x y, ReflTransGen (Child w.table) root' x → Child w.table x y → Child w'.table x y := by
  intro x y hx hxy
  rw [h.table, child_less]
  refine ⟨hxy, fun hy => ?_⟩
  obtain ⟨-, root, hroot, hbelow⟩ := (h.mem_iff y).mp hy
  exact hapart root hroot root' hroot' y hbelow (hx.tail hxy)

theorem Kills.append (h : Kills roots w w' killed) (h' : Kills roots' w' w'' killed')
    (hapart : ∀ root ∈ roots, ∀ root' ∈ roots', Apart w.table root root') :
    Kills (roots ++ roots') w w'' (killed ++ killed') := by
  have hsub : w'.table ⊆ w.table := by
    rw [h.table]
    exact less_subset _ _
  have hnot : ∀ pid ∈ killed', pid ∉ killed := by
    intro pid hpid
    have hpresent := ((h'.mem_iff pid).mp hpid).1
    rw [h.table, mem_map_less] at hpresent
    exact hpresent.2
  refine ⟨?_, ?_, ?_, ?_, ?_⟩
  · rw [h'.log, h.log, List.append_assoc]
  · rw [h'.table, h.table, less_less]
  · intro pid
    rw [List.mem_append]
    constructor
    · rintro (hpid | hpid)
      · obtain ⟨hpresent, root, hroot, hbelow⟩ := (h.mem_iff pid).mp hpid
        exact ⟨hpresent, root, List.mem_append_left roots' hroot, hbelow⟩
      · obtain ⟨hpresent, root, hroot, hbelow⟩ := (h'.mem_iff pid).mp hpid
        rw [h.table, mem_map_less] at hpresent
        exact ⟨hpresent.1, root, List.mem_append_right roots hroot, below_mono hsub hbelow⟩
    · rintro ⟨hpresent, root, hroot, hbelow⟩
      rcases List.mem_append.mp hroot with hroot | hroot
      · exact .inl ((h.mem_iff pid).mpr ⟨hpresent, root, hroot, hbelow⟩)
      · by_cases hkilled : pid ∈ killed
        · exact .inl hkilled
        · refine .inr ((h'.mem_iff pid).mpr ⟨?_, root, hroot, ?_⟩)
          · rw [h.table, mem_map_less]
            exact ⟨hpresent, hkilled⟩
          · exact reflTransGen_of_kept (h.kept hapart hroot) hbelow
  · rw [List.nodup_append']
    exact ⟨h.nodup, h'.nodup, fun pid hpid hpid' => hnot pid hpid' hpid⟩
  · rw [List.pairwise_append]
    refine ⟨h.order, ?_, ?_⟩
    · apply h'.order.imp_of_mem
      intro first later hfirst _ hnone habove
      obtain ⟨-, root, hroot, hbelow⟩ := (h'.mem_iff first).mp hfirst
      exact hnone (transGen_of_kept (h.kept hapart hroot) (below_mono hsub hbelow) habove)
    · intro first hfirst later hlater habove
      obtain ⟨-, root, hroot, hbelow⟩ := (h.mem_iff first).mp hfirst
      obtain ⟨u, -, hu⟩ := TransGen.tail'_iff.mp habove
      exact hnot later hlater ((h.mem_iff later).mpr
        ⟨hu.mem_map, root, hroot, hbelow.trans habove.to_reflTransGen⟩)

theorem killChildren_kills {table : List ProcessEntry}
    (hkill : ∀ pid ∈ found, ∀ w : Processes, w.table ⊆ table → Distinct w.table →
      ∃ fuel w' killed, killProcessTree {} fuel pid w = some w' ∧ Kills [pid] w w' killed)
    (hw : w.table ⊆ table) (hdistinct : Distinct w.table) (hapart : found.Pairwise (Apart w.table)) :
    ∃ fuel w' killed, killChildren {} fuel found w = some w' ∧ Kills found w w' killed := by
  induction found generalizing w with
  | nil => exact ⟨0, w, [], rfl, Kills.nil w⟩
  | cons pid found ih =>
    obtain ⟨fuel₁, w₁, killed₁, hw₁, hkills₁⟩ := hkill pid (by simp) w hw hdistinct
    have hsub : w₁.table ⊆ w.table := (killProcessTree_prunes hw₁).subset
    obtain ⟨hhead, htail⟩ := List.pairwise_cons.mp hapart
    obtain ⟨fuel₂, w₂, killed₂, hw₂, hkills₂⟩ := ih
      (fun pid hpid => hkill pid (by simp [hpid])) (fun e he => hw (hsub he))
      (by rw [hkills₁.table]; exact hdistinct.less killed₁)
      (htail.imp fun h => h.mono hsub)
    refine ⟨max fuel₁ fuel₂, w₂, killed₁ ++ killed₂, ?_, hkills₁.append hkills₂ ?_⟩
    · rw [killChildren_cons, killProcessTree_of_le hw₁ (Nat.le_max_left ..)]
      exact killChildren_of_le
        (fun pid w w' h => killProcessTree_of_le h (Nat.le_max_right ..)) hw₂
    · intro root hroot root' hroot'
      rw [List.mem_singleton.mp hroot]
      exact hhead root' hroot'

theorem Kills.terminate (h : Kills (children pid w.table) w w' killed) (hends : Ends (Child w.table) pid) :
    ∃ killed', Kills [pid] w (w'.terminate {} pid) killed' := by
  have hbelow {x : UInt32} : x ∈ killed ↔ TransGen (Child w.table) pid x := by
    rw [h.mem_iff]
    constructor
    · rintro ⟨-, child, hchild, hx⟩
      exact TransGen.head' (mem_children.mp hchild) hx
    · intro hx
      obtain ⟨child, hchild, hchildx⟩ := TransGen.head'_iff.mp hx
      obtain ⟨y, -, hy⟩ := TransGen.tail'_iff.mp hx
      exact ⟨hy.mem_map, child, mem_children.mpr hchild, hchildx⟩
  have hself : pid ∉ killed := fun hpid => hends.irrefl (hbelow.mp hpid)
  have hpresent : pid ∈ w'.table.map (·.th32ProcessID) ↔ pid ∈ w.table.map (·.th32ProcessID) := by
    rw [h.table, mem_map_less]
    exact and_iff_left hself
  have hmem {x : UInt32} : (x ∈ w.table.map (·.th32ProcessID) ∧
      ∃ root ∈ [pid], ReflTransGen (Child w.table) root x) ↔
      x ∈ killed ∨ (x = pid ∧ pid ∈ w.table.map (·.th32ProcessID)) := by
    simp only [List.mem_singleton, exists_eq_left, hbelow]
    constructor
    · rintro ⟨hx, hreach⟩
      rcases reflTransGen_iff_eq_or_transGen.mp hreach with rfl | hbelow
      · exact .inr ⟨rfl, hx⟩
      · exact .inl hbelow
    · rintro (hx | ⟨rfl, hx⟩)
      · obtain ⟨y, -, hy⟩ := TransGen.tail'_iff.mp hx
        exact ⟨hy.mem_map, hx.to_reflTransGen⟩
      · exact ⟨hx, ReflTransGen.refl⟩
  by_cases hroot : pid ∈ w.table.map (·.th32ProcessID)
  · have hterminate : w'.terminate {} pid =
        { w' with
          table := w'.table.filter (·.th32ProcessID ≠ pid)
          terminated := w'.terminated ++ [pid] } := if_pos ⟨hpresent.mpr hroot, rfl, rfl⟩
    refine ⟨killed ++ [pid], ?_⟩
    rw [hterminate]
    refine ⟨?_, ?_, ?_, ?_, ?_⟩
    · rw [h.log, List.append_assoc]
    · rw [← less_less, ← h.table]
      simp [less]
    · intro x
      rw [hmem, List.mem_append, List.mem_singleton]
      exact or_congr_right (iff_self_and.mpr fun _ => hroot)
    · rw [List.nodup_append']
      exact ⟨h.nodup, List.nodup_singleton pid, fun x hx hx' => hself (List.mem_singleton.mp hx' ▸ hx)⟩
    · rw [List.pairwise_append]
      refine ⟨h.order, List.pairwise_singleton _ _, ?_⟩
      intro first hfirst later hlater habove
      rw [List.mem_singleton.mp hlater] at habove
      exact hends.irrefl ((hbelow.mp hfirst).trans habove)
  · have hterminate : w'.terminate {} pid = w' := if_neg fun hp => hroot (hpresent.mp hp.1)
    refine ⟨killed, ?_⟩
    rw [hterminate]
    refine ⟨h.log, h.table, ?_, h.nodup, h.order⟩
    intro x
    rw [hmem]
    exact (or_iff_left fun hx => hroot hx.2).symm

theorem killProcessTree_kills {table : List ProcessEntry} (h : Ends (Child table) pid)
    (hw : w.table ⊆ table) (hdistinct : Distinct w.table) :
    ∃ fuel w' killed, killProcessTree {} fuel pid w = some w' ∧ Kills [pid] w w' killed := by
  induction h generalizing w with
  | intro pid hchildren ih =>
    have hends : Ends (Child w.table) pid :=
      Ends.mono (fun x y hxy => hxy.mono hw) ⟨pid, hchildren⟩
    have hapart : (children pid w.table).Pairwise (Apart w.table) := by
      apply (hdistinct.nodup_children pid).pairwise_of_forall_ne
      intro b hb c hc hne x hx
      exact hends.siblings_disjoint hdistinct.unique_parent (mem_children.mp hb) (mem_children.mp hc)
        hne hx
    obtain ⟨fuel, w₁, killed, hw₁, hkills⟩ := killChildren_kills
      (w := { w with snapshots := w.snapshots + 1 })
      (fun child hchild w₁ => ih child ((mem_children.mp hchild).mono hw)) hw hdistinct hapart
    have hsame : Kills (children pid w.table) w w₁ killed :=
      ⟨hkills.log, hkills.table, hkills.mem_iff, hkills.nodup, hkills.order⟩
    obtain ⟨killed', hkilled'⟩ := hsame.terminate hends
    refine ⟨fuel + 1, w₁.terminate {} pid, killed', ?_, hkilled'⟩
    simp only [killProcessTree]
    exact Option.map_eq_some_iff.mpr ⟨w₁, hw₁, rfl⟩

end

theorem killProcessTree_exact (table : List ProcessEntry) (root : UInt32) (hdistinct : Distinct table)
    (hacyclic : Acyclic (Child table) root) :
    ∃ needed w, (∀ fuel, needed ≤ fuel → killProcessTree {} fuel root { table := table } = some w) ∧
      w.terminated.Nodup ∧
      (∀ pid, pid ∈ w.terminated ↔
        pid ∈ table.map (·.th32ProcessID) ∧ ReflTransGen (Child table) root pid) ∧
      w.terminated.Pairwise (fun first later => ¬ TransGen (Child table) first later) ∧
      w.table = table.filter (·.th32ProcessID ∉ w.terminated) := by
  obtain ⟨fuel, w, killed, hw, hkills⟩ := killProcessTree_kills
    (w := { table := table }) (ends_child_iff.mpr hacyclic) (fun _ he => he) hdistinct
  have hlog : w.terminated = killed := hkills.log
  refine ⟨fuel, w, fun fuel' hle => killProcessTree_of_le hw hle, ?_, ?_, ?_, ?_⟩
  · rw [hlog]
    exact hkills.nodup
  · intro pid
    rw [hlog, hkills.mem_iff]
    simp
  · rw [hlog]
    exact hkills.order
  · rw [hlog, hkills.table]
    rfl

theorem killProcessTree_exact_orphans :
    let table : List ProcessEntry := [⟨9, 7⟩, ⟨2, 1⟩, ⟨7, 4⟩]
    ∃ w, killProcessTree {} 4 4 { table := table } = some w ∧ w.terminated = [9, 7] ∧
      ∀ pid, pid ∈ w.terminated ↔
        pid ∈ table.map (·.th32ProcessID) ∧ ReflTransGen (Child table) 4 pid := by
  intro table
  have hdown : ∀ x y, Child table x y → x < y := by
    intro x y hxy
    simp only [table, Child, List.mem_cons, ProcessEntry.mk.injEq, List.not_mem_nil, or_false] at hxy
    rcases hxy with ⟨rfl, rfl⟩ | ⟨rfl, rfl⟩ | ⟨rfl, rfl⟩ <;> decide
  have hacyclic : Acyclic (Child table) 4 := by
    intro x _ hcycle
    have hlt : ∀ y, TransGen (Child table) x y → x < y := by
      intro y hy
      induction hy with
      | single hxy => exact hdown x _ hxy
      | tail _ hxy ih => exact UInt32.lt_trans ih (hdown _ _ hxy)
    exact UInt32.lt_irrefl x (hlt x hcycle)
  obtain ⟨needed, w, hw, -, hmem, -⟩ := killProcessTree_exact table 4 (by unfold Distinct; decide) hacyclic
  have hrun : killProcessTree {} 4 4 { table := table } = some ⟨[⟨2, 1⟩], [9, 7], 3⟩ := rfl
  have hsame := (hw _ (Nat.le_max_left needed 4)).symm.trans
    (killProcessTree_of_le hrun (Nat.le_max_right needed 4))
  rw [Option.some.inj hsame] at hmem
  exact ⟨_, hrun, rfl, hmem⟩

end Processes

end TCodeProxy
