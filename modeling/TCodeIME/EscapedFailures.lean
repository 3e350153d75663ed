import TCodeIME.EngineOperations
import TCodeIME.ScriptedServer

/-!
Which engine failures leave the key handler as exceptions.
-/

namespace TCodeIME

variable {E : Type}

namespace CTCodeIME

def containsFailures (srv : Server E) (o : KeyOutcomes) (pic : ContextId) (wParam : ℕ)
    (keys : Modifiers) (s : CTCodeIME E) : Prop :=
  let result := s.onKeyDown srv o pic wParam keys
  (∀ what, result.exit ≠ .threw what) ∧ (o.session = {} → result.exit = .returned) ∧
    ∀ x ∈ s.clientCalls srv (s.keystroke o.compartment wParam keys),
      (x.1.perform srv x.2).1 = none ∧ x.1.cachesReply srv x.2

theorem onKeyDown_threw_iff (srv : Server E) (o : KeyOutcomes) (pic : ContextId) (wParam : ℕ)
    (keys : Modifiers) (s : CTCodeIME E) :
    (∀ what, (s.onKeyDown srv o pic wParam keys).exit ≠ .threw what) ↔
      ((s.keystroke o.compartment wParam keys).throws = true →
        (s.answer srv (s.keystroke o.compartment wParam keys)).isSome) := by
  obtain ⟨log, ⟨hthrows, ha, what, h⟩ | ⟨ha, -, h⟩ | ⟨ha, t, u, -, -, h⟩⟩ :=
    onKeyDown_cases srv o pic wParam keys s
  · refine iff_of_false (fun hne => hne what (by rw [h])) fun himp => ?_
    have := himp hthrows
    rw [ha] at this
    cases this
  · refine iff_of_true (fun what => ?_) ha
    rw [h]
    simp
  · refine iff_of_true (fun what => ?_) ha
    rw [h]
    simp

theorem clientCalls_ne_put_nil {srv : Server E} {s : CTCodeIME E} {k : Keystroke} (hk : k ≠ .put [])
    {x : CEngineClient E × Operation} (hx : x ∈ s.clientCalls srv k) : x.2 ≠ .executePut [] := by
  unfold clientCalls at hx
  cases hop : k.operation s.selectedIndex with
  | none =>
    rw [hop] at hx
    cases hx
  | some op =>
    rw [hop] at hx
    simp only [Option.elim, List.mem_cons] at hx
    rcases hx with rfl | hx
    · exact Keystroke.operation_ne_put_nil hk hop
    · split_ifs at hx
      · rw [List.mem_singleton.mp hx]
        simp
      · cases hx

theorem clientCalls_perform (srv : Server E) {s : CTCodeIME E} {k : Keystroke}
    (h : k.throws = true → (s.answer srv k).isSome) {x : CEngineClient E × Operation}
    (hx : x ∈ s.clientCalls srv k) : (x.1.perform srv x.2).1 = none := by
  unfold clientCalls at hx
  cases hop : k.operation s.selectedIndex with
  | none =>
    rw [hop] at hx
    cases hx
  | some op =>
    rw [hop] at hx
    simp only [Option.elim, List.mem_cons] at hx
    rcases hx with rfl | hx
    · apply (CEngineClient.perform_thrown srv s.client op).mpr
      intro hcatches
      rw [Keystroke.operation_catches hop, Bool.not_eq_false'] at hcatches
      have ha := h hcatches
      rw [answer, ← Keystroke.operation_status, hop, Option.bind_some] at ha
      exact ha
    · split_ifs at hx
      · rw [List.mem_singleton.mp hx]
        rfl
      · cases hx

theorem containsFailures_iff (srv : Server E) (o : KeyOutcomes) (pic : ContextId) (wParam : ℕ)
    (keys : Modifiers) (s : CTCodeIME E) :
    s.containsFailures srv o pic wParam keys ↔
      ((s.keystroke o.compartment wParam keys).throws = true →
        (s.answer srv (s.keystroke o.compartment wParam keys)).isSome) := by
  constructor
  · intro h
    exact (onKeyDown_threw_iff srv o pic wParam keys s).mp h.1
  · intro h
    refine ⟨(onKeyDown_threw_iff srv o pic wParam keys s).mpr h, fun ho => ?_, fun x hx => ⟨?_, ?_⟩⟩
    · exact onKeyDown_returns srv o pic wParam keys s ho h
    · exact clientCalls_perform srv h hx
    · have hk := keystroke_ne_put_nil o.compartment wParam keys s
      exact CEngineClient.cachesReply_of_ne srv x.1 (clientCalls_ne_put_nil hk hx)

theorem backspace_failure_escapes :
    let srv := Server.scripted [.status ⟨[], [], [], "Some(j)".toList, true⟩, .failure]
    let s := Runs.run (step srv) fresh [.activate {}, .ctrlSlash, .key 0x4A]
    (s.onKeyDown srv {} 0 VK_BACK {}).exit = .threw "Network Failure on Command" ∧
      ¬ s.containsFailures srv {} 0 VK_BACK {} := by
  intro srv s
  have h : (s.onKeyDown srv {} 0 VK_BACK {}).exit = .threw "Network Failure on Command" := by
    decide +kernel
  exact ⟨h, fun hc => hc.1 _ h⟩

end CTCodeIME

end TCodeIME
