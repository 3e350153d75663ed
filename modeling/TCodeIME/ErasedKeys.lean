import TCodeIME.Events

/-!
The key presses that are not meant for the IME, and the runs without them.
-/

namespace TCodeIME

inductive KeyEvent where
  | testKeyDown (o : CompartmentOutcomes) (wParam : ℕ) (keys : Modifiers)
  | event (e : Event)

variable {E : Type}

namespace CTCodeIME

/-- `OnTestKeyDown` only reports. -/
def stepTesting (srv : Server E) (s : CTCodeIME E) : KeyEvent → CTCodeIME E
  | .testKeyDown _ _ _ => s
  | .event e => s.step srv e

def notMeant (s : CTCodeIME E) : KeyEvent → Bool
  | .event (.keyDown o _ wParam keys) =>
    !keys.isCtrlSlash wParam && (s.getInputMode o.compartment == .direct || keys.held)
  | _ => false

def reportsNotEaten (srv : Server E) (s : CTCodeIME E) : KeyEvent → Prop
  | .event (.keyDown o pic wParam keys) =>
    (s.onKeyDown srv o pic wParam keys).pfEaten = false ∧
      (s.onKeyDown srv o pic wParam keys).exit = .returned
  | _ => True

theorem keystroke_of_notMeant {s : CTCodeIME E} {o : KeyOutcomes} {pic : ContextId} {wParam : ℕ}
    {keys : Modifiers} (h : s.notMeant (.event (.keyDown o pic wParam keys)) = true) :
    s.keystroke o.compartment wParam keys = .passed := by
  simp only [notMeant, Bool.and_eq_true, Bool.not_eq_true', Bool.or_eq_true, beq_iff_eq] at h
  obtain ⟨hslash, hmode⟩ := h
  unfold keystroke
  dsimp only
  rw [if_neg (by simp [hslash])]
  rcases hmode with hdirect | hheld
  · rw [if_pos hdirect]
  · split_ifs
    · rfl
    · rfl

theorem onKeyDown_of_notMeant (srv : Server E) {s : CTCodeIME E} {o : KeyOutcomes} {pic : ContextId}
    {wParam : ℕ} {keys : Modifiers} (h : s.notMeant (.event (.keyDown o pic wParam keys)) = true) :
    s.onKeyDown srv o pic wParam keys = ⟨s, false, .returned⟩ :=
  onKeyDown_of_passed srv pic (keystroke_of_notMeant h)

theorem stepTesting_of_notMeant (srv : Server E) (s : CTCodeIME E) (e : KeyEvent)
    (h : s.notMeant e = true) : s.stepTesting srv e = s := by
  match e with
  | .event (.keyDown o pic wParam keys) => rw [stepTesting, step, onKeyDown_of_notMeant srv h]

theorem notMeant_leave_no_trace (srv : Server E) (s : CTCodeIME E) (es : List KeyEvent) :
    Runs.run (stepTesting srv) s (Runs.erase (stepTesting srv) notMeant s es) =
        Runs.run (stepTesting srv) s es ∧
      Runs.Along (stepTesting srv) (fun s e => s.notMeant e = true → s.reportsNotEaten srv e) s es := by
  constructor
  · exact Runs.run_erase (stepTesting_of_notMeant srv) s es
  · apply Runs.along_of_forall
    intro s e _ h
    match e with
    | .event (.keyDown o pic wParam keys) =>
      rw [reportsNotEaten, onKeyDown_of_notMeant srv h]
      exact ⟨rfl, rfl⟩

end CTCodeIME

end TCodeIME
