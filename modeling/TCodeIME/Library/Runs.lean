import Mathlib.Data.List.Basic

namespace Runs

variable {σ ε : Type}

def run (step : σ → ε → σ) (s : σ) (es : List ε) : σ := es.foldl step s

/-- Every event of the run meets `ok` in the state it finds. -/
def Along (step : σ → ε → σ) (ok : σ → ε → Prop) : σ → List ε → Prop
  | _, [] => True
  | s, e :: es => ok s e ∧ Along step ok (step s e) es

/-- `P` holds in the first state of the run and in every state it reaches. -/
def Throughout (step : σ → ε → σ) (P : σ → Prop) : σ → List ε → Prop
  | s, [] => P s
  | s, e :: es => P s ∧ Throughout step P (step s e) es

variable {step : σ → ε → σ}

instance decidableAlong {ok : σ → ε → Prop} [∀ s e, Decidable (ok s e)] :
    ∀ (s : σ) (es : List ε), Decidable (Along step ok s es)
  | _, [] => isTrue trivial
  | s, e :: es =>
    have : Decidable (Along step ok (step s e) es) := decidableAlong (step s e) es
    inferInstanceAs (Decidable (ok s e ∧ Along step ok (step s e) es))

instance decidableThroughout {P : σ → Prop} [DecidablePred P] :
    ∀ (s : σ) (es : List ε), Decidable (Throughout step P s es)
  | s, [] => inferInstanceAs (Decidable (P s))
  | s, e :: es =>
    have : Decidable (Throughout step P (step s e) es) := decidableThroughout (step s e) es
    inferInstanceAs (Decidable (P s ∧ Throughout step P (step s e) es))

def erase (step : σ → ε → σ) (drop : σ → ε → Bool) : σ → List ε → List ε
  | _, [] => []
  | s, e :: es =>
    if drop s e then erase step drop (step s e) es else e :: erase step drop (step s e) es

theorem run_erase {drop : σ → ε → Bool} (h : ∀ s e, drop s e = true → step s e = s) (s : σ)
    (es : List ε) : run step s (erase step drop s es) = run step s es := by
  induction es generalizing s with
  | nil => rfl
  | cons e es ih =>
    have hrun : run step s (e :: es) = run step (step s e) es := rfl
    unfold erase
    split_ifs with hd
    · rw [hrun, h s e hd]
      exact ih s
    · exact ih (step s e)

theorem run_view {σ' ε' : Type} {step' : σ' → ε' → σ'} {view : σ → σ'} {part : ε → Option ε'}
    (h : ∀ s e, view (step s e) = (part e).elim (view s) (step' (view s))) (s : σ) (es : List ε) :
    view (run step s es) = run step' (view s) (es.filterMap part) := by
  induction es generalizing s with
  | nil => rfl
  | cons e es ih =>
    have hrun : run step s (e :: es) = run step (step s e) es := rfl
    rw [hrun, ih, h]
    cases hpart : part e with
    | none => rw [List.filterMap_cons_none hpart, Option.elim_none]
    | some e' =>
      rw [List.filterMap_cons_some hpart, Option.elim_some]
      rfl

theorem along_of_forall {ok : σ → ε → Prop} {es : List ε} (h : ∀ s, ∀ e ∈ es, ok s e) (s : σ) :
    Along step ok s es := by
  induction es generalizing s with
  | nil => trivial
  | cons e es ih => exact ⟨h s e (by simp), ih (fun s f hf => h s f (List.mem_cons_of_mem _ hf)) _⟩

theorem run_of_step {I : σ → Prop} {ok : σ → ε → Prop}
    (hstep : ∀ s e, I s → ok s e → I (step s e)) {s : σ} {es : List ε}
    (hs : I s) (ha : Along step ok s es) : I (run step s es) := by
  induction es generalizing s with
  | nil => exact hs
  | cons e es ih => exact ih (hstep s e hs ha.1) ha.2

/-- The exact form of the invariant rule. Where `ok` says of a step from an invariant state just
when it leads to a state in `P`, a run stays in `P` if and only if all its steps meet `ok`. -/
theorem throughout_iff_along {I P : σ → Prop} {ok allowed : σ → ε → Prop}
    (hP : ∀ s, I s → P s)
    (hstep : ∀ s e, I s → allowed s e → (P (step s e) ↔ ok s e))
    (hkeep : ∀ s e, I s → allowed s e → ok s e → I (step s e))
    {s : σ} {es : List ε} (hs : I s) (hall : Along step allowed s es) :
    Throughout step P s es ↔ Along step ok s es := by
  induction es generalizing s with
  | nil => exact iff_of_true (hP s hs) trivial
  | cons e es ih =>
    simp only [Throughout, Along]
    constructor
    · rintro ⟨-, ht⟩
      have hPe : P (step s e) := by
        cases es with
        | nil => exact ht
        | cons f fs => exact ht.1
      have hok := (hstep s e hs hall.1).mp hPe
      exact ⟨hok, (ih (hkeep s e hs hall.1 hok) hall.2).mp ht⟩
    · rintro ⟨hok, ha⟩
      exact ⟨hP s hs, (ih (hkeep s e hs hall.1 hok) hall.2).mpr ha⟩

theorem head_of_throughout {P : σ → Prop} {s : σ} {es : List ε} (ht : Throughout step P s es) : P s := by
  cases es with
  | nil => exact ht
  | cons e es => exact ht.1

theorem throughout_step_iff_along {I P : σ → Prop} {ok allowed : σ → ε → Prop}
    (hP : ∀ s, I s → P s)
    (hstep : ∀ s e, I s → allowed s e → (P (step s e) ↔ ok s e))
    (hkeep : ∀ s e, I s → allowed s e → ok s e → I (step s e))
    {s : σ} {e : ε} {es : List ε} (he : P (step s e) ↔ ok s e) (hI : P (step s e) → I (step s e))
    (hall : Along step allowed (step s e) es) :
    Throughout step P (step s e) es ↔ Along step ok s (e :: es) := by
  constructor
  · intro ht
    have hPe := head_of_throughout ht
    exact ⟨he.mp hPe, (throughout_iff_along hP hstep hkeep (hI hPe) hall).mp ht⟩
  · rintro ⟨hok, ha⟩
    exact (throughout_iff_along hP hstep hkeep (hI (he.mpr hok)) hall).mpr ha

theorem along_iff_along {I : σ → Prop} {allowed ok ok' : σ → ε → Prop}
    (h : ∀ s e, I s → allowed s e → (ok s e ↔ ok' s e))
    (hkeep : ∀ s e, I s → allowed s e → ok s e → I (step s e))
    {s : σ} {es : List ε} (hs : I s) (hall : Along step allowed s es) :
    Along step ok s es ↔ Along step ok' s es := by
  induction es generalizing s with
  | nil => exact Iff.rfl
  | cons e es ih =>
    have he := h s e hs hall.1
    constructor
    · intro ha
      exact ⟨he.mp ha.1, (ih (hkeep s e hs hall.1 ha.1) hall.2).mp ha.2⟩
    · intro ha
      have hok := he.mpr ha.1
      exact ⟨hok, (ih (hkeep s e hs hall.1 hok) hall.2).mpr ha.2⟩

theorem along_congr {ok ok' : σ → ε → Prop} (h : ∀ s e, ok s e ↔ ok' s e) (s : σ) (es : List ε) :
    Along step ok s es ↔ Along step ok' s es := by
  have hall : Along step (fun _ _ => True) s es := along_of_forall (fun _ _ _ => trivial) s
  exact along_iff_along (fun s e (_ : True) _ => h s e) (fun _ _ _ _ _ => trivial) trivial hall

theorem along_of_throughout {P : σ → Prop} {ok : σ → ε → Prop} (h : ∀ s e, P s → ok s e)
    {s : σ} {es : List ε} (ht : Throughout step P s es) : Along step ok s es := by
  induction es generalizing s with
  | nil => trivial
  | cons e es ih => exact ⟨h s e ht.1, ih ht.2⟩

theorem run_of_throughout {P : σ → Prop} {s : σ} {es : List ε} (ht : Throughout step P s es) :
    P (run step s es) := by
  induction es generalizing s with
  | nil => exact ht
  | cons e es ih => exact ih ht.2

end Runs
