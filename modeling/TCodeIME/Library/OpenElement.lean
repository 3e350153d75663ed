import Mathlib.Data.List.Basic
import Mathlib.Data.List.Count

/-!
The protocol of a manager that lets its client have one element open at a time.
-/

namespace OpenElement

variable {ι : Type} [DecidableEq ι]

/-- A `begins` that fails opens nothing. -/
inductive Call (ι : Type) where
  | begins (id : Option ι)
  | updates (id : ι)
  | ends (id : ι)
deriving DecidableEq

/-- The element open after a call, or nothing at all for a call that is out of turn. -/
def follow : Option ι → Call ι → Option (Option ι)
  | none, .begins id => some id
  | some i, .updates id => if id = i then some (some i) else none
  | some i, .ends id => if id = i then some none else none
  | _, _ => none

def follows (current : Option ι) (calls : List (Call ι)) : Option (Option ι) :=
  calls.foldlM follow current

theorem follows_append (current : Option ι) (calls calls' : List (Call ι)) :
    follows current (calls ++ calls') = (follows current calls).bind fun c => follows c calls' :=
  List.foldlM_append

def held (current : Option ι) (id : ι) : ℕ := if current = some id then 1 else 0

theorem held_follow {current next : Option ι} {call : Call ι} (h : follow current call = some next)
    (id : ι) :
    held current id + [call].count (.begins (some id)) = [call].count (.ends id) + held next id := by
  cases call with
  | begins r =>
    cases current <;> cases h
    simp [held, List.count_singleton]
  | updates j =>
    cases current with
    | none => cases h
    | some i =>
      simp only [follow] at h
      split_ifs at h
      cases h
      simp
  | ends j =>
    cases current with
    | none => cases h
    | some i =>
      simp only [follow] at h
      split_ifs at h with hij
      cases h
      simp [held, List.count_singleton, hij]

theorem held_follows {calls : List (Call ι)} {current last : Option ι}
    (h : follows current calls = some last) (id : ι) :
    held current id + calls.count (.begins (some id)) = calls.count (.ends id) + held last id := by
  induction calls generalizing current with
  | nil =>
    cases h
    simp
  | cons call calls ih =>
    obtain ⟨next, hnext, hrest⟩ := Option.bind_eq_some_iff.mp h
    have hstep := held_follow hnext id
    have htail := ih hrest
    rw [← List.singleton_append, List.count_append, List.count_append]
    omega

end OpenElement
