import Mathlib.Data.List.Range
import Mathlib.Tactic.Common

/-!
Tables of page starts, which cut the positions below a count into pages.
-/

namespace PageTable

def pages (count : ℕ) : List ℕ → List (List ℕ)
  | [] => []
  | start :: rest => List.range' start (rest.head?.getD count - start) :: pages count rest

def Shows (count : ℕ) (starts : List ℕ) (p i : ℕ) : Prop :=
  ∃ start, starts[p]? = some start ∧ start ≤ i ∧ i < starts[p + 1]?.getD count

instance (count : ℕ) (starts : List ℕ) (p i : ℕ) : Decidable (Shows count starts p i) :=
  decidable_of_iff (starts[p]?.any fun start => start ≤ i ∧ i < starts[p + 1]?.getD count) (by
    cases h : starts[p]? <;> simp [Shows, h])

structure Cuts (count : ℕ) (starts : List ℕ) : Prop where
  first : starts.head? = some 0
  ascending : starts.Pairwise (· < ·)
  below : ∀ start ∈ starts, start < count

theorem pages_getElem? (count : ℕ) (starts : List ℕ) (p : ℕ) :
    (pages count starts)[p]? =
      starts[p]?.map fun start => List.range' start (starts[p + 1]?.getD count - start) := by
  induction starts generalizing p with
  | nil => rfl
  | cons start rest ih =>
    cases p with
    | zero => simp [pages, List.head?_eq_getElem?]
    | succ p => simpa [pages] using ih p

theorem flatten_pages_from {count start : ℕ} {rest : List ℕ}
    (hasc : (start :: rest).Pairwise (· < ·)) (hbelow : ∀ b ∈ start :: rest, b < count) :
    (pages count (start :: rest)).flatten = List.range' start (count - start) := by
  induction rest generalizing start with
  | nil => simp [pages]
  | cons next rest ih =>
    have hnext : start < next := (List.pairwise_cons.mp hasc).1 next (by simp)
    have hcount : next < count := hbelow next (by simp)
    have htail := ih (List.pairwise_cons.mp hasc).2 (fun b hb => hbelow b (by simp [hb]))
    rw [pages, List.flatten_cons, htail]
    have happend := List.range'_append_1 (s := start) (m := next - start) (n := count - next)
    rw [show start + (next - start) = next by omega] at happend
    rw [List.head?_cons, Option.getD_some, happend]
    congr 1
    omega

theorem flatten_pages {count : ℕ} {starts : List ℕ} (h : Cuts count starts) :
    (pages count starts).flatten = List.range count := by
  cases starts with
  | nil => cases h.first
  | cons start rest =>
    obtain rfl : start = 0 := Option.some.inj h.first
    rw [flatten_pages_from h.ascending h.below, List.range_eq_range', Nat.sub_zero]

theorem pages_length_bounds {count m : ℕ} {starts : List ℕ}
    (h : ∀ p start, starts[p]? = some start →
      start < starts[p + 1]?.getD count ∧ starts[p + 1]?.getD count ≤ start + m)
    {page : List ℕ} (hpage : page ∈ pages count starts) : 0 < page.length ∧ page.length ≤ m := by
  obtain ⟨p, hp⟩ := List.mem_iff_getElem?.mp hpage
  rw [pages_getElem?] at hp
  obtain ⟨start, hstart, rfl⟩ := Option.map_eq_some_iff.mp hp
  have hgap := h p start hstart
  rw [List.length_range']
  omega

end PageTable
