import Mathlib.Data.Nat.Find
import Mathlib.Tactic.Common

/-!
# Loops that count their turns

`while (...) { ...; ++count; }` by its turn: `turn s` is the state after the next turn, `none`
where the loop is left. `turns k s` is the state after `k` turns, or where the loop was left
before, and `run` is the loop itself, as far as `fuel` turns go.

A loop whose number of turns is bounded comes to its end (`run_of_bounded`), and what a turn
preserves, the turns preserve (`turns_invariant`).
-/

namespace TX.Loop

variable {S : Type*} (turn : S → Option S)

def turns : Nat → S → S
  | 0, s => s
  | k + 1, s => match turn s with
    | none => s
    | some s' => turns k s'

def run : Nat → Nat → S → Option (Nat × S)
  | 0, _, _ => none
  | fuel + 1, count, s => match turn s with
    | none => some (count, s)
    | some s' => run fuel (count + 1) s'

/-- The first `k` turns are made. -/
def Makes (k : Nat) (s : S) : Prop := ∀ j < k, turn (turns turn j s) ≠ none

variable {turn} {s : S}

theorem turns_of_none (h : turn s = none) (k : Nat) : turns turn k s = s := by
  cases k with
  | zero => rfl
  | succ k => rw [turns, h]

theorem turns_add (j k : Nat) (s : S) : turns turn (j + k) s = turns turn k (turns turn j s) := by
  induction j generalizing s with
  | zero => rw [Nat.zero_add, turns]
  | succ j ih =>
    rw [Nat.succ_add, turns, turns]
    cases h : turn s with
    | none => exact (turns_of_none h k).symm
    | some s' => exact ih s'

theorem turns_succ (k : Nat) (s : S) :
    turns turn (k + 1) s = (turn (turns turn k s)).getD (turns turn k s) := by
  rw [turns_add, turns]
  cases turn (turns turn k s) <;> rfl

/-- What holds up to the turn where the loop is left, holds after any number of turns. -/
theorem turns_forall {n : Nat} (hend : turn (turns turn n s) = none) {P : S → Prop}
    (h : ∀ j ≤ n, P (turns turn j s)) (k : Nat) : P (turns turn k s) := by
  obtain hk | hk := Nat.le_total k n
  · exact h k hk
  · obtain ⟨i, rfl⟩ := Nat.exists_eq_add_of_le hk
    rw [turns_add, turns_of_none hend]
    exact h n (Nat.le_refl n)

theorem turns_invariant {I : S → Prop} (h : I s)
    (hI : ∀ {s s'}, I s → turn s = some s' → I s') (k : Nat) : I (turns turn k s) := by
  induction k generalizing s with
  | zero => exact h
  | succ k ih =>
    rw [turns]
    cases ht : turn s with
    | none => exact h
    | some s' => exact ih (hI h ht)

/-- A relation to the state before that the turns only extend. -/
theorem turns_le (le : S → S → Prop) (hrefl : ∀ s, le s s) (htrans : ∀ {a b c}, le a b → le b c → le a c)
    {I : S → Prop} (h : I s) (hI : ∀ {s s'}, I s → turn s = some s' → I s' ∧ le s s')
    {j k : Nat} (hjk : j ≤ k) : le (turns turn j s) (turns turn k s) := by
  have hj : I (turns turn j s) := turns_invariant h (fun hs ht => (hI hs ht).1) j
  obtain ⟨i, rfl⟩ := Nat.exists_eq_add_of_le hjk
  rw [turns_add]
  have hall : I (turns turn i (turns turn j s)) ∧ le (turns turn j s) (turns turn i (turns turn j s)) := by
    refine turns_invariant (I := fun s' => I s' ∧ le (turns turn j s) s') ⟨hj, hrefl _⟩ ?_ i
    intro s₁ s₂ h₁ ht
    obtain ⟨h₂, hle⟩ := hI h₁.1 ht
    exact ⟨h₂, htrans h₁.2 hle⟩
  exact hall.2

theorem Makes.turn_some {k j : Nat} (h : Makes turn k s) (hj : j < k) :
    turn (turns turn j s) = some (turns turn (j + 1) s) := by
  obtain ⟨s', hs'⟩ := Option.ne_none_iff_exists'.mp (h j hj)
  rw [turns_succ, hs', Option.getD_some]

theorem run_eq {n : Nat} (hn : Makes turn n s) (hend : turn (turns turn n s) = none) {fuel : Nat}
    (hfuel : n < fuel) (c : Nat) : run turn fuel c s = some (c + n, turns turn n s) := by
  induction n generalizing s fuel c with
  | zero =>
    obtain ⟨m, rfl⟩ := Nat.exists_eq_add_one_of_ne_zero (Nat.pos_iff_ne_zero.mp hfuel)
    rw [turns] at hend ⊢
    rw [run, hend]
    rfl
  | succ n ih =>
    obtain ⟨m, rfl⟩ := Nat.exists_eq_add_one_of_ne_zero (Nat.pos_iff_ne_zero.mp (Nat.zero_lt_of_lt hfuel))
    obtain ⟨s', hs'⟩ := Option.ne_none_iff_exists'.mp (hn 0 (Nat.zero_lt_succ n))
    have hs : turn s = some s' := hs'
    have hshift : ∀ j, turns turn (j + 1) s = turns turn j s' := fun j => by rw [turns, hs]
    have hmakes : Makes turn n s' := by
      intro j hj
      rw [← hshift]
      exact hn (j + 1) (Nat.succ_lt_succ hj)
    rw [hshift] at hend ⊢
    rw [run, hs]
    refine (ih hmakes hend (by omega) (c + 1)).trans ?_
    rw [Nat.add_assoc, Nat.add_comm 1 n]

/-- A loop that came to its end made the turns it counted. -/
theorem run_some {fuel c m : Nat} {s' : S} (h : run turn fuel c s = some (m, s')) :
    ∃ n, m = c + n ∧ s' = turns turn n s ∧ turn s' = none := by
  induction fuel generalizing s c with
  | zero => cases h
  | succ fuel ih =>
    rw [run] at h
    cases ht : turn s with
    | none =>
      rw [ht] at h
      cases h
      exact ⟨0, rfl, rfl, ht⟩
    | some s₁ =>
      rw [ht] at h
      obtain ⟨n, rfl, rfl, hend⟩ := ih h
      refine ⟨n + 1, by omega, ?_, hend⟩
      rw [turns, ht]

/-- A loop that makes `N` turns at most comes to its end. -/
theorem run_of_bounded {N : Nat} (h : ∀ k, Makes turn k s → k ≤ N) (c : Nat) :
    ∃ n ≤ N, Makes turn n s ∧ turn (turns turn n s) = none ∧
      ∀ fuel > n, run turn fuel c s = some (c + n, turns turn n s) := by
  classical
  have hex : ∃ n, turn (turns turn n s) = none := by
    by_contra hno
    have := h (N + 1) fun j _ hj => hno ⟨j, hj⟩
    omega
  have hmakes : Makes turn (Nat.find hex) s := fun j hj => Nat.find_min hex hj
  exact ⟨Nat.find hex, h _ hmakes, hmakes, Nat.find_spec hex,
    fun fuel hfuel => run_eq hmakes (Nat.find_spec hex) hfuel c⟩

end TX.Loop
