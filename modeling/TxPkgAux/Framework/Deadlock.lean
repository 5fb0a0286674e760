import Mathlib.Data.Set.Basic
import Mathlib.Tactic.Common

/-!
# Deadlocks of mutexes

`waits t m` is a thread blocked at the acquisition of a mutex, `owner m` the thread
that holds it. A set of threads is deadlocked if each of them waits for a mutex held
by one of the set. If the mutexes are ordered by a rank and a thread waits only for
one that is below all it holds, there is no deadlocked set, however many threads
there are (`not_deadlocked_of_rank`).
-/

namespace TX

variable {T M : Type*}

/-- Each of these threads waits for a mutex that one of them holds. -/
def Deadlocked (waits : T → M → Prop) (owner : M → Option T) (D : Set T) : Prop :=
  D.Nonempty ∧ ∀ t ∈ D, ∃ m, waits t m ∧ ∃ t' ∈ D, owner m = some t'

theorem not_deadlocked_of_rank {waits : T → M → Prop} {owner : M → Option T} (rank : M → Nat)
    (h : ∀ t m m', waits t m → owner m' = some t → rank m < rank m') (D : Set T) :
    ¬ Deadlocked waits owner D := by
  rintro ⟨⟨t₀, ht₀⟩, hD⟩
  -- The mutex a member waits for has a smaller rank than the one it is waited for.
  have hdesc : ∀ n, ∀ t ∈ D, ∀ m, waits t m → rank m = n → ∀ t' ∈ D, owner m ≠ some t' := by
    intro n
    induction n using Nat.strong_induction_on with
    | _ n ih =>
      intro t _ m _ hn t' ht' ho
      obtain ⟨m', hw', t'', ht'', ho'⟩ := hD t' ht'
      exact ih (rank m') (hn ▸ h t' m' m hw' ho) t' ht' m' hw' rfl t'' ht'' ho'
  obtain ⟨m, hw, t', ht', ho⟩ := hD t₀ ht₀
  exact hdesc (rank m) t₀ ht₀ m hw rfl t' ht' ho

end TX
