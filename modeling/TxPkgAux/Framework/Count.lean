import Mathlib.Data.Nat.Count

/-!
# Counting indices

`Nat.count p n` is the number of indices below `n` with `p`. A step of a system changes
`p` at one index, or adds one: these are the lemmas for it.
-/

namespace TX

variable {p q : ℕ → Prop} [DecidablePred p] [DecidablePred q] {n l : ℕ}

theorem count_congr (h : ∀ k < n, p k ↔ q k) : Nat.count p n = Nat.count q n :=
  le_antisymm (Nat.count_mono_left fun k hk => (h k hk).mp)
    (Nat.count_mono_left fun k hk => (h k hk).mpr)

/-- One index less. -/
theorem count_remove (hl : l < n) (hp : p l) (hq : ¬ q l) (h : ∀ k, k ≠ l → (p k ↔ q k)) :
    Nat.count q n + 1 = Nat.count p n := by
  simp only [Nat.count_eq_card_filter_range]
  have hm : l ∈ (Finset.range n).filter p := by simp [hl, hp]
  rw [← Finset.card_erase_add_one hm]
  congr 2
  ext k
  by_cases hk : k = l
  · simp [hk, hq]
  · simp [hk, h k hk]

end TX
