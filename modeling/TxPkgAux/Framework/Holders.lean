import Mathlib.Data.Finset.Card
import Mathlib.Logic.Function.Basic

/-!
# Counted holders

A counter of references is right where no more than it counts hold one (`Counted`), however many
there could be. `Counted.update` is a step of one of them.
-/

namespace TX

variable {α : Type*} {p q : α → Prop} {m n : ℕ}

/-- No more than `n` hold a reference. -/
def Counted (p : α → Prop) (n : ℕ) : Prop := ∀ H : Finset α, (∀ x ∈ H, p x) → H.card ≤ n

theorem counted_none (h : ∀ x, ¬ p x) (n : ℕ) : Counted p n := fun H hH => by
  have he : H = ∅ := Finset.eq_empty_of_forall_notMem fun x hx => h x (hH x hx)
  rw [he, Finset.card_empty]
  exact Nat.zero_le n

theorem Counted.pos (h : Counted p n) {x : α} (hx : p x) : 0 < n := by
  have hle := h {x} fun y hy => Finset.mem_singleton.mp hy ▸ hx
  rwa [Finset.card_singleton] at hle

theorem Counted.mono (h : Counted p m) (hq : ∀ x, q x → p x) (hn : m ≤ n) : Counted q n :=
  fun H hH => (h H fun x hx => hq x (hH x hx)).trans hn

/-- One of them takes a reference, drops it, or goes on as it is; the counter follows. -/
theorem Counted.update [DecidableEq α] (h : Counted p m) {x : α} (hq : ∀ y ≠ x, q y → p y)
    (hx : p x ∧ m ≤ n + 1 ∧ (q x → m ≤ n) ∨ m ≤ n ∧ (q x → m + 1 ≤ n)) : Counted q n := by
  intro H hH
  have hold : ∀ y ∈ H.erase x, p y := fun y hy =>
    hq y (Finset.ne_of_mem_erase hy) (hH y (Finset.mem_of_mem_erase hy))
  rcases hx with ⟨hpx, hdrop, hkeep⟩ | ⟨hle, htake⟩
  · have hins := h (insert x (H.erase x)) fun y hy => by
      rcases Finset.mem_insert.mp hy with rfl | hy
      · exact hpx
      · exact hold y hy
    rw [Finset.card_insert_of_notMem (Finset.notMem_erase x H)] at hins
    by_cases hm : x ∈ H
    · have hcard := Finset.card_erase_add_one hm
      have := hkeep (hH x hm)
      omega
    · rw [Finset.erase_eq_of_notMem hm] at hins
      omega
  · have her := h (H.erase x) hold
    by_cases hm : x ∈ H
    · have hcard := Finset.card_erase_add_one hm
      have := htake (hH x hm)
      omega
    · rw [Finset.erase_eq_of_notMem hm] at her
      omega

end TX
