import Mathlib.Data.Set.Subsingleton

/-!
# A token that is handed on

`H` are the holders of a token before a step, and `H'` those after it. A step that hands the
token from one holder to the next, or drops it, keeps it with one holder at most.
-/

namespace TX

variable {α : Type*} {H H' : Set α}

/-- A new holder has the token from an old one, and is the only new one. -/
def Passes (H H' : Set α) : Prop := ∀ y ∈ H', y ∈ H ∨ ∃ x ∈ H, x ∉ H' ∧ H' ⊆ insert y H

theorem Passes.of_subset (h : H' ⊆ H) : Passes H H' := fun _ hy => .inl (h hy)

theorem Passes.subsingleton (h : Passes H H') (hs : H.Subsingleton) : H'.Subsingleton := by
  intro y hy z hz
  rcases h y hy with hy' | ⟨x, hx, hx', hsub⟩
  · rcases h z hz with hz' | ⟨x, hx, hx', hsub⟩
    · exact hs hy' hz'
    · exact absurd (hs hy' hx ▸ hy) hx'
  · rcases hsub hz with rfl | hz'
    · rfl
    · exact absurd (hs hz' hx ▸ hz) hx'

theorem Passes.empty (h : Passes H H') (he : H = ∅) : H' = ∅ := by
  subst he
  refine Set.eq_empty_of_forall_notMem fun y hy => ?_
  rcases h y hy with hy' | ⟨x, hx, -⟩
  · exact hy'
  · exact hx

/-- Where nobody had the token, and one has come to have it. -/
theorem subsingleton_of_insert_empty {x : α} (h : H ⊆ insert x ∅) : H.Subsingleton := by
  rw [insert_empty_eq] at h
  exact Set.subsingleton_singleton.anti h

end TX
