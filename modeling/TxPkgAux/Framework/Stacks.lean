import Mathlib.Data.List.Basic
import Mathlib.Logic.Function.Basic

/-!
# Call stacks

Threads `τ` with a stack of frames each. `AtMostOne stack p` says that at most one
frame of all stacks meets `p`: a call that can be made only once. It is kept where
a stack changes without a new frame that meets `p` (`AtMostOne.update`), and where
the first one is pushed (`AtMostOne.push`).
-/

namespace TX

variable {τ F : Type*} [DecidableEq τ] {stack : τ → List F} {p : F → Bool}

/-- At most one frame of all stacks meets `p`. -/
def AtMostOne (stack : τ → List F) (p : F → Bool) : Prop :=
  (∀ t, (stack t).countP p ≤ 1) ∧
    ∀ t t', 0 < (stack t).countP p → 0 < (stack t').countP p → t = t'

omit [DecidableEq τ] in
theorem mem_top {l : List F} {f : F} {fs : List F} (h : l = f :: fs) : f ∈ l := h ▸ List.mem_cons_self

omit [DecidableEq τ] in
theorem countP_le_one_eq {l : List F} (h : l.countP p ≤ 1) {f f' : F} (hf : f ∈ l) (hf' : f' ∈ l)
    (hp : p f = true) (hp' : p f' = true) : f = f' := by
  induction l with
  | nil => cases hf
  | cons g l ih =>
    rw [List.countP_cons] at h
    -- A second frame would be counted in the tail.
    have hpos : ∀ {x}, x ∈ l → p x = true → 0 < l.countP p := fun hx hpx =>
      List.countP_pos_iff.mpr ⟨_, hx, hpx⟩
    rcases List.mem_cons.mp hf with rfl | hfl <;> rcases List.mem_cons.mp hf' with rfl | hfl'
    · rfl
    · have := hpos hfl' hp'
      simp only [hp, if_true] at h
      omega
    · have := hpos hfl hp
      simp only [hp', if_true] at h
      omega
    · exact ih (by omega) hfl hfl'

omit [DecidableEq τ] in
theorem AtMostOne.eq (h : AtMostOne stack p) {t t' : τ} {f f' : F} (hf : f ∈ stack t)
    (hf' : f' ∈ stack t') (hp : p f = true) (hp' : p f' = true) : f = f' := by
  have ht : t = t' := h.2 t t' (List.countP_pos_iff.mpr ⟨f, hf, hp⟩)
    (List.countP_pos_iff.mpr ⟨f', hf', hp'⟩)
  subst ht
  exact countP_le_one_eq (h.1 t) hf hf' hp hp'

/-- What the new stack of a thread shares with the old one, all stacks do. -/
theorem update_same {γ : Sort*} (g : List F → γ) {t : τ} {fs : List F} (h : g fs = g (stack t)) (t' : τ) :
    g (Function.update stack t fs t') = g (stack t') := by
  by_cases ht : t' = t
  · subst ht
    rw [Function.update_self, h]
  · rw [Function.update_of_ne ht]

/-- No new frame that meets `p`. -/
theorem AtMostOne.update (h : AtMostOne stack p) {t : τ} {fs : List F}
    (hle : fs.countP p ≤ (stack t).countP p) : AtMostOne (Function.update stack t fs) p := by
  have hc : ∀ t', (Function.update stack t fs t').countP p ≤ (stack t').countP p := fun t' => by
    by_cases ht : t' = t
    · subst ht
      simpa using hle
    · simp [ht]
  exact ⟨fun t' => Nat.le_trans (hc t') (h.1 t'), fun t₁ t₂ h₁ h₂ =>
    h.2 t₁ t₂ (Nat.lt_of_lt_of_le h₁ (hc t₁)) (Nat.lt_of_lt_of_le h₂ (hc t₂))⟩

/-- The first frame that meets `p` is pushed. -/
theorem AtMostOne.push (h : ∀ t, ∀ f ∈ stack t, p f = false) {t : τ} (f : F) :
    AtMostOne (Function.update stack t (f :: stack t)) p := by
  have h0 : ∀ t, (stack t).countP p = 0 := fun t =>
    List.countP_eq_zero.mpr fun f hf => by simp [h t f hf]
  refine ⟨fun t' => ?_, fun t₁ t₂ h₁ h₂ => ?_⟩
  · by_cases ht : t' = t
    · subst ht
      rw [Function.update_self, List.countP_cons, h0]
      split <;> omega
    · simp [ht, h0]
  · have hne : ∀ t', 0 < (Function.update stack t (f :: stack t) t').countP p → t' = t := fun t' hp => by
      by_contra ht
      simp [ht, h0] at hp
    rw [hne t₁ h₁, hne t₂ h₂]

end TX
