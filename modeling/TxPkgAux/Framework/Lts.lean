import Mathlib.Logic.Function.Basic

/-!
# Transition systems with computed steps

A system is its initial state and its step function: `step s a` is the state
after the action `a`, and `none` where `a` is blocked in `s`. Threads,
callbacks and the environment are all actions, so the runs of the system are
the interleavings of their atomic steps.

`Path ok s s'` is a run from `s` to `s'` whose actions all meet `ok` in the
state they are taken in: a condition on the steps of a run, such as an
assumption on the callers, is such an `ok`. `Path.invariant` is the induction
rule every invariant below is proved by.
-/

namespace TX

/-- A transition system: `step s a` is the state after `a`, `none` where `a`
is blocked. -/
structure Lts (S A : Type*) where
  init : S
  step : S → A → Option S

namespace Lts

variable {S A : Type*}

/-- The state after the actions `as`, `none` where one of them is blocked. -/
def run (M : Lts S A) : S → List A → Option S
  | s, [] => some s
  | s, a :: as => (M.step s a).bind fun s' => M.run s' as

/-- A run whose actions all meet `ok` in the state they are taken in. -/
inductive Path (M : Lts S A) (ok : S → A → Prop) : S → S → Prop where
  | refl (s : S) : Path M ok s s
  | tail {s s₁ s₂ : S} {a : A} : Path M ok s s₁ → ok s₁ a → M.step s₁ a = some s₂ → Path M ok s s₂

/-- Reached from the initial state by a run whose actions all meet `ok`. -/
def Reach (M : Lts S A) (ok : S → A → Prop) (s : S) : Prop := M.Path ok M.init s

/-- Every action meets it: `M.Reach Any s` is reachability. -/
def Any (_ : S) (_ : A) : Prop := True

instance (s : S) (a : A) : Decidable (Any s a) := .isTrue trivial

/-- The system whose actions are also blocked where `p` does not hold. -/
def restrict (M : Lts S A) (p : S → A → Bool) : Lts S A where
  init := M.init
  step s a := if p s a then M.step s a else none

/-- The system with a record of what its steps show to an observer, newest first. -/
def observe {O : Type*} (M : Lts S A) (obs : S → A → List O) : Lts (S × List O) A where
  init := (M.init, [])
  step p a := (M.step p.1 a).map fun s' => (s', obs p.1 a ++ p.2)

variable {M : Lts S A} {ok : S → A → Prop}

/-- What a run's first state satisfies and its steps preserve, its last state
satisfies. -/
theorem Path.invariant {I : S → Prop} {s s' : S} (h : M.Path ok s s') (h₀ : I s)
    (hs : ∀ {s₁ s₂ : S} {a : A}, I s₁ → ok s₁ a → M.step s₁ a = some s₂ → I s₂) : I s' := by
  induction h with
  | refl => exact h₀
  | tail _ ho he ih => exact hs ih ho he

theorem Path.trans {s s' s'' : S} (h : M.Path ok s s') (h' : M.Path ok s' s'') :
    M.Path ok s s'' := by
  induction h' with
  | refl => exact h
  | tail _ ho he ih => exact .tail ih ho he

theorem Path.mono {ok' : S → A → Prop} (hok : ∀ s a, ok s a → ok' s a) {s s' : S}
    (h : M.Path ok s s') : M.Path ok' s s' := by
  induction h with
  | refl => exact .refl _
  | tail _ ho he ih => exact .tail ih (hok _ _ ho) he

theorem restrict_step {p : S → A → Bool} {s s' : S} {a : A} :
    (M.restrict p).step s a = some s' ↔ p s a = true ∧ M.step s a = some s' := by
  simp only [restrict]
  split <;> simp_all

theorem Path.of_restrict {p : S → A → Bool} {s s' : S} (h : (M.restrict p).Path ok s s') :
    M.Path ok s s' := by
  induction h with
  | refl => exact .refl _
  | tail _ ho he ih => exact .tail ih ho (restrict_step.mp he).2

theorem observe_step {O : Type*} {obs : S → A → List O} {p p' : S × List O} {a : A} :
    (M.observe obs).step p a = some p' ↔ M.step p.1 a = some p'.1 ∧ p'.2 = obs p.1 a ++ p.2 := by
  obtain ⟨s', os'⟩ := p'
  simp only [observe, Option.map_eq_some_iff, Prod.mk.injEq]
  exact ⟨fun ⟨_, he, hs, ho⟩ => ⟨hs ▸ he, ho.symm⟩, fun ⟨he, ho⟩ => ⟨s', he, rfl, ho.symm⟩⟩

section Lockstep

variable {S' : Type*} {N : Lts S' A} {f : S → S'} {I : S → Prop}

/-- A system whose states are the images of another's, step by step: its runs are the images
of the other's runs. -/
theorem Path.image {s s' : S} (hI : I s) (hs : ∀ {s₁ s₂ a}, I s₁ → M.step s₁ a = some s₂ → I s₂)
    (hf : ∀ {s₁} a, I s₁ → N.step (f s₁) a = (M.step s₁ a).map f) (h : M.Path Any s s') :
    N.Path Any (f s) (f s') ∧ I s' := by
  induction h with
  | refl => exact ⟨.refl _, hI⟩
  | @tail s₁ s₂ a _ _ he ih =>
    have he' : N.step (f s₁) a = some (f s₂) := by rw [hf a ih.2, he]; rfl
    exact ⟨.tail ih.1 trivial he', hs ih.2 he⟩

theorem Path.of_image {s : S} {t : S'} (hI : I s) (hs : ∀ {s₁ s₂ a}, I s₁ → M.step s₁ a = some s₂ → I s₂)
    (hf : ∀ {s₁} a, I s₁ → N.step (f s₁) a = (M.step s₁ a).map f) (h : N.Path Any (f s) t) :
    ∃ s', M.Path Any s s' ∧ f s' = t ∧ I s' := by
  induction h with
  | refl => exact ⟨s, .refl s, rfl, hI⟩
  | @tail _ _ a _ _ he ih =>
    obtain ⟨s₁, hp, rfl, hI₁⟩ := ih
    rw [hf a hI₁] at he
    obtain ⟨s₂, he₂, heq⟩ := Option.map_eq_some_iff.mp he
    exact ⟨s₂, .tail hp trivial he₂, heq, hs hI₁ he₂⟩

end Lockstep

/-- A relation to the states of another system that every step can keep with a run of that. -/
theorem Path.simulate {T B : Type*} {N : Lts T B} {ok' : T → B → Prop} {R : S → T → Prop}
    (hR : ∀ {s₁ s₂ a t}, R s₁ t → ok s₁ a → M.step s₁ a = some s₂ → ∃ t', N.Path ok' t t' ∧ R s₂ t')
    {s s' : S} {t : T} (h : M.Path ok s s') (h₀ : R s t) : ∃ t', N.Path ok' t t' ∧ R s' t' := by
  induction h with
  | refl => exact ⟨t, .refl t, h₀⟩
  | tail _ ho he ih =>
    obtain ⟨t₁, hp, h₁⟩ := ih
    obtain ⟨t₂, hp', h₂⟩ := hR h₁ ho he
    exact ⟨t₂, hp.trans hp', h₂⟩

/-- What holds of a run's last state, and before each step after which it holds, holds all along
the run. -/
theorem Path.within {I : S → Prop} {s s' : S} (h : M.Path ok s s') (hI : I s')
    (hs : ∀ {s₁ s₂ : S} {a : A}, M.step s₁ a = some s₂ → I s₂ → I s₁) :
    M.Path (fun s a => ok s a ∧ ∀ s', M.step s a = some s' → I s') s s' := by
  induction h with
  | refl => exact .refl _
  | tail _ ho he ih =>
    exact .tail (ih (hs he hI)) ⟨ho, fun s' he' => Option.some.inj (he.symm.trans he') ▸ hI⟩ he

/-- The actions of a computed run, taken one by one. -/
theorem Path.of_run {p : S → A → Bool} (hp : ∀ s a, p s a = true → ok s a) {as : List A} {s s' : S}
    (h : (M.restrict p).run s as = some s') : M.Path ok s s' := by
  induction as generalizing s with
  | nil =>
    simp only [run, Option.some.injEq] at h
    exact h ▸ .refl s
  | cons a as ih =>
    simp only [run, Option.bind_eq_some_iff] at h
    obtain ⟨s₁, he, hr⟩ := h
    obtain ⟨ha, he⟩ := restrict_step.mp he
    exact Path.trans (.tail (.refl s) (hp s a ha) he) (ih hr)

/-- A run by computation: its actions meet `ok` and its last state `q`. -/
theorem Reach.of_run (M : Lts S A) (ok : S → A → Prop) [∀ s a, Decidable (ok s a)] (as : List A)
    (q : S → Bool) (h : ((M.restrict fun s a => ok s a).run M.init as).any q = true) :
    ∃ s, M.Reach ok s ∧ q s = true := by
  obtain ⟨s, hr, hq⟩ := (Option.any_eq_true _ _).mp h
  exact ⟨s, Path.of_run (fun _ _ => of_decide_eq_true) hr, hq⟩

end Lts

/-- In a record, newest first, what was before an event is before the other events as well. -/
theorem suffix_of_notMem {α : Type*} {x : α} {new old before : List α} (hx : x ∉ new)
    (h : x :: before <:+ new ++ old) : x :: before <:+ old := by
  induction new with
  | nil => exact h
  | cons y new ih =>
    obtain heq | h := List.suffix_cons_iff.mp h
    · obtain ⟨rfl, -⟩ := List.cons.inj heq
      exact absurd List.mem_cons_self hx
    · exact ih (fun hm => hx (List.mem_cons_of_mem _ hm)) h

end TX
