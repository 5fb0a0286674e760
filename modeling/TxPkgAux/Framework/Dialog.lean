import Mathlib.Data.List.Basic

/-!
# Computations that talk to their environment

A computation asks its environment, which answers as it likes: what was said so far decides the
answer. `m said` is the result of `m`, and all that was said after it, newest first.

`Says P m` says that `m` only adds to what was said, and that every question it asks meets `P`;
there is a rule for every way a computation is put together. `Alike m m'` says that the
environment sees no difference between `m` and `m'`.
-/

namespace TX

/-- A computation that asks questions `E`, and ends with a value or an error. -/
def Dialog (E ε α : Type) : Type := List E → Except ε α × List E

namespace Dialog

variable {E ε α β : Type}

instance : Monad (Dialog E ε) where
  pure a said := (.ok a, said)
  bind m f said :=
    match m said with
    | (.ok a, said) => f a said
    | (.error err, said) => (.error err, said)

/-- A question, and the answer to it. -/
def ask (e : E) (answer : List E → α) : Dialog E ε α := fun said => (.ok (answer (e :: said)), e :: said)

def fail (err : ε) : Dialog E ε α := fun said => (.error err, said)

theorem bind_ok {m : Dialog E ε α} {f : α → Dialog E ε β} {said said' : List E} {a : α}
    (h : m said = (.ok a, said')) : (m >>= f) said = f a said' := by
  simp only [bind, h]

theorem bind_error {m : Dialog E ε α} {f : α → Dialog E ε β} {said said' : List E} {err : ε}
    (h : m said = (.error err, said')) : (m >>= f) said = (.error err, said') := by
  simp only [bind, h]

theorem ask_bind (e : E) (answer : List E → α) (f : α → Dialog E ε β) (said : List E) :
    (ask e answer >>= f) said = f (answer (e :: said)) (e :: said) := rfl

theorem bind_assoc {γ : Type} (m : Dialog E ε α) (f : α → Dialog E ε β) (g : β → Dialog E ε γ) :
    m >>= f >>= g = m >>= fun a => f a >>= g := by
  funext said
  rcases h : m said with ⟨r, said'⟩
  cases r with
  | ok a => rw [bind_ok h]; simp only [bind, h]
  | error err => rw [bind_error h, bind_error (bind_error h)]

/-! ## What is asked -/

def Says (P : E → Prop) (m : Dialog E ε α) : Prop :=
  ∀ said, ∃ asked, (m said).2 = asked ++ said ∧ ∀ e ∈ asked, P e

variable {P : E → Prop} {m m' : Dialog E ε α} {f f' : α → Dialog E ε β}

theorem says_pure (a : α) : Says P (pure a : Dialog E ε α) := fun _ => ⟨[], rfl, by simp⟩

theorem says_fail (err : ε) : Says P (fail err : Dialog E ε α) := fun _ => ⟨[], rfl, by simp⟩

theorem says_ask {e : E} (he : P e) (answer : List E → α) : Says P (ask e answer : Dialog E ε α) :=
  fun _ => ⟨[e], rfl, by simpa using he⟩

theorem Says.bind (hm : Says P m) (hf : ∀ a, Says P (f a)) : Says P (m >>= f) := by
  intro said
  obtain ⟨asked, hs, hP⟩ := hm said
  rcases hr : m said with ⟨r, said'⟩
  rw [hr] at hs
  obtain rfl : said' = asked ++ said := hs
  cases r with
  | ok a =>
    obtain ⟨asked', hs', hP'⟩ := hf a (asked ++ said)
    refine ⟨asked' ++ asked, by rw [bind_ok hr, hs', List.append_assoc], fun e he => ?_⟩
    exact (List.mem_append.mp he).elim (hP' e) (hP e)
  | error err => exact ⟨asked, by rw [bind_error hr], hP⟩

theorem Says.subset (hm : Says P m) (said : List E) : said ⊆ (m said).2 := by
  obtain ⟨asked, hs, -⟩ := hm said
  exact hs ▸ List.subset_append_right _ _

/-- Every question of a run from the start. -/
theorem Says.mem (hm : Says P m) {e : E} (he : e ∈ (m []).2) : P e := by
  obtain ⟨asked, hs, hP⟩ := hm []
  rw [hs, List.append_nil] at he
  exact hP e he

/-! ## What the environment sees -/

/-- The same questions, and the same value, or an error in both. -/
def Alike (m m' : Dialog E ε α) : Prop :=
  ∀ said, (m said).2 = (m' said).2 ∧ (m said).1.toOption = (m' said).1.toOption

theorem Alike.refl (m : Dialog E ε α) : Alike m m := fun _ => ⟨rfl, rfl⟩

theorem alike_fail (err err' : ε) : Alike (fail err : Dialog E ε α) (fail err') := fun _ => ⟨rfl, rfl⟩

theorem Alike.bind (hm : Alike m m') (hf : ∀ a, Alike (f a) (f' a)) : Alike (m >>= f) (m' >>= f') := by
  intro said
  obtain ⟨hs, hv⟩ := hm said
  rcases hr : m said with ⟨r, said₁⟩
  rcases hr' : m' said with ⟨r', said₁'⟩
  rw [hr, hr'] at hs hv
  obtain rfl : said₁ = said₁' := hs
  cases r <;> cases r'
  · rw [bind_error hr, bind_error hr']
    exact ⟨rfl, rfl⟩
  · cases hv
  · cases hv
  · obtain rfl := Option.some.inj hv
    rw [bind_ok hr, bind_ok hr']
    exact hf _ said₁

end Dialog

end TX
