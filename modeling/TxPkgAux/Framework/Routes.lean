import TxPkgAux.Framework.Lts
import Mathlib.Tactic.Common

/-!
# Routing tables

Owners are numbered in the order of their creation. A table has under each key the
owner that messages for the key are routed to: a new owner takes the place of an older
one with its key, and an owner that ends takes itself out by its key (`Routes.finish`).

A `RoutingModel` sees the states of a system as such tables. Where an owner ends only
while no newer owner of its key is left (`RoutingModel.Apart`), the newest owner of a
key is routed to until it ends, and its end is what removes it (`RoutingModel.kept`).
-/

namespace TX

open Function (update)

/-- A table, the keys of the owners, their number, and which of them have ended. -/
@[ext]
structure Routes (κ : Type*) where
  peers : κ → Option ℕ
  key : ℕ → κ
  created : ℕ
  ended : ℕ → Bool

namespace Routes

variable {κ : Type*} [DecidableEq κ]

/-- No newer owner has the key. -/
def Newest (r : Routes κ) (l : ℕ) : Prop :=
  l < r.created ∧ ∀ k < r.created, l < k → r.key k ≠ r.key l

instance (r : Routes κ) (l : ℕ) : Decidable (r.Newest l) :=
  inferInstanceAs (Decidable (l < r.created ∧ ∀ k < r.created, l < k → r.key k ≠ r.key l))

/-- A new owner. -/
def store (r : Routes κ) (id : κ) : Routes κ where
  peers := update r.peers id (some r.created)
  key := update r.key r.created id
  created := r.created + 1
  ended := update r.ended r.created false

/-- An owner ends. -/
def finish (r : Routes κ) (l : ℕ) : Routes κ :=
  { r with peers := update r.peers (r.key l) none, ended := update r.ended l true }

/-- The newest owner of a key may end, and an older one after it. -/
def CanFinish (r : Routes κ) (l : ℕ) : Prop :=
  ∀ k < r.created, r.Newest k → r.key k = r.key l → k = l ∨ r.ended k = true

instance (r : Routes κ) (l : ℕ) : Decidable (r.CanFinish l) :=
  inferInstanceAs
    (Decidable (∀ k < r.created, r.Newest k → r.key k = r.key l → k = l ∨ r.ended k = true))

/-- The table has under a key its newest owner, unless that has ended. -/
structure Valid (r : Routes κ) : Prop where
  stored : ∀ id l, r.peers id = some l → r.Newest l ∧ r.key l = id ∧ r.ended l = false
  routed : ∀ l, r.Newest l → r.ended l = false → r.peers (r.key l) = some l

omit [DecidableEq κ] in
theorem Newest.eq {r : Routes κ} {l k : ℕ} (hl : r.Newest l) (hk : r.Newest k)
    (h : r.key k = r.key l) : k = l := by
  rcases Nat.lt_trichotomy k l with hlt | heq | hlt
  · exact absurd h.symm (hk.2 l hl.1 hlt)
  · exact heq
  · exact absurd h (hl.2 k hk.1 hlt)

theorem newest_store {r : Routes κ} {id : κ} {l : ℕ} :
    (r.store id).Newest l ↔ l = r.created ∨ r.Newest l ∧ r.key l ≠ id := by
  constructor
  · rintro ⟨hl, hk⟩
    by_cases hc : l = r.created
    · exact .inl hc
    · have hlt : l < r.created := by
        simp only [store] at hl
        omega
      have hkey : ∀ k, k ≠ r.created → (r.store id).key k = r.key k := fun k hk => by
        simp [store, hk]
      refine .inr ⟨⟨hlt, fun k hkc hlk => ?_⟩, ?_⟩
      · have := hk k (by simp only [store]; omega) hlk
        rwa [hkey k (by omega), hkey l hc] at this
      · have := hk r.created (by simp [store]) hlt
        rw [hkey l hc] at this
        simpa [store, eq_comm] using this
  · rintro (rfl | ⟨⟨hl, hk⟩, hne⟩)
    · exact ⟨by simp [store], fun k hk hlt => by simp only [store] at hk; omega⟩
    · refine ⟨by simp only [store]; omega, fun k hkc hlk => ?_⟩
      simp only [store, Function.update_apply]
      grind -linarith -order [store]

theorem Valid.store {r : Routes κ} (h : r.Valid) (id : κ) : (r.store id).Valid := by
  constructor
  · intro id' l hp
    rw [newest_store]
    have hold := h.stored id' l
    by_cases hid : id' = id
    · subst hid
      obtain rfl : r.created = l := by simpa [Routes.store] using hp
      simp [Routes.store]
    · have hp' : r.peers id' = some l := by simpa [Routes.store, hid] using hp
      obtain ⟨hn, hkey, he⟩ := hold hp'
      have hne : l ≠ r.created := Nat.ne_of_lt hn.1
      refine ⟨.inr ⟨hn, by rwa [hkey]⟩, ?_, ?_⟩ <;> simpa [Routes.store, hne]
  · intro l hn he
    rcases newest_store.mp hn with rfl | ⟨hn, hkey⟩
    · simp [Routes.store]
    · have hne : l ≠ r.created := Nat.ne_of_lt hn.1
      have he' : r.ended l = false := by simpa [Routes.store, hne] using he
      simpa [Routes.store, hne, hkey] using h.routed l hn he'

theorem Valid.finish {r : Routes κ} (h : r.Valid) {l : ℕ} (hl : r.CanFinish l) : (r.finish l).Valid := by
  constructor
  · intro id k hp
    by_cases hid : id = r.key l
    · simp [Routes.finish, hid] at hp
    · have hp' : r.peers id = some k := by simpa [Routes.finish, hid] using hp
      obtain ⟨hn, hkey, he⟩ := h.stored id k hp'
      have hne : k ≠ l := fun e => hid (by rw [← hkey, e])
      exact ⟨hn, hkey, by simpa [Routes.finish, hne] using he⟩
  · intro k hn he
    by_cases hk : k = l
    · simp [Routes.finish, hk] at he
    · have he' : r.ended k = false := by simpa [Routes.finish, hk] using he
      have hn' : r.Newest k := hn
      have hkey : r.key k ≠ r.key l := fun e => by
        rcases hl k hn'.1 hn' e with h | h
        · exact hk h
        · simp [he'] at h
      simpa [Routes.finish, hkey] using h.routed k hn' he'

/-- What an owner that may end takes out is itself. -/
theorem Valid.finish_peers {r : Routes κ} (h : r.Valid) {l k : ℕ} (hl : r.CanFinish l) {id : κ}
    (hp : r.peers id = some k) (hn : (r.finish l).peers id = none) : k = l := by
  obtain ⟨hnew, hkey, he⟩ := h.stored id k hp
  have hid : id = r.key l := by
    by_contra hid
    simp [Routes.finish, hid, hp] at hn
  rcases hl k hnew.1 hnew (hkey.trans hid) with h | h
  · exact h
  · simp [he] at h

end Routes

/-! ## Systems with a routing table -/

/-- A system whose states have a routing table while they are `alive`: an action keeps
it, adds an owner, or is the end of one (`ends`). -/
structure RoutingModel {S A : Type*} (M : Lts S A) (κ : Type*) [DecidableEq κ] where
  view : S → Routes κ
  alive : S → Bool
  ends : S → A → Option ℕ
  init_valid : (view M.init).Valid
  step_view {s s' : S} {a : A} : M.step s a = some s' → alive s' = true → alive s = true ∧
    (view s' = view s ∨ (∃ id, view s' = (view s).store id) ∨
      ∃ l, ends s a = some l ∧ view s' = (view s).finish l)

namespace RoutingModel

variable {S A κ : Type*} [DecidableEq κ] {M : Lts S A} (R : RoutingModel M κ)

/-- The end of an owner comes while no newer owner of its key is left. -/
def Apart (s : S) (a : A) : Prop := ∀ l ∈ R.ends s a, (R.view s).CanFinish l

instance (s : S) (a : A) : Decidable (R.Apart s a) :=
  inferInstanceAs (Decidable (∀ l ∈ R.ends s a, (R.view s).CanFinish l))

/-- The newest owner of a key is routed to until it ends, and an entry is removed by
the end of its own owner only. -/
structure Kept (s : S) : Prop where
  routed : ∀ l, (R.view s).Newest l → (R.view s).ended l = false →
    (R.view s).peers ((R.view s).key l) = some l
  removed : ∀ a s', R.Apart s a → M.step s a = some s' → R.alive s' = true → ∀ id l,
    (R.view s).peers id = some l → (R.view s').peers id = none → R.ends s a = some l

variable {R}

theorem step_valid {s s' : S} {a : A} (hv : R.alive s = true → (R.view s).Valid) (ha : R.Apart s a)
    (he : M.step s a = some s') (hs : R.alive s' = true) : (R.view s').Valid := by
  obtain ⟨hal, heq | ⟨id, heq⟩ | ⟨l, hl, heq⟩⟩ := R.step_view he hs
  · exact heq ▸ hv hal
  · exact heq ▸ (hv hal).store id
  · exact heq ▸ (hv hal).finish (ha l hl)

theorem kept {s : S} (h : M.Reach R.Apart s) (hs : R.alive s = true) : R.Kept s := by
  have hv : R.alive s = true → (R.view s).Valid :=
    h.invariant (I := fun s => R.alive s = true → (R.view s).Valid) (fun _ => R.init_valid)
      fun hv ha he => step_valid hv ha he
  refine ⟨(hv hs).routed, fun a s' ha he hs' id l hp hn => ?_⟩
  obtain ⟨-, heq | ⟨id', heq⟩ | ⟨k, hk, heq⟩⟩ := R.step_view he hs' <;> rw [heq] at hn
  · simp [hp] at hn
  · by_cases hid : id = id' <;> simp [Routes.store, hid] at hn
    simp [hp] at hn
  · rw [(hv hs).finish_peers (ha k hk) hp hn, hk]

end RoutingModel

end TX
