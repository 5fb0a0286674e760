import Mathlib.Data.List.Nodup

/-!
# Calls in real time

The calls of a run, stamped by a clock that goes on with every call that begins and every call
that returns. `h.Before e f` says that the call `e` had returned when the call `f` began: calls
that overlap are not ordered.

A list of calls is in order when no call in it is before an earlier one (`InOrder`). It stays so
when calls begin, which `InOrder` does not depend on, when they return (`InOrder.ret`), and when a
call that has not returned is put at its end (`InOrder.append`).
-/

namespace TX

/-- A call, and when it began. -/
structure Stamped (α : Type*) where
  value : α
  start : ℕ
deriving DecidableEq

/-- The calls that have begun, and the calls that have returned with the time of the return. -/
structure CallHistory (α : Type*) where
  clock : ℕ := 0
  begun : List (Stamped α) := []
  returned : List (Stamped α × ℕ) := []

namespace CallHistory

variable {α : Type*}

/-- The call that begins next. -/
def next (h : CallHistory α) (a : α) : Stamped α := ⟨a, h.clock⟩

def call (h : CallHistory α) (a : α) : CallHistory α :=
  { h with clock := h.clock + 1, begun := h.begun ++ [h.next a] }

def ret (h : CallHistory α) (e : Stamped α) : CallHistory α :=
  { h with clock := h.clock + 1, returned := h.returned ++ [(e, h.clock)] }

def Returned (h : CallHistory α) (e : Stamped α) : Prop := e ∈ h.returned.map Prod.fst

def Before (h : CallHistory α) (e f : Stamped α) : Prop := ∃ t, (e, t) ∈ h.returned ∧ t < f.start

def InOrder (h : CallHistory α) (l : List (Stamped α)) : Prop := l.Pairwise fun e f => ¬ h.Before f e

instance [DecidableEq α] (h : CallHistory α) (e : Stamped α) : Decidable (h.Returned e) :=
  inferInstanceAs (Decidable (e ∈ h.returned.map Prod.fst))

/-- Every call has its own stamp, and returns after it began. -/
structure Valid (h : CallHistory α) : Prop where
  start_lt : ∀ e ∈ h.begun, e.start < h.clock
  nodup : h.begun.Nodup
  returned : ∀ e, h.Returned e → e ∈ h.begun

variable {h : CallHistory α} {a : α} {e f : Stamped α} {l : List (Stamped α)}

theorem valid_empty : ({} : CallHistory α).Valid := ⟨by simp, by simp, by simp [Returned]⟩

theorem mem_call : e ∈ (h.call a).begun ↔ e ∈ h.begun ∨ e = h.next a := by
  simp [call]

@[simp]
theorem returned_call : (h.call a).Returned e ↔ h.Returned e := Iff.rfl

theorem returned_ret : (h.ret e).Returned f ↔ h.Returned f ∨ f = e := by
  simp [Returned, ret]

theorem Valid.next_notMem (hv : h.Valid) (a : α) : h.next a ∉ h.begun :=
  fun he => Nat.lt_irrefl _ (hv.start_lt _ he)

theorem Valid.call (hv : h.Valid) (a : α) : (h.call a).Valid := by
  refine ⟨?_, ?_, ?_⟩
  · intro e he
    obtain he | rfl := mem_call.mp he
    · exact Nat.lt_succ_of_lt (hv.start_lt e he)
    · exact Nat.lt_succ_self _
  · refine List.nodup_append.mpr ⟨hv.nodup, List.nodup_singleton _, ?_⟩
    rintro e he f hf rfl
    rw [List.mem_singleton] at hf
    exact hv.next_notMem a (hf ▸ he)
  · exact fun e he => mem_call.mpr (.inl (hv.returned e he))

theorem Valid.ret (hv : h.Valid) (he : e ∈ h.begun) : (h.ret e).Valid := by
  refine ⟨fun f hf => Nat.lt_succ_of_lt (hv.start_lt f hf), hv.nodup, ?_⟩
  intro f hf
  obtain hf | rfl := returned_ret.mp hf
  · exact hv.returned f hf
  · exact he

/-! ## Lists in order -/

/-- A call that began has not begun after a return that comes now. -/
theorem Valid.before_ret (hv : h.Valid) (hf : f ∈ h.begun) {g : Stamped α} :
    (h.ret e).Before g f ↔ h.Before g f := by
  constructor
  · rintro ⟨t, hm, hlt⟩
    obtain hm | hm := List.mem_append.mp hm
    · exact ⟨t, hm, hlt⟩
    · obtain ⟨-, rfl⟩ := Prod.mk.inj (List.mem_singleton.mp hm)
      exact absurd (hv.start_lt f hf) (Nat.lt_asymm hlt)
  · rintro ⟨t, hm, hlt⟩
    exact ⟨t, List.mem_append_left _ hm, hlt⟩

theorem InOrder.ret (hl : h.InOrder l) (hv : h.Valid) (hsub : l ⊆ h.begun) : (h.ret e).InOrder l :=
  List.Pairwise.imp_of_mem (fun hx _ hn hb => hn ((hv.before_ret (hsub hx)).mp hb)) hl

theorem InOrder.append (hl : h.InOrder l) (he : ¬ h.Returned e) : h.InOrder (l ++ [e]) := by
  refine List.pairwise_append.mpr ⟨hl, List.pairwise_singleton _ _, ?_⟩
  intro x _ y hy
  obtain rfl := List.mem_singleton.mp hy
  rintro ⟨t, hm, -⟩
  exact he (List.mem_map_of_mem hm)

end CallHistory

end TX
