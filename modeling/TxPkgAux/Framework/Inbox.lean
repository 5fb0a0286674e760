import Mathlib.Data.List.Infix

/-!
# What a receiver takes

A receiver gets messages one after the other. At first it is not ready for them, then it takes
them, and in the end it ignores them; it never goes back. So what it takes is a piece of what it
gets, with nothing left out of it (`Inbox.UpTo.all_arrive`).
-/

namespace TX

/-- Where a receiver is. -/
inductive Phase where
  | opening | taking | closed
  deriving DecidableEq

def Phase.rank : Phase → ℕ
  | .opening => 0
  | .taking => 1
  | .closed => 2

instance : LE Phase := ⟨fun p q => p.rank ≤ q.rank⟩

theorem Phase.le_refl (p : Phase) : p ≤ p := Nat.le_refl p.rank

theorem Phase.opening_le (p : Phase) : .opening ≤ p := Nat.zero_le p.rank

theorem Phase.le_closed (p : Phase) : p ≤ .closed := by cases p <;> exact Nat.le_of_ble_eq_true rfl

/-- What came in each phase, oldest first. -/
structure Inbox (α : Type*) where
  missed : List α := []
  taken : List α := []
  ignored : List α := []

namespace Inbox

variable {α : Type*} {b : Inbox α} {p q : Phase} {a : α}

/-- All that came. -/
def all (b : Inbox α) : List α := b.missed ++ b.taken ++ b.ignored

def arrive (b : Inbox α) (a : α) : Phase → Inbox α
  | .opening => { b with missed := b.missed ++ [a] }
  | .taking => { b with taken := b.taken ++ [a] }
  | .closed => { b with ignored := b.ignored ++ [a] }

/-- Nothing has come in a later phase. -/
structure UpTo (b : Inbox α) (p : Phase) : Prop where
  taken : p = .opening → b.taken = []
  ignored : p ≠ .closed → b.ignored = []

theorem upTo_empty (p : Phase) : ({} : Inbox α).UpTo p := ⟨fun _ => rfl, fun _ => rfl⟩

theorem UpTo.mono (h : b.UpTo p) (hp : p ≤ q) : b.UpTo q where
  taken hq := h.taken (by subst hq; cases p <;> first | rfl | exact absurd hp (by decide))
  ignored hq := h.ignored (by rintro rfl; cases q <;> first | exact hq rfl | exact absurd hp (by decide))

theorem UpTo.arrive (h : b.UpTo p) (a : α) : (b.arrive a p).UpTo p := by
  cases p with
  | opening => exact ⟨h.taken, h.ignored⟩
  | taking => exact ⟨nofun, h.ignored⟩
  | closed => exact ⟨nofun, fun hp => absurd rfl hp⟩

theorem UpTo.all_arrive (h : b.UpTo p) (a : α) : (b.arrive a p).all = b.all ++ [a] := by
  cases p with
  | opening => simp [all, Inbox.arrive, h.taken rfl, h.ignored (by decide)]
  | taking => simp [all, Inbox.arrive, h.ignored (by decide)]
  | closed => simp [all, Inbox.arrive]

end Inbox

end TX
