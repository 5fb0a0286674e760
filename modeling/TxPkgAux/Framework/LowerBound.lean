import Mathlib.Data.List.InsertIdx
import Mathlib.Data.List.Perm.Basic
import Mathlib.Order.Lattice

/-!
# `std::lower_bound`

The binary search on a vector, and the insertion of an element where it ends. On a vector that
is sorted by a key the search finds the border between the smaller keys and the others
(`lowerBound_append`), and the vector stays sorted (`insertAt_sorted`).
-/

namespace TX.LowerBound

variable {α : Type*}

/-- The loop of the search: the place is among the `len` ones from `first` on, or behind them. -/
def search (less : α → Bool) (xs : List α) : Nat → Nat → Nat → Nat
  | 0, first, _ => first
  | fuel + 1, first, len =>
    if len = 0 then first
    else
      match xs[first + len / 2]? with
      | none => first
      | some x =>
        if less x then search less xs fuel (first + len / 2 + 1) (len - len / 2 - 1)
        else search less xs fuel first (len / 2)

/-- The first place whose element is not `less`. -/
def lowerBound (less : α → Bool) (xs : List α) : Nat := search less xs xs.length 0 xs.length

/-- The border is kept between `first` and `first + len`. -/
theorem search_append {less : α → Bool} {l r : List α} (hl : ∀ x ∈ l, less x = true)
    (hr : ∀ x ∈ r, less x = false) {fuel first len : Nat} (hfuel : len ≤ fuel)
    (hfirst : first ≤ l.length) (hlen : l.length ≤ first + len)
    (hmax : first + len ≤ (l ++ r).length) : search less (l ++ r) fuel first len = l.length := by
  induction fuel generalizing first len with
  | zero =>
    rw [search]
    omega
  | succ fuel ih =>
    rw [search]
    split
    · omega
    · have hlt : first + len / 2 < (l ++ r).length := by omega
      rw [List.getElem?_eq_getElem hlt]
      by_cases hmid : first + len / 2 < l.length
      · have hx : less (l ++ r)[first + len / 2] = true := by
          rw [List.getElem_append_left hmid]
          exact hl _ (List.getElem_mem hmid)
        simp only [hx, if_true]
        exact ih (by omega) (by omega) (by omega) (by omega)
      · have hx : less (l ++ r)[first + len / 2] = false := by
          rw [List.getElem_append_right (by omega)]
          exact hr _ (List.getElem_mem _)
        simp only [hx, Bool.false_eq_true, if_false]
        exact ih (by omega) hfirst (by omega) (by omega)

theorem lowerBound_append {less : α → Bool} {l r : List α} (hl : ∀ x ∈ l, less x = true)
    (hr : ∀ x ∈ r, less x = false) : lowerBound less (l ++ r) = l.length :=
  search_append hl hr (Nat.le_refl _) (Nat.zero_le _) (by simp) (by simp)

/-! ## Insertion into a sorted vector -/

variable {β : Type*} [LinearOrder β] (key : α → β)

/-- Sorted by the key, ascending. -/
def Sorted (xs : List α) : Prop := xs.Pairwise fun x y => key x ≤ key y

/-- The insertion of an element at the lower bound of its key. -/
def insertAt (x : α) (xs : List α) : List α :=
  xs.insertIdx (lowerBound (fun y => decide (key y < key x)) xs) x

variable {key} {x : α} {xs : List α}

/-- A sorted vector is cut between the keys below a bound and the others. -/
theorem Sorted.cut (h : Sorted key xs) (b : β) :
    ∃ l r, xs = l ++ r ∧ (∀ y ∈ l, key y < b) ∧ ∀ y ∈ r, b ≤ key y := by
  induction xs with
  | nil => exact ⟨[], [], rfl, by simp, by simp⟩
  | cons y ys ih =>
    obtain ⟨hy, hys⟩ := List.pairwise_cons.mp h
    by_cases hlt : key y < b
    · obtain ⟨l, r, rfl, hl, hr⟩ := ih hys
      exact ⟨y :: l, r, rfl, by simpa [hlt] using hl, hr⟩
    · refine ⟨[], y :: ys, rfl, by simp, ?_⟩
      intro z hz
      obtain rfl | hz := List.mem_cons.mp hz
      · exact not_lt.mp hlt
      · exact (not_lt.mp hlt).trans (hy z hz)

theorem insertIdx_append (l r : List α) (x : α) : (l ++ r).insertIdx l.length x = l ++ x :: r := by
  induction l with
  | nil => rfl
  | cons y l ih => simpa using ih

/-- The element stands behind the smaller keys and before the others. -/
theorem insertAt_cut (h : Sorted key xs) : ∃ l r, xs = l ++ r ∧ (∀ y ∈ l, key y < key x) ∧
    (∀ y ∈ r, key x ≤ key y) ∧ insertAt key x xs = l ++ x :: r := by
  obtain ⟨l, r, rfl, hl, hr⟩ := h.cut (key x)
  refine ⟨l, r, rfl, hl, hr, ?_⟩
  rw [insertAt, lowerBound_append, insertIdx_append]
  · exact fun y hy => decide_eq_true (hl y hy)
  · exact fun y hy => decide_eq_false (not_lt.mpr (hr y hy))

theorem insertAt_sorted (h : Sorted key xs) : Sorted key (insertAt key x xs) := by
  obtain ⟨l, r, rfl, hl, hr, he⟩ := insertAt_cut (x := x) h
  obtain ⟨hsl, hsr, hlr⟩ := List.pairwise_append.mp h
  rw [he]
  refine List.pairwise_append.mpr ⟨hsl, List.pairwise_cons.mpr ⟨hr, hsr⟩, ?_⟩
  intro y hy z hz
  obtain rfl | hz := List.mem_cons.mp hz
  · exact (hl y hy).le
  · exact hlr y hy z hz

theorem insertAt_perm (h : Sorted key xs) : (insertAt key x xs).Perm (x :: xs) := by
  obtain ⟨l, r, rfl, -, -, he⟩ := insertAt_cut (x := x) h
  rw [he]
  exact List.perm_middle

end TX.LowerBound
