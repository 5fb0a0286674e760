import Mathlib.Data.List.DropRight

/-!
# String views

`std::basic_string_view` as the list of its characters: `rfind` and `substr`.
`substr` is `none` where it throws `std::out_of_range`; a position that was not found is
`none` too, where C++ has `npos`.

`cut_last` cuts a string at the last place of a character; `rfind_last`, `rtakeWhile_last` and
`rdropWhile_last` say what the operations make of the parts.
-/

namespace TX.StringView

variable {α : Type*} [DecidableEq α]

/-- `s.rfind(c, pos)`: the last place of `c`, at `pos` or before it. Without `pos` the search
starts at the last character. -/
def rfind (s : List α) (c : α) : Nat → Option Nat
  | 0 => if s[0]? = some c then some 0 else none
  | pos + 1 => if s[pos + 1]? = some c then some (pos + 1) else rfind s c pos

omit [DecidableEq α] in
/-- `s.substr(pos, n)`. -/
def substr (s : List α) (pos n : Nat) : Option (List α) :=
  if pos ≤ s.length then some ((s.drop pos).take n) else none

theorem rfind_eq_none {s : List α} {c : α} {pos : Nat} (h : ∀ i ≤ pos, s[i]? ≠ some c) :
    rfind s c pos = none := by
  induction pos with
  | zero => rw [rfind, if_neg (h 0 (Nat.le_refl 0))]
  | succ pos ih =>
    rw [rfind, if_neg (h (pos + 1) (Nat.le_refl _))]
    exact ih fun i hi => h i (Nat.le_succ_of_le hi)

theorem rfind_eq_some {s : List α} {c : α} {pos i : Nat} (hi : i ≤ pos) (hc : s[i]? = some c)
    (h : ∀ j, i < j → j ≤ pos → s[j]? ≠ some c) : rfind s c pos = some i := by
  induction pos with
  | zero =>
    obtain rfl : i = 0 := Nat.le_zero.mp hi
    rw [rfind, if_pos hc]
  | succ pos ih =>
    rw [rfind]
    obtain rfl | hlt := Nat.eq_or_lt_of_le hi
    · rw [if_pos hc]
    · rw [if_neg (h _ hlt (Nat.le_refl _))]
      exact ih (Nat.le_of_lt_succ hlt) fun j hj hle => h j hj (Nat.le_succ_of_le hle)

omit [DecidableEq α] in
theorem getElem?_middle {l m r : List α} {c : α} {j : Nat} (hm : c ∉ m) (hl : l.length ≤ j)
    (hj : j < l.length + m.length) : (l ++ (m ++ r))[j]? ≠ some c := by
  rw [List.getElem?_append_right hl, List.getElem?_append_left (by omega)]
  exact fun he => hm (List.mem_of_getElem? he)

/-- The last separator before the part `f` is the one in front of it. -/
theorem rfind_last {d f r : List α} {c : α} (hf : c ∉ f) :
    rfind (d ++ c :: (f ++ r)) c (d.length + f.length) = some d.length := by
  apply rfind_eq_some (Nat.le_add_right _ _)
  · rw [List.getElem?_append_right (Nat.le_refl _), Nat.sub_self]
    rfl
  · intro j hj hle
    rw [show d ++ c :: (f ++ r) = (d ++ [c]) ++ (f ++ r) by simp]
    apply getElem?_middle hf <;> simp only [List.length_append, List.length_singleton] <;> omega

theorem rfind_first {f r : List α} {c : α} (hf : c ∉ f) {pos : Nat} (hpos : pos < f.length) :
    rfind (f ++ r) c pos = none := by
  apply rfind_eq_none
  intro i hi
  exact getElem?_middle (l := []) hf (Nat.zero_le _) (by simp only [List.length_nil]; omega)

omit [DecidableEq α] in
theorem substr_middle (d f r : List α) : substr (d ++ (f ++ r)) d.length f.length = some f := by
  simp [substr]

/-! ## Cutting at the last place of a character -/

theorem rtakeWhile_none {f : List α} {c : α} (hf : c ∉ f) : f.rtakeWhile (· ≠ c) = f := by
  rw [List.rtakeWhile_eq_self_iff]
  intro x hx
  exact decide_eq_true fun he => hf (he ▸ hx)

theorem rdropWhile_none {f : List α} {c : α} (hf : c ∉ f) : f.rdropWhile (· ≠ c) = [] := by
  rw [List.rdropWhile_eq_nil_iff]
  intro x hx
  exact decide_eq_true fun he => hf (he ▸ hx)

theorem rdropWhile_last {d f : List α} {c : α} (hf : c ∉ f) :
    (d ++ c :: f).rdropWhile (· ≠ c) = d ++ [c] := by
  induction f using List.reverseRecOn with
  | nil => exact List.rdropWhile_concat_neg _ _ _ (by simp)
  | append_singleton f x ih =>
    simp only [List.mem_append, List.mem_singleton, not_or] at hf
    rw [show d ++ c :: (f ++ [x]) = (d ++ c :: f) ++ [x] by simp,
      List.rdropWhile_concat, if_pos (decide_eq_true (Ne.symm hf.2))]
    exact ih hf.1

theorem rtakeWhile_last {d f : List α} {c : α} (hf : c ∉ f) :
    (d ++ c :: f).rtakeWhile (· ≠ c) = f := by
  have h := List.rdropWhile_append_rtakeWhile (p := (· ≠ c)) (l := d ++ c :: f)
  rw [rdropWhile_last hf, List.append_assoc, List.singleton_append] at h
  exact List.tail_eq_of_cons_eq (List.append_cancel_left h)

theorem cut_last (c : α) (s : List α) : c ∉ s ∨ ∃ d f, c ∉ f ∧ s = d ++ c :: f := by
  induction s using List.reverseRecOn with
  | nil => exact .inl List.not_mem_nil
  | append_singleton s x ih =>
    by_cases hx : x = c
    · exact .inr ⟨s, [], List.not_mem_nil, by rw [hx]⟩
    · obtain hs | ⟨d, f, hf, rfl⟩ := ih
      · exact .inl (by simp [hs, Ne.symm hx])
      · exact .inr ⟨d, f ++ [x], by simp [hf, Ne.symm hx], by simp⟩

/-- There is one last place. -/
theorem cut_last_unique {d d' f f' : List α} {c : α} (hf : c ∉ f) (hf' : c ∉ f')
    (h : d ++ c :: f = d' ++ c :: f') : d = d' := by
  have hd := congrArg (List.rdropWhile (· ≠ c)) h
  rw [rdropWhile_last hf, rdropWhile_last hf'] at hd
  exact List.append_cancel_right hd

end TX.StringView
