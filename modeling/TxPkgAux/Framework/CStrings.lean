import Mathlib.Data.List.TakeWhile

/-!
# C strings

A string goes through a C string as its UTF-8 bytes with a zero byte at the end, which the
reader takes to end at the first zero byte. What arrives are the characters before the first
U+0000 (`ofCStr_cStr`).
-/

namespace TX

/-- The bytes of a string in UTF-8. -/
def utf8Bytes (s : String) : List UInt8 := s.toList.flatMap String.utf8EncodeChar

/-- A C string. -/
def cStr (s : String) : List UInt8 := utf8Bytes s ++ [0]

/-- What is read from a C string. -/
def ofCStr (bytes : List UInt8) : String :=
  (String.fromUTF8? (bytes.takeWhile (· ≠ 0)).toByteArray).getD ""

theorem ofNat_ne_zero {n : Nat} (hpos : 0 < n) (hlt : n < 256) : (0 : UInt8) ≠ UInt8.ofNat n := by
  rw [Ne, ← UInt8.toNat_inj, UInt8.toNat_ofNat', Nat.mod_eq_of_lt hlt]
  exact Nat.ne_of_lt hpos

/-- No character but U+0000 has a zero byte. -/
theorem zero_mem_utf8EncodeChar {c : Char} : 0 ∈ String.utf8EncodeChar c ↔ c = Char.ofNat 0 := by
  have hc : c = Char.ofNat 0 ↔ c.val.toNat = 0 := by
    rw [Char.ext_iff, ← UInt32.toNat_inj]
    rfl
  rw [hc]
  unfold String.utf8EncodeChar
  generalize c.val.toNat = v
  dsimp only
  split
  · rw [List.mem_singleton, ← UInt8.toNat_inj, UInt8.toNat_ofNat']
    simp only [UInt8.reduceToNat]
    omega
  · -- Every byte of a longer encoding is 128 at least.
    have hv : v ≠ 0 := by omega
    simp only [hv, iff_false]
    split
    · simp only [List.mem_cons, List.not_mem_nil, or_false, not_or]
      exact ⟨ofNat_ne_zero (by omega) (by omega), ofNat_ne_zero (by omega) (by omega)⟩
    · split <;> simp only [List.mem_cons, List.not_mem_nil, or_false, not_or]
      · exact ⟨ofNat_ne_zero (by omega) (by omega), ofNat_ne_zero (by omega) (by omega),
          ofNat_ne_zero (by omega) (by omega)⟩
      · exact ⟨ofNat_ne_zero (by omega) (by omega), ofNat_ne_zero (by omega) (by omega),
          ofNat_ne_zero (by omega) (by omega), ofNat_ne_zero (by omega) (by omega)⟩

theorem takeWhile_utf8 (cs : List Char) :
    (cs.flatMap String.utf8EncodeChar ++ [0]).takeWhile (· ≠ 0) =
      (cs.takeWhile (· ≠ Char.ofNat 0)).flatMap String.utf8EncodeChar := by
  induction cs with
  | nil => rfl
  | cons c cs ih =>
    by_cases hc : c = Char.ofNat 0
    · subst hc
      rfl
    · have hz : ∀ b ∈ String.utf8EncodeChar c, decide (b ≠ 0) = true := by
        intro b hb
        rw [decide_eq_true_iff]
        rintro rfl
        exact hc (zero_mem_utf8EncodeChar.mp hb)
      rw [List.flatMap_cons, List.append_assoc, List.takeWhile_append_of_pos hz, ih,
        List.takeWhile_cons_of_pos (by simpa using hc), List.flatMap_cons]

theorem ofCStr_cStr (s : String) :
    ofCStr (cStr s) = String.ofList (s.toList.takeWhile (· ≠ Char.ofNat 0)) := by
  rw [ofCStr, cStr, utf8Bytes, takeWhile_utf8]
  have hv : ByteArray.IsValidUTF8
      ((s.toList.takeWhile (· ≠ Char.ofNat 0)).flatMap String.utf8EncodeChar).toByteArray :=
    ⟨_, rfl⟩
  rw [String.fromUTF8?, dif_pos hv]
  rfl

/-- A string is read as it was written if and only if it has no U+0000. -/
theorem ofCStr_cStr_eq_iff (s : String) : ofCStr (cStr s) = s ↔ Char.ofNat 0 ∉ s.toList := by
  rw [ofCStr_cStr, ← String.toList_inj, String.toList_ofList, List.takeWhile_eq_self_iff]
  refine ⟨fun h hmem => ?_, fun h c hmem => ?_⟩
  · simpa using h _ hmem
  · rw [decide_eq_true_iff]
    rintro rfl
    exact h hmem

end TX
