import TxPkgAux.Impl.RunLoop.UpdateCtx
import Mathlib.Algebra.Order.Ring.Int

/-!
# The times of a frame

`ticks_timed`: after `Initialize` and any number of ticks, the fields of an `UpdateCtx` are
those of the clock readings. `session.passedUs` is the exception: `Tick` leaves it as
`Initialize` set it, so it is right as long as no microsecond has passed
(`ticks_times_right_iff`).
-/

namespace TX.RunLoop.UpdateCtx

/-- `c` is what `Tick` makes of the readings up to `last`, the `n`th after the initial reading
`start`; `sum` is the sum of the deltas. -/
structure Timed (c : UpdateCtx) (start last : TimePoint) (n : Nat) (sum : Duration) : Prop where
  session_start : c.session.startTime = start
  session_passed : c.session.passed = last - start
  session_passedUs : c.session.passedUs = 0
  frame_start : c.frame.startTime = last
  frame_index : c.frame.index = UInt64.ofNat n
  frame_deltaUs : c.frame.deltaUs = toMicroseconds c.frame.delta
  sum_eq : sum = last - start

theorem initializeAt_timed (c : UpdateCtx) (now : TimePoint) :
    (c.initializeAt now).Timed now now 0 0 := by
  constructor <;> simp [initializeAt, toMicroseconds]

theorem tick_timed {c : UpdateCtx} {start last : TimePoint} {n : Nat} {sum : Duration}
    (h : c.Timed start last n sum) (now : TimePoint) :
    (c.tick now).Timed start now (n + 1) (sum + (c.tick now).frame.delta) where
  session_start := h.session_start
  session_passed := by rw [← h.session_start]; rfl
  session_passedUs := h.session_passedUs
  frame_start := rfl
  frame_index := by
    rw [UInt64.ofNat_add, ← h.frame_index]
    rfl
  frame_deltaUs := rfl
  sum_eq := by
    have hd : (c.tick now).frame.delta = now - last := by rw [← h.frame_start]; rfl
    rw [hd, h.sum_eq, Int.add_comm]
    exact sub_add_sub_cancel now last start

/-- The induction is on the readings still to come. -/
theorem Timed.ticks {c : UpdateCtx} {start last : TimePoint} {n : Nat} {sum : Duration}
    (h : c.Timed start last n sum) (ts : List TimePoint) :
    (c.ticks ts).Timed start ((last :: ts).getLast (List.cons_ne_nil _ _)) (n + ts.length)
      (sum + (c.deltas ts).sum) := by
  induction ts generalizing c last n sum with
  | nil => simpa [UpdateCtx.ticks, deltas] using h
  | cons t ts ih =>
    have ht := ih (tick_timed h t)
    rw [List.getLast_cons (List.cons_ne_nil _ _), List.length_cons, deltas, List.sum_cons,
      ← Int.add_assoc, Nat.add_comm ts.length 1, ← Nat.add_assoc]
    exact ht

theorem ticks_timed (c : UpdateCtx) (start : TimePoint) (ts : List TimePoint) :
    ((c.initializeAt start).ticks ts).Timed start ((start :: ts).getLast (List.cons_ne_nil _ _))
      ts.length (((c.initializeAt start).deltas ts).sum) := by
  simpa using (initializeAt_timed c start).ticks ts

/-- The clock does not go back. -/
theorem start_le_last {start : TimePoint} {ts : List TimePoint}
    (h : (start :: ts).Pairwise (· ≤ ·)) : start ≤ (start :: ts).getLast (List.cons_ne_nil _ _) := by
  obtain he | he := List.mem_cons.mp (List.getLast_mem (List.cons_ne_nil start ts))
  · exact he.ge
  · exact List.rel_of_pairwise_cons h he

theorem toMicroseconds_eq_zero {d : Int} (h : 0 ≤ d) : toMicroseconds d = 0 ↔ d < 1000 := by
  rw [toMicroseconds, Int.tdiv_eq_ediv_of_nonneg h]
  omega

/-- The times are right if and only if fewer than 2⁶⁴ frames and less than a microsecond
have passed since `Initialize`. -/
theorem ticks_times_right_iff (c : UpdateCtx) (start : TimePoint) (ts : List TimePoint)
    (h : (start :: ts).Pairwise (· ≤ ·)) :
    let last := (start :: ts).getLast (List.cons_ne_nil _ _)
    let c' := (c.initializeAt start).ticks ts
    (c'.frame.index.toNat = ts.length ∧
      c'.session.passed = last - start ∧
      c'.session.passed = ((c.initializeAt start).deltas ts).sum ∧
      c'.frame.startTime = last ∧
      c'.frame.deltaUs = toMicroseconds c'.frame.delta ∧
      c'.session.passedUs = toMicroseconds c'.session.passed) ↔
    ts.length < 2 ^ 64 ∧ last - start < 1000 := by
  intro last c'
  have ht : c'.Timed start last ts.length _ := ticks_timed c start ts
  have hle : 0 ≤ last - start := Int.sub_nonneg_of_le (start_le_last h)
  have hindex : c'.frame.index.toNat = ts.length ↔ ts.length < 2 ^ 64 := by
    rw [ht.frame_index, UInt64.toNat_ofNat']
    omega
  have hus : c'.session.passedUs = toMicroseconds c'.session.passed ↔ last - start < 1000 := by
    rw [ht.session_passedUs, ht.session_passed, eq_comm]
    exact toMicroseconds_eq_zero hle
  rw [hindex, hus]
  constructor
  · intro hr
    exact ⟨hr.1, hr.2.2.2.2.2⟩
  · intro hc
    refine ⟨hc.1, ht.session_passed, ?_, ht.frame_start, ht.frame_deltaUs, hc.2⟩
    rw [ht.session_passed, ht.sum_eq]

/-- Three frames within a microsecond. -/
theorem ticks_times_right_within_us :
    let c' := ((({} : UpdateCtx).initializeAt 5).ticks [5, 100, 900])
    c'.frame.index.toNat = 3 ∧ c'.session.passed = 895 ∧ c'.session.passedUs = 0 ∧
      c'.frame.deltaUs = 0 ∧ c'.frame.startTime = 900 := by
  have h := (ticks_times_right_iff {} 5 [5, 100, 900] (by decide)).mpr (by decide)
  obtain ⟨hi, hp, -, hs, hd, hu⟩ := h
  refine ⟨hi, hp, hu.trans ?_, hd.trans ?_, hs⟩
  · rw [hp]
    decide
  · decide

/-- One frame after a millisecond: `session.passedUs` is 0, and 1000 microseconds have passed. -/
theorem tick_passedUs_wrong :
    let c' := ((({} : UpdateCtx).initializeAt 0).ticks [1000000])
    c'.session.passedUs = 0 ∧ toMicroseconds c'.session.passed = 1000 ∧
      ¬ ∀ (c : UpdateCtx) (start : TimePoint) (ts : List TimePoint),
        (start :: ts).Pairwise (· ≤ ·) →
          ((c.initializeAt start).ticks ts).session.passedUs =
            toMicroseconds ((c.initializeAt start).ticks ts).session.passed := by
  refine ⟨by decide, by decide, ?_⟩
  intro h
  exact absurd (h {} 0 [1000000] (by decide)) (by decide)

end TX.RunLoop.UpdateCtx
