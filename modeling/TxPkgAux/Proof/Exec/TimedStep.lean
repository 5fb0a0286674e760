import TxPkgAux.Impl.Exec.TimedOperation

/-!
# Timed operations: what one step can do

`OpView` is one operation with all that its steps read outside it: how often it
is queued, whether its timer is scheduled or executing, the clock and its stop
flag. `OpStep` lists the steps one by one; `step_view` says that every step of
the system is one of them for each operation, given that the ids are kept apart
(`Ids`), so every invariant of the operations is proved by cases on `OpStep`.
-/

namespace TX.Exec

/-- One operation and what its steps read outside it. -/
@[ext] structure OpView (σ : Type) where
  op : TimedOperation σ
  queued : Nat
  scheduled : Prop
  running : Prop
  now : TimePoint
  stop : Bool

/-- Which function on an operation a step belongs to. -/
inductive OpAct where
  | start | timer | stop | dequeue | execute | destroy | other

/-- The steps, as one operation sees them. -/
inductive OpStep {σ : Type} : OpView σ → OpAct → OpView σ → Prop where
  | frame (v : OpView σ) : OpStep v .other v
  | clock (v : OpView σ) {t : TimePoint} (ht : v.now ≤ t) : OpStep v .other { v with now := t }
  | requestStop (v : OpView σ) : OpStep v .other { v with stop := true }
  | startRegister (v : OpView σ) (hp : v.op.startPc = .idle) (hs : v.stop = false) :
    OpStep v .start { v with op := { v.op with startPc := .loading, stopPc := .registered } }
  | startStopped (v : OpView σ) (hp : v.op.startPc = .idle) (hs : v.stop = true) :
    OpStep v .start { v with op := { v.op with startPc := .emplacing, stopPc := .testing } }
  | startEmplaced (v : OpView σ) (hp : v.op.startPc = .emplacing) (hs : v.op.stopPc = .returned) :
    OpStep v .start { v with op := { v.op with startPc := .loading } }
  | startLoad (v : OpView σ) (hp : v.op.startPc = .loading) :
    OpStep v .start { v with op := { v.op with
      startPc := if v.op.state = .pending then .scheduling else .returned } }
  | startSchedule (v : OpView σ) {id : TimerId} (hp : v.op.startPc = .scheduling)
      (hid : id ≠ InvalidTimerId) :
    OpStep v .start { v with
      op := { v.op with startPc := .assigning id, issuedId := id }, scheduled := True, running := False }
  | startAssign (v : OpView σ) {id : TimerId} (hp : v.op.startPc = .assigning id) :
    OpStep v .start { v with op := { v.op with timerId := id, startPc := .returned } }
  | fire (v : OpView σ) (hid : v.op.issuedId ≠ InvalidTimerId) (hs : v.scheduled)
      (hd : v.op.deadline ≤ v.now) :
    OpStep v .other { v with
      op := { v.op with timerPc := .clearing }, scheduled := False, running := True }
  | timerClear (v : OpView σ) (hp : v.op.timerPc = .clearing) :
    OpStep v .timer { v with op := { v.op with timerId := InvalidTimerId, timerPc := .swapping } }
  | timerWin (v : OpView σ) (hp : v.op.timerPc = .swapping)
      (hw : v.op.dtorPc ≠ .finished → v.op.state = .pending) :
    OpStep v .timer { v with op := { v.op with state := .timerWon, timerPc := .enqueuing } }
  | timerLose (v : OpView σ) (hp : v.op.timerPc = .swapping)
      (hw : v.op.dtorPc ≠ .finished → v.op.state ≠ .pending) :
    OpStep v .timer { v with op := { v.op with timerPc := .returning } }
  | timerEnqueue (v : OpView σ) (hp : v.op.timerPc = .enqueuing) :
    OpStep v .timer { v with op := { v.op with timerPc := .returning }, queued := v.queued + 1 }
  | done (v : OpView σ) (hp : v.op.timerPc = .returning) (hr : v.running) :
    OpStep v .other { v with op := { v.op with timerPc := .returned }, running := False }
  | stopBegin (v : OpView σ) (hp : v.op.stopPc = .registered) (hs : v.stop = true) :
    OpStep v .stop { v with op := { v.op with stopPc := .testing } }
  | stopTest (v : OpView σ) (hp : v.op.stopPc = .testing) :
    OpStep v .stop { v with op := { v.op with
      stopPc := if v.op.timerId = InvalidTimerId then .swapping else .exchanging } }
  | stopExchange (v : OpView σ) (hp : v.op.stopPc = .exchanging) :
    OpStep v .stop { v with op := { v.op with
      stopPc := .cancelling v.op.timerId, timerId := InvalidTimerId } }
  | stopCancel (v : OpView σ) {id : TimerId} (hp : v.op.stopPc = .cancelling id)
      (hr : id = v.op.issuedId → ¬ v.running) :
    OpStep v .stop { v with
      op := { v.op with stopPc := .swapping }, scheduled := v.scheduled ∧ v.op.issuedId ≠ id }
  | stopWin (v : OpView σ) (hp : v.op.stopPc = .swapping) (hw : v.op.state = .pending) :
    OpStep v .stop { v with op := { v.op with state := .stopWon, stopPc := .enqueuing } }
  | stopLose (v : OpView σ) (hp : v.op.stopPc = .swapping) (hw : v.op.state ≠ .pending) :
    OpStep v .stop { v with op := { v.op with stopPc := .returned } }
  | stopEnqueue (v : OpView σ) (hp : v.op.stopPc = .enqueuing) :
    OpStep v .stop { v with op := { v.op with stopPc := .returned }, queued := v.queued + 1 }
  | dequeue (v : OpView σ) (hq : 0 < v.queued) :
    OpStep v .dequeue { v with op := { v.op with execPc := .loading }, queued := v.queued - 1 }
  | execLoad (v : OpView σ) (hp : v.op.execPc = .loading) :
    OpStep v .execute { v with op := { v.op with
      execPc := .signalling (if v.stop then .setStopped else .setValue) v.stop } }
  | execSignal (v : OpView σ) {signal : Signal} {stopSeen : Bool}
      (hp : v.op.execPc = .signalling signal stopSeen) :
    OpStep v .execute { v with op := { v.op with
      execPc := .idle, completions := v.op.completions ++ [⟨signal, stopSeen, v.now⟩] } }
  | dtorEnter (v : OpView σ) (hp : v.op.dtorPc = .idle) :
    OpStep v .destroy { v with op := { v.op with dtorPc := .resetting } }
  | dtorReset (v : OpView σ) (hp : v.op.dtorPc = .resetting) (hs : v.op.stopPc.running = false) :
    OpStep v .destroy { v with op := { v.op with stopPc := .deregistered, dtorPc := .testing } }
  | dtorTest (v : OpView σ) (hp : v.op.dtorPc = .testing) :
    OpStep v .destroy { v with op := { v.op with
      dtorPc := if v.op.timerId = InvalidTimerId then .finished else .reading } }
  | dtorRead (v : OpView σ) (hp : v.op.dtorPc = .reading) :
    OpStep v .destroy { v with op := { v.op with dtorPc := .cancelling v.op.timerId } }
  | dtorCancel (v : OpView σ) {id : TimerId} (hp : v.op.dtorPc = .cancelling id)
      (hr : id = v.op.issuedId → ¬ v.running) :
    OpStep v .destroy { v with
      op := { v.op with dtorPc := .finished }, scheduled := v.scheduled ∧ v.op.issuedId ≠ id }

theorem OpStep.frame' {σ : Type} {v v' : OpView σ} (h : v' = v) : OpStep v .other v' :=
  h ▸ .frame v

/-! ## What each function writes -/

section Writes

variable {σ : Type} {v v' : OpView σ} {a : OpAct}

theorem OpStep.keeps_startPc (h : OpStep v a v') (ha : a ≠ .start) : v'.op.startPc = v.op.startPc := by
  cases h <;> first | rfl | exact absurd rfl ha

/-- Only `start()` moves an operation out of its initial state. -/
theorem OpStep.startPc_idle (h : OpStep v a v') :
    v'.op.startPc = .idle ↔ v.op.startPc = .idle ∧ a ≠ .start := by
  by_cases ha : a = .start
  · subst ha
    refine iff_of_false ?_ (fun hi => hi.2 rfl)
    cases h <;> simp only [reduceCtorEq, not_false_eq_true]
    split <;> simp
  · rw [h.keeps_startPc ha, and_iff_left ha]

theorem OpStep.keeps_dtorPc (h : OpStep v a v') (ha : a ≠ .destroy) : v'.op.dtorPc = v.op.dtorPc := by
  cases h <;> first | rfl | exact absurd rfl ha

theorem OpStep.keeps_execPc (h : OpStep v a v') (ha : a ≠ .dequeue) (ha' : a ≠ .execute) :
    v'.op.execPc = v.op.execPc := by
  cases h <;> first | rfl | exact absurd rfl ha | exact absurd rfl ha'

theorem OpStep.keeps_completions (h : OpStep v a v') (ha : a ≠ .execute) :
    v'.op.completions = v.op.completions := by
  cases h <;> first | rfl | exact absurd rfl ha

theorem OpStep.completions_le (h : OpStep v a v') : v.op.completions.length ≤ v'.op.completions.length := by
  cases h with
  | execSignal hp => simp
  | _ => exact Nat.le_refl _

/-- `start()` makes no step after it returned. -/
theorem OpStep.not_start (h : OpStep v a v') (hr : v.op.startPc = .returned) : a ≠ .start := by
  rintro rfl
  cases h with
  | startRegister hp | startStopped hp | startEmplaced hp | startLoad hp | startSchedule hp | startAssign hp =>
    exact absurd (hp.symm.trans hr) nofun

theorem OpStep.keeps_state (h : OpStep v a v') (ha : a ≠ .timer) (ha' : a ≠ .stop) : v'.op.state = v.op.state := by
  cases h <;> first | rfl | exact absurd rfl ha | exact absurd rfl ha'

theorem OpStep.keeps_stopPc (h : OpStep v a v') (ha : a ≠ .start) (ha' : a ≠ .stop) (ha'' : a ≠ .destroy) :
    v'.op.stopPc = v.op.stopPc := by
  cases h <;> first | rfl | exact absurd rfl ha | exact absurd rfl ha' | exact absurd rfl ha''

end Writes

/-! ## Ids -/

/-- The ids an operation passes on are its own, the one `ScheduleAt` returned. -/
structure OwnIds {σ : Type} (o : TimedOperation σ) : Prop where
  timerId : o.timerId = InvalidTimerId ∨ o.timerId = o.issuedId
  assigning : ∀ id, o.startPc = .assigning id → id = o.issuedId
  stopping : ∀ id, o.stopPc = .cancelling id → id = InvalidTimerId ∨ id = o.issuedId
  destroying : ∀ id, o.dtorPc = .cancelling id → id = InvalidTimerId ∨ id = o.issuedId
  fresh : o.startPc = .idle ∨ o.startPc = .emplacing ∨ o.startPc = .loading ∨ o.startPc = .scheduling →
    o.issuedId = InvalidTimerId

theorem OpStep.ownIds {σ : Type} {v v' : OpView σ} {a : OpAct} (h : OpStep v a v') (o : OwnIds v.op) :
    OwnIds v'.op := by
  obtain ⟨h1, h2, h3, h4, h5⟩ := o
  cases h
  case startRegister hp hs | startStopped hp hs => exact ⟨h1, nofun, nofun, h4, fun _ => h5 (.inl hp)⟩
  case startEmplaced hp hs => exact ⟨h1, nofun, h3, h4, fun _ => h5 (.inr (.inl hp))⟩
  case startLoad hp =>
    refine ⟨h1, fun id hid => ?_, h3, h4, fun _ => h5 (.inr (.inr (.inl hp)))⟩
    dsimp only at hid
    split at hid <;> cases hid
  case startSchedule id hp hid =>
    have h0 : v.op.issuedId = InvalidTimerId := h5 (.inr (.inr (.inr hp)))
    rw [h0] at h1 h3 h4
    refine ⟨.inl (by simpa using h1), by simp, fun id' hid' => .inl ?_, fun id' hid' => .inl ?_, by simp⟩
    · simpa using h3 id' hid'
    · simpa using h4 id' hid'
  case startAssign id hp => exact ⟨.inr (h2 id hp), nofun, h3, h4, by simp⟩
  case timerClear hp => exact ⟨.inl rfl, h2, h3, h4, h5⟩
  case stopTest hp =>
    refine ⟨h1, h2, fun id hid => ?_, h4, h5⟩
    dsimp only at hid
    split at hid <;> cases hid
  case stopExchange hp =>
    refine ⟨.inl rfl, h2, fun id hid => ?_, h4, h5⟩
    cases hid
    exact h1
  case stopBegin | stopCancel | stopWin | stopLose | stopEnqueue => exact ⟨h1, h2, nofun, h4, h5⟩
  case dtorEnter | dtorCancel => exact ⟨h1, h2, h3, nofun, h5⟩
  case dtorReset hp hs => exact ⟨h1, h2, nofun, nofun, h5⟩
  case dtorTest hp =>
    refine ⟨h1, h2, h3, fun id hid => ?_, h5⟩
    dsimp only at hid
    split at hid <;> cases hid
  case dtorRead hp =>
    refine ⟨h1, h2, h3, fun id hid => ?_, h5⟩
    cases hid
    exact h1
  all_goals exact ⟨h1, h2, h3, h4, h5⟩

variable {ι σ : Type} [DecidableEq ι] {B : ITimerBackend ι}

/-- The ids in use are kept apart: a timer of the backend belongs to the
operation that scheduled it, and no two operations have the same id. -/
structure Ids (C : B.Contract) (s : TimedLoop ι σ B) : Prop where
  valid : C.Valid s.now s.backend
  scheduled : ∀ {id d i}, (C.timers s.backend).scheduled id d i →
    id = (s.ops i).issuedId ∧ d = (s.ops i).deadline ∧ id ≠ InvalidTimerId
  running : ∀ {id i}, (C.timers s.backend).running id i →
    id = (s.ops i).issuedId ∧ id ≠ InvalidTimerId
  issued : ∀ i, (s.ops i).issuedId ≠ InvalidTimerId → (C.timers s.backend).issued (s.ops i).issuedId
  unique : ∀ i j, (s.ops i).issuedId = (s.ops j).issuedId → (s.ops i).issuedId ≠ InvalidTimerId → i = j
  own : ∀ i, OwnIds (s.ops i)

/-- The part of a state that the steps of the operation `i` read. -/
def view (C : B.Contract) (s : TimedLoop ι σ B) (i : ι) : OpView σ where
  op := s.ops i
  queued := s.queue.count i
  scheduled := (C.timers s.backend).scheduled (s.ops i).issuedId (s.ops i).deadline i
  running := (C.timers s.backend).running (s.ops i).issuedId i
  now := s.now
  stop := s.stopRequested (s.ops i).stopToken

theorem Ids.scheduled_ne {C : B.Contract} {s : TimedLoop ι σ B} (h : Ids C s) (i : ι)
    (hs : (view C s i).scheduled) : (view C s i).op.issuedId ≠ InvalidTimerId :=
  (h.scheduled hs).2.2

/-- What an action is for the operation `i`. -/
def TimedAction.on (i : ι) : TimedAction ι σ B → OpAct
  | .start j => if j = i then .start else .other
  | .timer j _ => if j = i then .timer else .other
  | .stop j => if j = i then .stop else .other
  | .dequeue j => if j = i then .dequeue else .other
  | .execute j => if j = i then .execute else .other
  | .destroy j => if j = i then .destroy else .other
  | _ => .other

section Frames

variable {C : B.Contract} {s : TimedLoop ι σ B} {i j : ι}

@[simp] theorem setOp_ops_self (o : TimedOperation σ) : (s.setOp i o).ops i = o := by
  simp [TimedLoop.setOp]
theorem setOp_ops_ne (h : i ≠ j) (o : TimedOperation σ) : (s.setOp j o).ops i = s.ops i := by
  simp [TimedLoop.setOp, h]
@[simp] theorem setOp_backend (o : TimedOperation σ) : (s.setOp i o).backend = s.backend := rfl
@[simp] theorem setOp_queue (o : TimedOperation σ) : (s.setOp i o).queue = s.queue := rfl
@[simp] theorem setOp_now (o : TimedOperation σ) : (s.setOp i o).now = s.now := rfl
@[simp] theorem setOp_stopRequested (o : TimedOperation σ) :
    (s.setOp i o).stopRequested = s.stopRequested := rfl

/-- A step on another operation that leaves the shared parts alone. -/
theorem view_setOp_ne (h : i ≠ j) (o : TimedOperation σ) : view C (s.setOp j o) i = view C s i := by
  simp only [view, setOp_ops_ne h, setOp_backend, setOp_queue, setOp_now, setOp_stopRequested]

theorem view_setOp_self {o : TimedOperation σ} (hd : o.deadline = (s.ops i).deadline)
    (ht : o.stopToken = (s.ops i).stopToken) (hi : o.issuedId = (s.ops i).issuedId) :
    view C (s.setOp i o) i = { view C s i with op := o } := by
  simp only [view, setOp_ops_self, setOp_backend, setOp_queue, setOp_now, setOp_stopRequested, hd, ht, hi]

/-- A step on the operation itself that keeps its deadline, token and id. -/
theorem OpStep.setOp {o : TimedOperation σ} {v : OpView σ} {a : OpAct}
    (h : OpStep v a { view C s i with op := o }) (hd : o.deadline = (s.ops i).deadline)
    (ht : o.stopToken = (s.ops i).stopToken) (hi : o.issuedId = (s.ops i).issuedId) :
    OpStep v a (view C (s.setOp i o) i) :=
  view_setOp_self hd ht hi ▸ h

theorem view_enqueue_self :
    view C (s.enqueue i) i = { view C s i with queued := (view C s i).queued + 1 } := by
  simp [view, TimedLoop.enqueue]

theorem view_enqueue_ne (h : i ≠ j) : view C (s.enqueue j) i = view C s i := by
  simp [view, TimedLoop.enqueue, List.count_append, h.symm]

theorem view_cancel_self {b : B.State} {id : TimerId}
    (ht : C.timers b = (C.timers s.backend).cancel id) :
    view C { s with backend := b } i =
      { view C s i with scheduled := (view C s i).scheduled ∧ (view C s i).op.issuedId ≠ id } := by
  simp [view, ht]

end Frames

/-! ## Every step is one of them -/

section View

variable {C : B.Contract} {s s' : TimedLoop ι σ B} {i j : ι}

omit [DecidableEq ι] in
/-- Dropping the timer of another operation's id leaves this one's alone. -/
theorem Ids.cancel_ne (h : Ids C s) (hij : i ≠ j) {id : TimerId}
    (hid : id = InvalidTimerId ∨ id = (s.ops j).issuedId) {d : TimePoint} :
    (C.timers s.backend).scheduled (s.ops i).issuedId d i ∧ (s.ops i).issuedId ≠ id ↔
      (C.timers s.backend).scheduled (s.ops i).issuedId d i := by
  refine ⟨And.left, fun hs => ⟨hs, fun he => ?_⟩⟩
  have hne := (h.scheduled hs).2.2
  rcases hid with rfl | rfl
  · exact hne he
  · exact hij (h.unique i j he hne)

theorem start_view (h : Ids C s) (he : s.start j = some s') (i : ι) :
    OpStep (view C s i) ((TimedAction.start j : TimedAction ι σ B).on i) (view C s' i) := by
  simp only [TimedAction.on]
  simp only [TimedLoop.start] at he
  by_cases hij : j = i
  · subst hij
    rw [if_pos rfl]
    split at he
    · rename_i hp
      split at he <;> cases he
      · exact OpStep.setOp (.startStopped (view C s j) hp ‹_›) rfl rfl rfl
      · rename_i hs
        exact OpStep.setOp (.startRegister (view C s j) hp ((Bool.not_eq_true _).mp hs)) rfl rfl rfl
    · rename_i hp
      split at he <;> cases he
      exact OpStep.setOp (.startEmplaced (view C s j) hp ‹_›) rfl rfl rfl
    · rename_i hp
      cases he
      exact OpStep.setOp (.startLoad (view C s j) hp) rfl rfl rfl
    · rename_i hp
      obtain ⟨⟨id, b⟩, hb, rfl⟩ := Option.map_eq_some_iff.mp he
      obtain ⟨-, hid, hnew, ht⟩ := C.scheduleAt_ok h.valid hb
      have hrun : ¬ (C.timers s.backend).running id j := fun hr =>
        hid ((h.running hr).1.trans ((h.own j).fresh (by simp [hp])))
      convert OpStep.startSchedule (view C s j) hp hid using 1
      refine OpView.ext ?_ rfl ?_ ?_ rfl ?_ <;> simp [view, ht, hrun]
    · rename_i id hp
      cases he
      exact OpStep.setOp (.startAssign (view C s j) hp) rfl rfl rfl
    · cases he
  · rw [if_neg hij]
    have hne : i ≠ j := Ne.symm hij
    refine .frame' ?_
    split at he
    · split at he <;> cases he <;> exact view_setOp_ne hne _
    · split at he <;> cases he
      exact view_setOp_ne hne _
    · cases he
      exact view_setOp_ne hne _
    · obtain ⟨⟨id, b⟩, hb, rfl⟩ := Option.map_eq_some_iff.mp he
      obtain ⟨-, -, -, ht⟩ := C.scheduleAt_ok h.valid hb
      rw [view_setOp_ne hne]
      refine OpView.ext rfl rfl ?_ ?_ rfl rfl <;> simp [view, ht, hne]
    · cases he
      exact view_setOp_ne hne _
    · cases he

theorem readsPending_iff {o : TimedOperation σ} {freed : Bool} (h : o.dtorPc ≠ .finished) :
    o.readsPending freed = true ↔ o.state = .pending := by
  simp [TimedOperation.readsPending, h]

theorem timer_view {freed : Bool} (he : s.timer j freed = some s') (i : ι) :
    OpStep (view C s i) ((TimedAction.timer j freed : TimedAction ι σ B).on i) (view C s' i) := by
  simp only [TimedAction.on]
  simp only [TimedLoop.timer] at he
  by_cases hij : j = i
  · subst hij
    rw [if_pos rfl]
    split at he <;> [skip; skip; skip; cases he; cases he; cases he]
    · rename_i hp
      cases he
      exact OpStep.setOp (.timerClear (view C s j) hp) rfl rfl rfl
    · rename_i hp
      split at he <;> cases he <;> rename_i hw
      · refine OpStep.setOp (.timerWin (view C s j) hp fun hf => ?_) rfl rfl rfl
        exact (readsPending_iff hf).mp hw
      · refine OpStep.setOp (.timerLose (view C s j) hp fun hf => ?_) rfl rfl rfl
        exact fun h => hw ((readsPending_iff hf).mpr h)
    · rename_i hp
      cases he
      refine OpStep.setOp ?_ rfl rfl rfl
      rw [view_enqueue_self]
      exact .timerEnqueue (view C s j) hp
  · rw [if_neg hij]
    have hne : i ≠ j := Ne.symm hij
    refine .frame' ?_
    split at he <;> [skip; skip; skip; cases he; cases he; cases he]
    · cases he
      exact view_setOp_ne hne _
    · split at he <;> cases he <;> exact view_setOp_ne hne _
    · cases he
      rw [view_setOp_ne hne, view_enqueue_ne hne]

theorem stop_view (h : Ids C s) (he : s.stop j = some s') (i : ι) :
    OpStep (view C s i) ((TimedAction.stop j : TimedAction ι σ B).on i) (view C s' i) := by
  simp only [TimedAction.on]
  simp only [TimedLoop.stop] at he
  by_cases hij : j = i
  · subst hij
    rw [if_pos rfl]
    split at he <;> [skip; skip; skip; skip; skip; skip; cases he; cases he; cases he] <;> rename_i hp
    · split at he <;> cases he
      exact OpStep.setOp (.stopBegin (view C s j) hp ‹_›) rfl rfl rfl
    · cases he
      exact OpStep.setOp (.stopTest (view C s j) hp) rfl rfl rfl
    · cases he
      exact OpStep.setOp (.stopExchange (view C s j) hp) rfl rfl rfl
    · obtain ⟨⟨r, b⟩, hb, rfl⟩ := Option.map_eq_some_iff.mp he
      obtain ⟨-, hr, -, ht⟩ := C.cancel_ok h.valid hb
      refine OpStep.setOp ?_ rfl rfl rfl
      rw [view_cancel_self ht]
      exact .stopCancel (view C s j) hp fun e hrun => hr j (by rw [e]; exact hrun)
    · split at he <;> cases he
      · exact OpStep.setOp (.stopWin (view C s j) hp ‹_›) rfl rfl rfl
      · exact OpStep.setOp (.stopLose (view C s j) hp ‹_›) rfl rfl rfl
    · cases he
      refine OpStep.setOp ?_ rfl rfl rfl
      rw [view_enqueue_self]
      exact .stopEnqueue (view C s j) hp
  · rw [if_neg hij]
    have hne : i ≠ j := Ne.symm hij
    refine .frame' ?_
    split at he <;> [skip; skip; skip; skip; skip; skip; cases he; cases he; cases he]
    · split at he <;> cases he
      exact view_setOp_ne hne _
    · cases he
      exact view_setOp_ne hne _
    · cases he
      exact view_setOp_ne hne _
    · rename_i id hp
      obtain ⟨⟨r, b⟩, hb, rfl⟩ := Option.map_eq_some_iff.mp he
      obtain ⟨-, -, -, ht⟩ := C.cancel_ok h.valid hb
      rw [view_setOp_ne hne]
      refine OpView.ext rfl rfl ?_ ?_ rfl rfl
      · simp only [view, ht, Timers.cancel_scheduled]
        exact propext (h.cancel_ne hne ((h.own j).stopping id hp))
      · simp [view, ht]
    · split at he <;> cases he <;> exact view_setOp_ne hne _
    · cases he
      rw [view_setOp_ne hne, view_enqueue_ne hne]

theorem destroy_view (h : Ids C s) (he : s.destroy j = some s') (i : ι) :
    OpStep (view C s i) ((TimedAction.destroy j : TimedAction ι σ B).on i) (view C s' i) := by
  simp only [TimedAction.on]
  simp only [TimedLoop.destroy] at he
  by_cases hij : j = i
  · subst hij
    rw [if_pos rfl]
    split at he <;> [skip; skip; skip; skip; skip; cases he] <;> rename_i hp
    · cases he
      exact OpStep.setOp (.dtorEnter (view C s j) hp) rfl rfl rfl
    · split at he <;> cases he
      rename_i hs
      exact OpStep.setOp (.dtorReset (view C s j) hp ((Bool.not_eq_true _).mp hs)) rfl rfl rfl
    · cases he
      exact OpStep.setOp (.dtorTest (view C s j) hp) rfl rfl rfl
    · cases he
      exact OpStep.setOp (.dtorRead (view C s j) hp) rfl rfl rfl
    · obtain ⟨⟨r, b⟩, hb, rfl⟩ := Option.map_eq_some_iff.mp he
      obtain ⟨-, hr, -, ht⟩ := C.cancel_ok h.valid hb
      refine OpStep.setOp ?_ rfl rfl rfl
      rw [view_cancel_self ht]
      exact .dtorCancel (view C s j) hp fun e hrun => hr j (by rw [e]; exact hrun)
  · rw [if_neg hij]
    have hne : i ≠ j := Ne.symm hij
    refine .frame' ?_
    split at he <;> [skip; skip; skip; skip; skip; cases he]
    · cases he
      exact view_setOp_ne hne _
    · split at he <;> cases he
      exact view_setOp_ne hne _
    · cases he
      exact view_setOp_ne hne _
    · cases he
      exact view_setOp_ne hne _
    · rename_i id hp
      obtain ⟨⟨r, b⟩, hb, rfl⟩ := Option.map_eq_some_iff.mp he
      obtain ⟨-, -, -, ht⟩ := C.cancel_ok h.valid hb
      rw [view_setOp_ne hne]
      refine OpView.ext rfl rfl ?_ ?_ rfl rfl
      · simp only [view, ht, Timers.cancel_scheduled]
        exact propext (h.cancel_ne hne ((h.own j).destroying id hp))
      · simp [view, ht]

theorem dequeue_view (he : s.dequeue j = some s') (i : ι) :
    OpStep (view C s i) ((TimedAction.dequeue j : TimedAction ι σ B).on i) (view C s' i) := by
  simp only [TimedAction.on]
  simp only [TimedLoop.dequeue] at he
  split at he <;> cases he
  rename_i hq
  by_cases hij : j = i
  · subst hij
    rw [if_pos rfl]
    refine OpStep.setOp ?_ rfl rfl rfl
    have hv : view C { s with queue := s.queue.erase j } j =
        { view C s j with queued := (view C s j).queued - 1 } := by
      simp [view, List.count_erase_self]
    rw [hv]
    exact .dequeue (view C s j) (List.count_pos_iff.mpr hq)
  · rw [if_neg hij]
    refine .frame' ?_
    rw [view_setOp_ne (Ne.symm hij)]
    simp only [view, List.count_erase_of_ne (Ne.symm hij)]

theorem execute_view (he : s.execute j = some s') (i : ι) :
    OpStep (view C s i) ((TimedAction.execute j : TimedAction ι σ B).on i) (view C s' i) := by
  simp only [TimedAction.on]
  simp only [TimedLoop.execute] at he
  by_cases hij : j = i
  · subst hij
    rw [if_pos rfl]
    split at he <;> cases he <;> rename_i hp
    · exact OpStep.setOp (.execLoad (view C s j) hp) rfl rfl rfl
    · exact OpStep.setOp (.execSignal (view C s j) hp) rfl rfl rfl
  · rw [if_neg hij]
    refine .frame' ?_
    split at he <;> cases he <;> exact view_setOp_ne (Ne.symm hij) _

theorem fire_view (h : Ids C s) {id : TimerId} (he : s.fire id = some s') (i : ι) :
    OpStep (view C s i) .other (view C s' i) := by
  simp only [TimedLoop.fire] at he
  obtain ⟨⟨j, b⟩, hb, rfl⟩ := Option.map_eq_some_iff.mp he
  obtain ⟨-, ⟨d, hd, hs⟩, ht⟩ := C.fire_ok h.valid hb
  obtain ⟨rfl, rfl, hid⟩ := h.scheduled hs
  by_cases hij : j = i
  · subst hij
    refine OpStep.setOp ?_ rfl rfl rfl
    have hv : view C { s with backend := b } j =
        { view C s j with scheduled := False, running := True } := by
      simp [view, ht]
    rw [hv]
    exact .fire (view C s j) hid hs hd
  · refine .frame' ?_
    rw [view_setOp_ne (Ne.symm hij)]
    refine OpView.ext rfl rfl ?_ ?_ rfl rfl
    · simp only [view, ht, Timers.fire_scheduled]
      exact propext (h.cancel_ne (Ne.symm hij) (.inr rfl))
    · simp [view, ht, Ne.symm hij]

theorem done_view (h : Ids C s) {id : TimerId} (he : s.done id = some s') (i : ι) :
    OpStep (view C s i) .other (view C s' i) := by
  simp only [TimedLoop.done, Option.bind_eq_some_iff] at he
  obtain ⟨⟨j, b⟩, hb, he⟩ := he
  split at he <;> cases he
  rename_i hp
  obtain ⟨-, hr, ht⟩ := C.done_ok h.valid hb
  obtain ⟨rfl, hid⟩ := h.running hr
  by_cases hij : j = i
  · subst hij
    refine OpStep.setOp ?_ rfl rfl rfl
    have hv : view C { s with backend := b } j = { view C s j with running := False } := by
      simp [view, ht]
    rw [hv]
    exact .done (view C s j) hp hr
  · refine .frame' ?_
    rw [view_setOp_ne (Ne.symm hij)]
    refine OpView.ext rfl rfl ?_ ?_ rfl rfl
    · simp [view, ht]
    · simp only [view, ht, Timers.done_running]
      refine propext ⟨And.left, fun hri => ⟨hri, fun e => hij ?_⟩⟩
      exact (h.unique i j e (h.running hri).2).symm

/-- Every step of the system is, for each operation, one of `OpStep`. -/
theorem step_view [DecidableEq σ] (h : Ids C s) {a : TimedAction ι σ B} (he : s.step a = some s')
    (i : ι) : OpStep (view C s i) (a.on i) (view C s' i) := by
  cases a with
  | start j => exact start_view h he i
  | timer j freed => exact timer_view he i
  | stop j => exact stop_view h he i
  | dequeue j => exact dequeue_view he i
  | execute j => exact execute_view he i
  | destroy j => exact destroy_view h he i
  | requestStop token =>
    cases he
    by_cases ht : (s.ops i).stopToken = token
    · have hv : view C { s with stopRequested := Function.update s.stopRequested token true } i =
          { view C s i with stop := true } := by
        simp [view, ht]
      rw [hv]
      exact .requestStop (view C s i)
    · refine .frame' ?_
      simp [view, ht]
  | clock now =>
    simp only [TimedLoop.step] at he
    split at he <;> cases he
    exact .clock (view C s i) ‹_›
  | backend a =>
    simp only [TimedLoop.step] at he
    obtain ⟨b, hb, rfl⟩ := Option.map_eq_some_iff.mp he
    obtain ⟨-, ht⟩ := C.internal_ok h.valid hb
    refine .frame' ?_
    simp only [view, ht]
  | fire id => exact fire_view h he i
  | done id => exact done_view h he i

/-! ## The ids stay apart -/

/-- Replacing an operation by one with the same deadline and id. -/
theorem Ids.setOp (h : Ids C s) {o : TimedOperation σ} (hd : o.deadline = (s.ops j).deadline)
    (hi : o.issuedId = (s.ops j).issuedId) (ho : OwnIds o) : Ids C (s.setOp j o) := by
  have hid : ∀ i, ((s.setOp j o).ops i).issuedId = (s.ops i).issuedId ∧
      ((s.setOp j o).ops i).deadline = (s.ops i).deadline := by
    intro i
    by_cases hij : i = j
    · subst hij
      simp [hi, hd]
    · simp [setOp_ops_ne hij]
  refine ⟨h.valid, fun {id d i} hs => ?_, fun {id i} hr => ?_, fun i => ?_, fun i k => ?_, fun i => ?_⟩
  · rw [(hid i).1, (hid i).2]; exact h.scheduled hs
  · rw [(hid i).1]; exact h.running hr
  · rw [(hid i).1]; exact h.issued i
  · rw [(hid i).1, (hid k).1]; exact h.unique i k
  · by_cases hij : i = j
    · subst hij
      simpa using ho
    · rw [setOp_ops_ne hij]; exact h.own i

omit [DecidableEq ι] in
/-- A step of the backend that schedules nothing. -/
theorem Ids.backend (h : Ids C s) {b : B.State} (hv : C.Valid s.now b)
    (hs : ∀ {id d i}, (C.timers b).scheduled id d i → (C.timers s.backend).scheduled id d i)
    (hr : ∀ {id i}, (C.timers b).running id i →
      (C.timers s.backend).running id i ∨ ∃ d, (C.timers s.backend).scheduled id d i)
    (hi : (C.timers b).issued = (C.timers s.backend).issued) : Ids C { s with backend := b } where
  valid := hv
  scheduled := fun hb => h.scheduled (hs hb)
  running := fun hb => by
    rcases hr hb with hr | ⟨d, hd⟩
    · exact h.running hr
    · exact ⟨(h.scheduled hd).1, (h.scheduled hd).2.2⟩
  issued := fun i hne => by
    show (C.timers b).issued _
    rw [hi]
    exact h.issued i hne
  unique := h.unique
  own := h.own

omit [DecidableEq ι] in
theorem Ids.cancel (h : Ids C s) {b : B.State} {id : TimerId} {r : Bool}
    (hb : B.cancel s.backend id = some (r, b)) : Ids C { s with backend := b } := by
  obtain ⟨hv, -, -, ht⟩ := C.cancel_ok h.valid hb
  refine h.backend hv ?_ ?_ ?_ <;> rw [ht]
  · exact fun hs => hs.1
  · exact fun hr => .inl hr
  · rfl

/-- `ScheduleAt` hands the operation an id of its own. -/
theorem Ids.schedule (h : Ids C s) {b : B.State} {id : TimerId} {o : TimedOperation σ}
    (hb : B.scheduleAt s.backend (s.ops j).deadline j = some (id, b))
    (hf : (s.ops j).issuedId = InvalidTimerId) (hd : o.deadline = (s.ops j).deadline)
    (hi : o.issuedId = id) (ho : OwnIds o) : Ids C ({ s with backend := b }.setOp j o) := by
  obtain ⟨hv, hid, hnew, ht⟩ := C.scheduleAt_ok h.valid hb
  have hj : ∀ {i}, i ≠ j → (({ s with backend := b } : TimedLoop ι σ B).setOp j o).ops i = s.ops i :=
    fun hne => setOp_ops_ne hne o
  refine ⟨hv, fun {id' d' i} hs => ?_, fun {id' i} hr => ?_, fun i => ?_, fun i k => ?_, fun i => ?_⟩
  · rw [setOp_backend, ht, Timers.schedule_scheduled] at hs
    rcases hs with hs | ⟨rfl, rfl, rfl⟩
    · obtain ⟨h1, h2, h3⟩ := h.scheduled hs
      have hij : i ≠ j := fun e => h3 (by rw [h1, e, hf])
      rw [hj hij]
      exact ⟨h1, h2, h3⟩
    · rw [setOp_ops_self]
      exact ⟨hi.symm, hd.symm, hid⟩
  · rw [setOp_backend, ht, Timers.schedule_running] at hr
    obtain ⟨h1, h2⟩ := h.running hr
    have hij : i ≠ j := fun e => h2 (by rw [h1, e, hf])
    rw [hj hij]
    exact ⟨h1, h2⟩
  · rw [setOp_backend, ht]
    by_cases hij : i = j
    · subst hij
      rw [setOp_ops_self]
      exact fun _ => .inr hi
    · rw [hj hij]
      exact fun hne => .inl (h.issued i hne)
  · -- An id handed out before is not the new one.
    have hold : ∀ i, i ≠ j → (s.ops i).issuedId ≠ id := fun i _ e => by
      by_cases h0 : (s.ops i).issuedId = InvalidTimerId
      · exact hid (e ▸ h0)
      · exact hnew (e ▸ h.issued i h0)
    by_cases hij : i = j <;> by_cases hkj : k = j
    · exact fun _ _ => hij.trans hkj.symm
    · subst hij
      rw [setOp_ops_self, hj hkj, hi]
      exact fun e _ => absurd e.symm (hold k hkj)
    · subst hkj
      rw [setOp_ops_self, hj hij, hi]
      exact fun e _ => absurd e (hold i hij)
    · rw [hj hij, hj hkj]
      exact h.unique i k
  · by_cases hij : i = j
    · subst hij
      rw [setOp_ops_self]
      exact ho
    · rw [hj hij]
      exact h.own i

theorem Ids.step [DecidableEq σ] (h : Ids C s) {a : TimedAction ι σ B} (he : s.step a = some s') :
    Ids C s' := by
  have own : ∀ i, OwnIds (s'.ops i) := fun i => (step_view h he i).ownIds (h.own i)
  -- Most steps replace one operation by one with the same deadline and id.
  have set : ∀ (s₁ : TimedLoop ι σ B) {j : ι} {o : TimedOperation σ}, Ids C s₁ → s' = s₁.setOp j o →
      o.deadline = (s₁.ops j).deadline → o.issuedId = (s₁.ops j).issuedId → Ids C s' := by
    rintro s₁ j o h₁ rfl hd hi
    exact h₁.setOp hd hi (by simpa using own j)
  cases a with
  | start j =>
    simp only [TimedLoop.step, TimedLoop.start] at he
    split at he
    · split at he <;> cases he <;> exact set s h rfl rfl rfl
    · split at he <;> cases he
      exact set s h rfl rfl rfl
    · cases he
      exact set s h rfl rfl rfl
    · rename_i hp
      obtain ⟨⟨id, b⟩, hb, rfl⟩ := Option.map_eq_some_iff.mp he
      exact h.schedule hb ((h.own j).fresh (by simp [hp])) rfl rfl (by simpa using own j)
    · cases he
      exact set s h rfl rfl rfl
    · cases he
  | timer j freed =>
    simp only [TimedLoop.step, TimedLoop.timer] at he
    split at he <;> [skip; skip; skip; cases he; cases he; cases he]
    · cases he
      exact set s h rfl rfl rfl
    · split at he <;> cases he <;> exact set s h rfl rfl rfl
    · cases he
      exact set (s.enqueue j) ⟨h.valid, h.scheduled, h.running, h.issued, h.unique, h.own⟩
        rfl rfl rfl
  | stop j =>
    simp only [TimedLoop.step, TimedLoop.stop] at he
    split at he <;> [skip; skip; skip; skip; skip; skip; cases he; cases he; cases he]
    · split at he <;> cases he
      exact set s h rfl rfl rfl
    · cases he
      exact set s h rfl rfl rfl
    · cases he
      exact set s h rfl rfl rfl
    · obtain ⟨⟨r, b⟩, hb, rfl⟩ := Option.map_eq_some_iff.mp he
      exact set _ (h.cancel hb) rfl rfl rfl
    · split at he <;> cases he <;> exact set s h rfl rfl rfl
    · cases he
      exact set (s.enqueue j) ⟨h.valid, h.scheduled, h.running, h.issued, h.unique, h.own⟩
        rfl rfl rfl
  | dequeue j =>
    simp only [TimedLoop.step, TimedLoop.dequeue] at he
    split at he <;> cases he
    exact set { s with queue := s.queue.erase j }
      ⟨h.valid, h.scheduled, h.running, h.issued, h.unique, h.own⟩ rfl rfl rfl
  | execute j =>
    simp only [TimedLoop.step, TimedLoop.execute] at he
    split at he <;> cases he <;> exact set s h rfl rfl rfl
  | destroy j =>
    simp only [TimedLoop.step, TimedLoop.destroy] at he
    split at he <;> [skip; skip; skip; skip; skip; cases he]
    · cases he
      exact set s h rfl rfl rfl
    · split at he <;> cases he
      exact set s h rfl rfl rfl
    · cases he
      exact set s h rfl rfl rfl
    · cases he
      exact set s h rfl rfl rfl
    · obtain ⟨⟨r, b⟩, hb, rfl⟩ := Option.map_eq_some_iff.mp he
      exact set _ (h.cancel hb) rfl rfl rfl
  | requestStop token =>
    cases he
    exact ⟨h.valid, h.scheduled, h.running, h.issued, h.unique, h.own⟩
  | clock now =>
    simp only [TimedLoop.step] at he
    split at he <;> cases he
    exact ⟨C.valid_mono ‹_› h.valid, h.scheduled, h.running, h.issued, h.unique, h.own⟩
  | backend a =>
    simp only [TimedLoop.step] at he
    obtain ⟨b, hb, rfl⟩ := Option.map_eq_some_iff.mp he
    obtain ⟨hv, ht⟩ := C.internal_ok h.valid hb
    exact h.backend hv (fun hs => ht ▸ hs) (fun hr => .inl (ht ▸ hr)) (by rw [ht])
  | fire id =>
    simp only [TimedLoop.step, TimedLoop.fire] at he
    obtain ⟨⟨j, b⟩, hb, rfl⟩ := Option.map_eq_some_iff.mp he
    obtain ⟨hv, ⟨d, -, hd⟩, ht⟩ := C.fire_ok h.valid hb
    refine set _ (h.backend hv ?_ ?_ ?_) rfl rfl rfl <;> rw [ht]
    · exact fun hs => hs.1
    · rintro id' i (hr | ⟨rfl, rfl⟩)
      · exact .inl hr
      · exact .inr ⟨d, hd⟩
    · rfl
  | done id =>
    simp only [TimedLoop.step, TimedLoop.done, Option.bind_eq_some_iff] at he
    obtain ⟨⟨j, b⟩, hb, he⟩ := he
    split at he <;> cases he
    obtain ⟨hv, -, ht⟩ := C.done_ok h.valid hb
    refine set _ (h.backend hv ?_ ?_ ?_) rfl rfl rfl <;> rw [ht]
    · exact fun hs => hs
    · exact fun hr => .inl hr.1
    · rfl

end View

variable {C : B.Contract} {now : TimePoint} {deadline : ι → TimePoint} {token : ι → σ}

omit [DecidableEq ι] in
theorem Ids.init : Ids C (TimedLoop.init B now deadline token) where
  valid := C.valid_init now
  scheduled := fun h => by
    simp only [TimedLoop.init, C.timers_init, Timers.empty] at h
  running := fun h => by
    simp only [TimedLoop.init, C.timers_init, Timers.empty] at h
  issued := fun _ h => absurd rfl h
  unique := fun _ _ _ h => absurd rfl h
  own := fun i => by
    constructor <;> simp [TimedLoop.init]

end TX.Exec
