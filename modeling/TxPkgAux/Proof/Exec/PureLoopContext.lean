import TxPkgAux.Impl.Exec.PureLoopContext

/-!
# `PureLoopContext::DrainQueue` is greedy

`LoopEffect` says what the tasks do, without the queue: the calls of a program one after
another, and for an operation the program of its receiver that the stop token asks for.

`Drained` is what holds after each turn of the loop: what was executed and what still waits is
what was queued before and what was enqueued since, in this order, each operation completed
with what its stop token said then, and the events, the stop sources and the memory are those of
the tasks that were executed. `drainTurn_drained` is one turn, `turns_drained` any number of them,
and `drainQueue_greedy` the call: where the number of tasks is finite, it ends, and all of them
were executed.
-/

namespace TX.Exec

variable {τ σ μ : Type}

/-! ## The tasks of a log -/

/-- The tasks that were enqueued, in their order. -/
def enqueuedIn (log : List (LoopEvent τ σ)) : List τ :=
  (log.filterMap fun | .enqueued task => some task | .executed _ _ | .stopped _ => none).reverse

/-- The tasks that were executed, in their order. -/
def executedIn (log : List (LoopEvent τ σ)) : List τ :=
  (log.filterMap fun | .executed task _ => some task | .enqueued _ | .stopped _ => none).reverse

@[simp] theorem enqueuedIn_nil : enqueuedIn ([] : List (LoopEvent τ σ)) = [] := rfl

@[simp] theorem executedIn_nil : executedIn ([] : List (LoopEvent τ σ)) = [] := rfl

@[simp] theorem enqueuedIn_append (new log : List (LoopEvent τ σ)) :
    enqueuedIn (new ++ log) = enqueuedIn log ++ enqueuedIn new := by
  simp [enqueuedIn]

@[simp] theorem executedIn_append (new log : List (LoopEvent τ σ)) :
    executedIn (new ++ log) = executedIn log ++ executedIn new := by
  simp [executedIn]

/-- Events that execute no task. -/
theorem executedIn_of_none {new : List (LoopEvent τ σ)} (h : ∀ task signal, .executed task signal ∉ new) :
    executedIn new = [] := by
  rw [executedIn, List.reverse_eq_nil_iff, List.filterMap_eq_nil_iff]
  intro ev hev
  cases ev with
  | executed task signal => exact absurd hev (h task signal)
  | enqueued _ | stopped _ => rfl

/-- The signal of a task, where `stopped` tells the stop sources that were requested. -/
def Completes (tasks : τ → LoopTask τ σ μ) (stopped : σ → Prop) (task : τ) (signal : Option Signal) : Prop :=
  match tasks task with
  | .operation receiver => signal = some .setStopped ∧ stopped receiver.stopToken ∨
      signal = some .setValue ∧ ¬ stopped receiver.stopToken
  | .node _ => signal = none

/-! ## What the tasks do -/

/-- What code did, newest first, and what it left: the stop sources and the memory. -/
structure LoopEffect (τ σ μ : Type) where
  events : List (LoopEvent τ σ) := []
  stopRequested : σ → Bool
  memory : μ

namespace LoopEffect

variable [DecidableEq σ]

/-- The calls of a program, one after another. -/
def program (e : LoopEffect τ σ μ) : LoopProgram τ σ μ → LoopEffect τ σ μ
  | .done memory => { e with memory }
  | .enqueue task k => { e with events := .enqueued task :: e.events }.program k
  | .requestStop source k =>
    { e with
      events := .stopped source :: e.events
      stopRequested := Function.update e.stopRequested source true }.program k
  | .stopRequested source k => e.program (k (e.stopRequested source))

/-- The signal that the stop token asks for. -/
def signal (e : LoopEffect τ σ μ) : LoopTask τ σ μ → Option Signal
  | .operation receiver => some (if e.stopRequested receiver.stopToken then .setStopped else .setValue)
  | .node _ => none

/-- The code of the task, which is executed with this signal. -/
def code (signal : Option Signal) (memory : μ) : LoopTask τ σ μ → LoopProgram τ σ μ
  | .operation receiver =>
    if signal = some .setStopped then receiver.setStopped memory else receiver.setValue memory
  | .node execute => execute memory

/-- The task is executed. -/
def task (tasks : τ → LoopTask τ σ μ) (e : LoopEffect τ σ μ) (task : τ) : LoopEffect τ σ μ :=
  let signal := e.signal (tasks task)
  { e with events := .executed task signal :: e.events }.program (code signal e.memory (tasks task))

end LoopEffect

namespace PureLoopContext

variable [DecidableEq σ] {tasks : τ → LoopTask τ σ μ} {c c' c'' : PureLoopContext τ σ μ}

/-- What holds after some turns of the loop, whose events are `new`. -/
structure Drained (tasks : τ → LoopTask τ σ μ) (c c' : PureLoopContext τ σ μ) (new : List (LoopEvent τ σ)) :
    Prop where
  log : c'.log = new ++ c.log
  order : executedIn new ++ c'.queue = c.queue ++ enqueuedIn new
  stopped : ∀ x, c'.stopRequested x = true ↔ c.stopRequested x = true ∨ .stopped x ∈ new
  signal : ∀ task signal before, .executed task signal :: before <:+ new →
    Completes tasks (fun x => c.stopRequested x = true ∨ .stopped x ∈ before) task signal
  effect : (executedIn new).foldl (LoopEffect.task tasks) ⟨[], c.stopRequested, c.memory⟩ =
    ⟨new, c'.stopRequested, c'.memory⟩

theorem Drained.refl (c : PureLoopContext τ σ μ) : Drained tasks c c [] where
  log := rfl
  order := by simp
  stopped := by simp
  signal := by simp
  effect := rfl

/-! ## A turn -/

/-- A program enqueues at the end, and executes nothing. -/
theorem runProgram_ok (p : LoopProgram τ σ μ) (c : PureLoopContext τ σ μ) :
    ∃ new, (c.runProgram p).log = new ++ c.log ∧ (∀ task signal, .executed task signal ∉ new) ∧
      (c.runProgram p).queue = c.queue ++ enqueuedIn new ∧
      (∀ x, (c.runProgram p).stopRequested x = true ↔ c.stopRequested x = true ∨ .stopped x ∈ new) ∧
      ∀ events, LoopEffect.program ⟨events, c.stopRequested, c.memory⟩ p =
        ⟨new ++ events, (c.runProgram p).stopRequested, (c.runProgram p).memory⟩ := by
  induction p generalizing c with
  | done memory => exact ⟨[], rfl, by simp, by simp [runProgram], by simp [runProgram], fun _ => rfl⟩
  | enqueue task k ih =>
    obtain ⟨new, hlog, hno, hqueue, hstop, heffect⟩ := ih (c.enqueue task)
    refine ⟨new ++ [.enqueued task], by simpa [runProgram, enqueue] using hlog, by simpa using hno, ?_,
      fun x => ?_, fun events => ?_⟩
    · rw [runProgram, hqueue, enqueuedIn_append, enqueue, List.append_assoc]
      rfl
    · rw [runProgram, hstop]
      simp [enqueue]
    · rw [List.append_assoc]
      exact heffect (.enqueued task :: events)
  | requestStop source k ih =>
    obtain ⟨new, hlog, hno, hqueue, hstop, heffect⟩ := ih (c.requestStop source)
    refine ⟨new ++ [.stopped source], by simpa [runProgram, requestStop] using hlog, by simpa using hno, ?_,
      fun x => ?_, fun events => ?_⟩
    · rw [runProgram, hqueue, enqueuedIn_append]
      rfl
    · rw [runProgram, hstop, requestStop, List.mem_append, List.mem_singleton, LoopEvent.stopped.injEq]
      by_cases hx : x = source
      · simp [hx]
      · simp [hx]
    · rw [List.append_assoc]
      exact heffect (.stopped source :: events)
  | stopRequested source k ih => exact ih (c.stopRequested source) c

/-- A turn takes the first task, and executes it with the signal that its stop token asks for. -/
theorem drainTurn_cases (h : drainTurn tasks c = some c') :
    ∃ task queue signal p, c.queue = task :: queue ∧
      Completes tasks (fun x => c.stopRequested x = true) task signal ∧
      c' = { c with queue, log := .executed task signal :: c.log }.runProgram p ∧
      ∀ events, LoopEffect.task tasks ⟨events, c.stopRequested, c.memory⟩ task =
        LoopEffect.program ⟨.executed task signal :: events, c.stopRequested, c.memory⟩ p := by
  obtain ⟨⟨task, c₁⟩, hd, rfl⟩ := Option.map_eq_some_iff.mp h
  simp only [tryDequeue] at hd
  split at hd <;> cases hd
  rename_i queue hqueue
  simp only [execute, Completes, LoopEffect.task, LoopEffect.signal, LoopEffect.code]
  cases htask : tasks task with
  | operation receiver =>
    by_cases hstop : c.stopRequested receiver.stopToken = true
    · exact ⟨task, queue, some .setStopped, receiver.setStopped c.memory, hqueue,
        by simp [htask, hstop], by simp [hstop], by simp [htask, hstop]⟩
    · exact ⟨task, queue, some .setValue, receiver.setValue c.memory, hqueue,
        by simp [htask, hstop], by simp [hstop], by simp [htask, hstop]⟩
  | node execute =>
    exact ⟨task, queue, none, execute c.memory, hqueue, by simp only [htask], rfl, by simp [htask]⟩

theorem drainTurn_drained {new : List (LoopEvent τ σ)} (h : Drained tasks c c' new)
    (ht : drainTurn tasks c' = some c'') :
    ∃ new', Drained tasks c c'' new' ∧ (executedIn new').length = (executedIn new).length + 1 := by
  obtain ⟨task, queue, signal, p, hqueue, hsignal, rfl, htask⟩ := drainTurn_cases ht
  obtain ⟨more, hlog, hno, hq, hstop, heffect⟩ :=
    runProgram_ok p { c' with queue, log := .executed task signal :: c'.log }
  have hexec : executedIn (more ++ .executed task signal :: new) = executedIn new ++ [task] := by
    rw [executedIn_append, executedIn_of_none hno, List.append_nil]
    exact executedIn_append [.executed task signal] new
  have henq : enqueuedIn (more ++ .executed task signal :: new) = enqueuedIn new ++ enqueuedIn more := by
    rw [enqueuedIn_append]
    exact congrArg (· ++ enqueuedIn more) ((enqueuedIn_append [.executed task signal] new).trans (List.append_nil _))
  refine ⟨more ++ .executed task signal :: new, ⟨?_, ?_, ?_, ?_, ?_⟩, ?_⟩
  · rw [hlog, h.log, List.append_assoc]
    rfl
  · rw [hexec, henq, hq, ← List.append_assoc c.queue, ← h.order, hqueue]
    simp
  · intro x
    rw [hstop, h.stopped, List.mem_append, List.mem_cons]
    grind
  · intro t g before hs
    obtain heq | hs := List.suffix_cons_iff.mp (suffix_of_notMem (hno t g) hs)
    · cases heq
      simpa only [h.stopped] using hsignal
    · exact h.signal t g before hs
  · rw [hexec, List.foldl_append, h.effect, List.foldl_cons, List.foldl_nil, htask]
    exact heffect (.executed task signal :: new)
  · rw [hexec, List.length_append]
    rfl

/-! ## The drain -/

theorem turns_drained {k : Nat} (hk : Loop.Makes (drainTurn tasks) k c) :
    ∃ new, Drained tasks c (Loop.turns (drainTurn tasks) k c) new ∧ (executedIn new).length = k := by
  induction k with
  | zero => exact ⟨[], .refl c, rfl⟩
  | succ k ih =>
    obtain ⟨new, hd, hlen⟩ := ih fun j hj => hk j (Nat.lt_succ_of_lt hj)
    obtain ⟨new', hd', hlen'⟩ := drainTurn_drained hd (hk.turn_some (Nat.lt_succ_self k))
    exact ⟨new', hd', by rw [hlen', hlen]⟩

theorem drainTurn_none (h : drainTurn tasks c = none) : c.queue = [] := by
  have hd := Option.map_eq_none_iff.mp h
  simp only [tryDequeue] at hd
  split at hd
  · assumption
  · cases hd

end PureLoopContext

open PureLoopContext in
/-- Where the tasks that it finds and that are enqueued while it runs are finitely many,
`DrainQueue` ends. It has executed each of them once, in the order they were enqueued, returns
their number, and leaves the queue empty, so that a next call does nothing. An operation is
completed with `set_stopped` exactly where its stop source was requested before the call or
before its turn, and what happened and was left is what these tasks do, one after another. -/
theorem drainQueue_greedy [DecidableEq σ] (tasks : τ → LoopTask τ σ μ) (c : PureLoopContext τ σ μ)
    (hfinite : ∃ N, ∀ k, (enqueuedIn (Loop.turns (drainTurn tasks) k c).log).length ≤ N) :
    ∃ n c' new, (∀ fuel > n, drainQueue tasks fuel c = some (n, c')) ∧ c'.log = new ++ c.log ∧
      executedIn new = c.queue ++ enqueuedIn new ∧ n = (executedIn new).length ∧ c'.queue = [] ∧
      (∀ fuel > 0, drainQueue tasks fuel c' = some (0, c')) ∧
      (∀ task signal before, .executed task signal :: before <:+ new →
        Completes tasks (fun x => c.stopRequested x = true ∨ .stopped x ∈ before) task signal) ∧
      (executedIn new).foldl (LoopEffect.task tasks) ⟨[], c.stopRequested, c.memory⟩ =
        ⟨new, c'.stopRequested, c'.memory⟩ := by
  obtain ⟨N, hN⟩ := hfinite
  have hbound : ∀ k, Loop.Makes (drainTurn tasks) k c → k ≤ c.queue.length + N := by
    intro k hk
    obtain ⟨new, hd, hlen⟩ := turns_drained hk
    have hnew : (enqueuedIn new).length ≤ N := by
      refine le_trans ?_ (hN k)
      rw [hd.log, enqueuedIn_append, List.length_append]
      exact Nat.le_add_left _ _
    have horder := congrArg List.length hd.order
    simp only [List.length_append] at horder
    omega
  obtain ⟨n, -, hmakes, hend, hrun⟩ := Loop.run_of_bounded hbound 0
  obtain ⟨new, hd, hlen⟩ := turns_drained hmakes
  have hempty := drainTurn_none hend
  have horder := hd.order
  rw [hempty, List.append_nil] at horder
  rw [Nat.zero_add] at hrun
  refine ⟨n, _, new, hrun, hd.log, horder, hlen.symm, hempty, ?_, hd.signal, hd.effect⟩
  intro fuel hfuel
  exact Loop.run_eq (n := 0) (fun j hj => absurd hj (Nat.not_lt_zero j)) hend hfuel 0

/-- The first of two operations starts a third one and requests the stop: the two others are
stopped by the same drain. -/
theorem drainQueue_greedy_stop :
    let tasks : Nat → LoopTask Nat Unit Unit := fun task => .operation {
      stopToken := ()
      setValue := fun _ => if task = 0 then .enqueue 2 (.requestStop () (.done ())) else .done ()
      setStopped := fun _ => .done () }
    let c : PureLoopContext Nat Unit Unit := { queue := [0, 1], stopRequested := fun _ => false, memory := () }
    ∃ c' new, (∀ fuel > 3, PureLoopContext.drainQueue tasks fuel c = some (3, c')) ∧ c'.log = new ++ c.log ∧
      executedIn new = [0, 1, 2] ∧ c'.queue = [] ∧
      new = [.executed 2 (some .setStopped), .executed 1 (some .setStopped), .stopped (), .enqueued 2,
        .executed 0 (some .setValue)] := by
  intro tasks c
  have hend : PureLoopContext.drainTurn tasks (Loop.turns (PureLoopContext.drainTurn tasks) 3 c) = none := rfl
  have hmakes : Loop.Makes (PureLoopContext.drainTurn tasks) 3 c := by
    intro j hj
    obtain rfl | rfl | rfl : j = 0 ∨ j = 1 ∨ j = 2 := by omega
    all_goals exact Option.some_ne_none _
  obtain ⟨n, c', new, hrun, hlog, -, -, hempty, -⟩ := drainQueue_greedy tasks c
    ⟨1, Loop.turns_forall (P := fun c => (enqueuedIn (PureLoopContext.log c)).length ≤ 1) hend (by decide)⟩
  have hthree := (hrun (n + 4) (by omega)).symm.trans (Loop.run_eq hmakes hend (by omega) 0)
  simp only [Option.some.injEq, Prod.mk.injEq] at hthree
  obtain ⟨rfl, rfl⟩ := hthree
  obtain rfl : _ = new := hlog.trans (List.append_nil new)
  exact ⟨_, _, hrun, hlog, rfl, hempty, rfl⟩

end TX.Exec
