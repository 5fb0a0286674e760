import TxPkgAux.Impl.RunLoop.Domains
import TxPkgAux.Proof.RunLoop.CompositeHandler

/-!
# The exit code that was requested

`Domain::Stopped` and `AsioDomain::Completed` leave alone an exit code that was requested,
`Domain::Completed` does not. So `Stop` keeps the code if and only if no sender of an
`Exec::Domain` completes with another value inside it (`stop_keeps_exitCode_iff`).
-/

namespace TX.RunLoop

variable {ι σ : Type}

/-! ## Stopping a tree -/

theorem stopEach_append {ω : Type} (hs hs' : List (Handler ω)) (w : ω) :
    stopEach (hs ++ hs') w = stopEach hs' (stopEach hs w) := by
  simp [stopEach]

mutual

/-- Stopping a tree stops its leaves, the last one first. -/
theorem HandlerTree.stop_leaves {ω : Type} (leaf : ι → Handler ω) : (t : HandlerTree ι) → (w : ω) →
    (t.handler leaf).stop w = stopEach (t.leaves.reverse.map leaf) w
  | .leaf i, w => rfl
  | .composite ts, w => by
    rw [HandlerTree.handler, HandlerTree.leaves]
    exact HandlerTree.stop_leavesOf leaf ts w

theorem HandlerTree.stop_leavesOf {ω : Type} (leaf : ι → Handler ω) : (ts : List (HandlerTree ι)) → (w : ω) →
    stopEach (HandlerTree.handlers leaf ts).reverse w = stopEach ((HandlerTree.leavesOf ts).reverse.map leaf) w
  | [], w => rfl
  | t :: ts, w => by
    rw [HandlerTree.handlers, HandlerTree.leavesOf, List.reverse_cons, List.reverse_append, List.map_append,
      stopEach_append, stopEach_append, HandlerTree.stop_leavesOf leaf ts w]
    exact HandlerTree.stop_leaves leaf t _

end

/-! ## What is hosted during `Stop` -/

/-- The value with which the sender of an `Exec::Domain` completes inside `Stop`, if it does. -/
def DomainLeaf.stopValue (host : Hosted ι σ) : DomainLeaf ι → σ → Option Int × σ
  | .domain i, s =>
    match host.sender .stop i s with
    | (some (.value exitCode), s) => (some exitCode, s)
    | (some .stopped, s) => (none, s)
    | (none, s) => (none, s)
  | .asioDomain i, s => (none, (host.coroutine .stop i s).2)

/-- The values with which senders complete while these leaves are stopped, one by one. -/
def stopValues (host : Hosted ι σ) : List (DomainLeaf ι) → σ → List Int
  | [], _ => []
  | l :: ls, s => (l.stopValue host s).1.toList ++ stopValues host ls (l.stopValue host s).2

section Stop

variable [DecidableEq ι] {host : Hosted ι σ} {w : World TightRunner (Domains ι σ)} {c : Int}

omit [DecidableEq ι] in
theorem AsioDomain.completed_exiting (i : ι) (hc : w.runner.exitCode = some c) (exitCode : Int) :
    AsioDomain.completed i w exitCode = w := by
  simp [AsioDomain.completed, IRunner.exiting, hc]

omit [DecidableEq ι] in
theorem Domain.stopped_exiting (hc : w.runner.exitCode = some c) : Domain.stopped w = w := by
  simp [Domain.stopped, IRunner.exiting, hc]

/-- `Stop` of a leaf, where an exit code was requested. -/
theorem DomainLeaf.stop_exiting (host : Hosted ι σ) (l : DomainLeaf ι) (hc : w.runner.exitCode = some c) :
    ((l.handler host).stop w).runner.exitCode = some ((l.stopValue host w.state.hosted).1.getD c) ∧
      ((l.handler host).stop w).state.hosted = (l.stopValue host w.state.hosted).2 := by
  cases l with
  | domain i =>
    simp only [DomainLeaf.handler, Domain.handler, Domain.run, DomainLeaf.stopValue]
    rcases host.sender .stop i w.state.hosted with ⟨_ | _ | _, s⟩
    · exact ⟨hc, rfl⟩
    · exact ⟨rfl, rfl⟩
    · show (Domain.stopped (w.withHosted s)).runner.exitCode = some c ∧
        (Domain.stopped (w.withHosted s)).state.hosted = s
      rw [Domain.stopped_exiting (by exact hc)]
      exact ⟨hc, rfl⟩
  | asioDomain i =>
    simp only [DomainLeaf.handler, AsioDomain.handler, AsioDomain.stop, DomainLeaf.stopValue]
    -- `_cancelled` is of no concern to a completion that finds an exit code.
    generalize hw : World.mk w.runner { w.state with cancelled := Function.update w.state.cancelled i true } = w'
    have hc' : w'.runner.exitCode = some c := hw ▸ hc
    have hs : w.state.hosted = w'.state.hosted := hw ▸ rfl
    rw [hs, AsioDomain.run]
    rcases host.coroutine .stop i w'.state.hosted with ⟨_ | exitCode, s⟩
    · exact ⟨hc', rfl⟩
    · show (AsioDomain.completed i (w'.withHosted s) exitCode).runner.exitCode = some c ∧
        (AsioDomain.completed i (w'.withHosted s) exitCode).state.hosted = s
      rw [AsioDomain.completed_exiting i (by exact hc')]
      exact ⟨hc', rfl⟩

/-- The code is kept up to every leaf that is stopped, if and only if no other value is
completed with. -/
theorem stopEach_keeps_iff (ls : List (DomainLeaf ι)) (hc : w.runner.exitCode = some c) :
    (∀ pre post, ls = pre ++ post →
      (stopEach (pre.map (DomainLeaf.handler host)) w).runner.exitCode = some c) ↔
    ∀ v ∈ stopValues host ls w.state.hosted, v = c := by
  induction ls generalizing w with
  | nil =>
    refine ⟨fun _ v hv => absurd hv List.not_mem_nil, fun _ pre post heq => ?_⟩
    obtain ⟨rfl, rfl⟩ := List.append_eq_nil_iff.mp heq.symm
    exact hc
  | cons l ls ih =>
    obtain ⟨hcode, hhost⟩ := l.stop_exiting host hc
    have hsplit : (∀ v ∈ stopValues host (l :: ls) w.state.hosted, v = c) ↔
        (l.stopValue host w.state.hosted).1.getD c = c ∧
          ∀ v ∈ stopValues host ls ((l.handler host).stop w).state.hosted, v = c := by
      rw [hhost, stopValues]
      rcases (l.stopValue host w.state.hosted).1 with _ | v <;> simp
    rw [hsplit]
    refine ⟨fun h => ?_, fun ⟨hv, h⟩ pre post heq => ?_⟩
    · have hl : (l.stopValue host w.state.hosted).1.getD c = c := by
        simpa [stopEach, hcode] using h [l] ls rfl
      refine ⟨hl, (ih (by rw [hcode, hl])).mp fun pre post heq => ?_⟩
      exact h (l :: pre) post (by rw [heq]; rfl)
    · cases pre with
      | nil => exact hc
      | cons l' pre =>
        obtain ⟨rfl, hls⟩ := List.cons.inj heq
        exact (ih (by rw [hcode, hv])).mpr h pre post hls

end Stop

/-! ## `TightRunner` over domains -/

/-- Where `Stop` begins with the exit code `c` requested: the code is kept while the domains
are stopped, and `Run` returns `c`, if and only if every sender of an `Exec::Domain` that
completes with a value inside `Stop` does so with `c`. -/
theorem stop_keeps_exitCode_iff [DecidableEq ι] (host : Hosted ι σ) (t : HandlerTree (DomainLeaf ι))
    (s : Running TightRunner (Domains ι σ)) (c : Int) (hpc : s.pc = .looping)
    (hr : s.world.runner.running = false) (hc : s.world.runner.exitCode = some c) :
    ((∀ pre post, t.leaves.reverse = pre ++ post →
        (stopEach (pre.map (DomainLeaf.handler host)) s.world).runner.exitCode = some c) ∧
      ∃ s₁ s₂, TightRunner.next (t.handler (DomainLeaf.handler host)) s = some s₁ ∧
        TightRunner.next (t.handler (DomainLeaf.handler host)) s₁ = some s₂ ∧ s₂.pc = .ended c) ↔
    ∀ v ∈ stopValues host t.leaves.reverse s.world.state.hosted, v = c := by
  rw [← stopEach_keeps_iff t.leaves.reverse hc]
  refine ⟨fun h => h.1, fun h => ⟨h, ?_⟩⟩
  -- All leaves are stopped: the code is that after the last of them.
  have hcode := h t.leaves.reverse [] (by simp)
  rw [← HandlerTree.stop_leaves] at hcode
  have hstop : TightRunner.next (t.handler (DomainLeaf.handler host)) s =
      some ⟨.stopped, (t.handler (DomainLeaf.handler host)).stop s.world⟩ := by
    simp only [TightRunner.next, hpc, hr]
    rfl
  refine ⟨_, _, hstop, rfl, ?_⟩
  simp only [hcode, Option.getD_some]

/-- Two senders: `true` completes with 3 inside `Update`, `false` inside `Stop`, with
`exitCode`. -/
def completesInStop (exitCode : Int) : Hosted Bool Unit where
  sender
    | .update, true, _ => (some (.value 3), ())
    | .stop, false, _ => (some (.value exitCode), ())
    | _, _, _ => (none, ())
  coroutine _ _ _ := (none, ())

/-- A domain and another one, side by side. -/
def twoDomains : HandlerTree (DomainLeaf Bool) :=
  .composite [.leaf (.domain true), .leaf (.domain false)]

/-- The second sender completes with the code that was requested. -/
theorem stop_keeps_exitCode_three : ∃ s : Running TightRunner (Domains Bool Unit),
    s.pc = .looping ∧ s.world.runner.exitCode = some 3 ∧
    (TightRunner.lts (twoDomains.handler (DomainLeaf.handler (completesInStop 3))) { hosted := () }).Reach Lts.Any s ∧
    ∃ s₁ s₂, TightRunner.next (twoDomains.handler (DomainLeaf.handler (completesInStop 3))) s = some s₁ ∧
      TightRunner.next (twoDomains.handler (DomainLeaf.handler (completesInStop 3))) s₁ = some s₂ ∧
      s₂.pc = .ended 3 := by
  obtain ⟨s, hs, hq⟩ := Lts.Reach.of_run
    (TightRunner.lts (twoDomains.handler (DomainLeaf.handler (completesInStop 3))) { hosted := () }) Lts.Any [(), ()]
    (fun s => s.pc = .looping ∧ s.world.runner.running = false ∧ s.world.runner.exitCode = some 3)
    (by decide +kernel)
  obtain ⟨hpc, hr, hc⟩ := of_decide_eq_true hq
  refine ⟨s, hpc, hc, hs, ((stop_keeps_exitCode_iff (completesInStop 3) twoDomains s 3 hpc hr hc).mpr ?_).2⟩
  show ∀ v ∈ stopValues (completesInStop 3) twoDomains.leaves.reverse (), v = 3
  decide

/-- The exit code 3 was requested, and `Run` returns 7. -/
theorem stop_loses_exitCode : ∃ s : Running TightRunner (Domains Bool Unit),
    (TightRunner.lts (twoDomains.handler (DomainLeaf.handler (completesInStop 7))) { hosted := () }).Reach Lts.Any s ∧
    s.pc = .looping ∧ s.world.runner.running = false ∧ s.world.runner.exitCode = some 3 ∧
    ∃ s₁ s₂, TightRunner.next (twoDomains.handler (DomainLeaf.handler (completesInStop 7))) s = some s₁ ∧
      TightRunner.next (twoDomains.handler (DomainLeaf.handler (completesInStop 7))) s₁ = some s₂ ∧
      s₂.pc = .ended 7 := by
  obtain ⟨s, hs, hq⟩ := Lts.Reach.of_run
    (TightRunner.lts (twoDomains.handler (DomainLeaf.handler (completesInStop 7))) { hosted := () }) Lts.Any [(), ()]
    (fun s => decide (s.pc = .looping ∧ s.world.runner.running = false ∧ s.world.runner.exitCode = some 3) &&
      ((TightRunner.next (twoDomains.handler (DomainLeaf.handler (completesInStop 7))) s).bind
        (TightRunner.next (twoDomains.handler (DomainLeaf.handler (completesInStop 7))))).any
        fun s₂ => s₂.pc = .ended 7)
    (by decide +kernel)
  obtain ⟨hq₁, hq₂⟩ := Bool.and_eq_true_iff.mp hq
  obtain ⟨hpc, hr, hc⟩ := of_decide_eq_true hq₁
  obtain ⟨s₂, hs₂, hend⟩ := (Option.any_eq_true _ _).mp hq₂
  obtain ⟨s₁, h₁, h₂⟩ := Option.bind_eq_some_iff.mp hs₂
  exact ⟨s, hs, hpc, hr, hc, s₁, s₂, h₁, h₂, of_decide_eq_true hend⟩

end TX.RunLoop
