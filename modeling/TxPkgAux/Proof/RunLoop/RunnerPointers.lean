import TxPkgAux.Impl.RunLoop.RunnerPointers
import Mathlib.Data.Fintype.Pi

/-!
# The pointers to runners

`Start` and `Add` pass on a pointer that some handler has (`HandlerNode.keeps`), so no handler
gets a pointer to a runner that was destroyed. But `~Runner` clears the pointer of its own
handler only. The handlers that it was passed on to keep it, unless they were removed before:
`runner_alive` is for the runs in which they were.
-/

namespace TX.RunLoop

open Function (update)

variable {ι ρ : Type} [DecidableEq ι]

/-! ## Pointers that are passed on -/

/-- All pointers of handlers meet `P`. -/
def Pointers.All (P : ρ → Prop) (w : Pointers ι ρ) : Prop := ∀ i r, w.runner i = some r → P r

/-- The handler passes on pointers that meet `P`. -/
structure Keeps (P : ρ → Prop) (h : Handler (Pointers ι ρ)) : Prop where
  start : ∀ w, w.All P → (h.start w).2.All P
  stop : ∀ w, w.All P → (h.stop w).All P

section Keeps

variable {P : ρ → Prop} {w : Pointers ι ρ}

theorem Pointers.setRunner_runner (id i : ι) (x : Option ρ) :
    (w.setRunner id x).runner i = if i = id then x else w.runner i :=
  Function.update_apply _ _ _ _

theorem Pointers.All.setRunner (hw : w.All P) {x : Option ρ} (hx : ∀ r, x = some r → P r) (id : ι) :
    (w.setRunner id x).All P := by
  intro i r hr
  rw [Pointers.setRunner_runner] at hr
  split at hr
  · exact hx r hr
  · exact hw i r hr

theorem Pointers.All.setRunning (hw : w.All P) (id : ι) (b : Bool) : (w.setRunning id b).All P := hw

omit [DecidableEq ι] in
theorem stopEach_keeps {hs : List (Handler (Pointers ι ρ))} (hk : ∀ h ∈ hs, Keeps P h) (hw : w.All P) :
    (stopEach hs w).All P := by
  induction hs generalizing w with
  | nil => exact hw
  | cons h hs ih =>
    exact ih (fun h' hmem => hk h' (List.mem_cons_of_mem _ hmem)) ((hk h List.mem_cons_self).stop w hw)

omit [DecidableEq ι] in
theorem startAll_keeps {started hs : List (Handler (Pointers ι ρ))} (hst : ∀ h ∈ started, Keeps P h)
    (hk : ∀ h ∈ hs, Keeps P h) (hw : w.All P) : (startAll started hs w).2.All P := by
  induction hs generalizing started w with
  | nil => exact hw
  | cons h hs ih =>
    have hkh := hk h List.mem_cons_self
    have hw' := hkh.start w hw
    rw [startAll]
    split <;> rename_i w₁ heq <;> rw [heq] at hw'
    · refine ih (fun h' hmem => ?_) (fun h' hmem => hk h' (List.mem_cons_of_mem _ hmem)) hw'
      rcases List.mem_cons.mp hmem with rfl | hmem
      · exact hkh
      · exact hst h' hmem
    · exact stopEach_keeps hst hw'

mutual

theorem HandlerNode.keeps (ok : ι → Bool) : (n : HandlerNode ι) → Keeps P (n.handler ok)
  | .leaf id => ⟨fun _ hw => hw, fun _ hw => hw⟩
  | .composite id hs => by
    rw [HandlerNode.handler]
    refine ⟨fun w hw => ?_, fun w hw => ?_⟩
    · have hrun := HandlerNode.keeps_handlers ok (w.runner id) (fun r => hw id r) hs
      have hw' := startAll_keeps (fun _ hmem => absurd hmem List.not_mem_nil) hrun hw
      dsimp only
      split <;> rename_i heq <;> rw [heq] at hw'
      · exact hw'.setRunning id true
      · exact hw'
    · have hnone := HandlerNode.keeps_handlers ok none (fun r h => (by cases h)) hs
      exact stopEach_keeps (fun h hmem => hnone h (List.mem_reverse.mp hmem)) (hw.setRunning id false)

theorem HandlerNode.keeps_handlers (ok : ι → Bool) (x : Option ρ) (hx : ∀ r, x = some r → P r) :
    (hs : List (HandlerNode ι)) → ∀ h ∈ HandlerNode.handlers ok x hs, Keeps P h
  | [] => fun _ hmem => absurd hmem List.not_mem_nil
  | n :: ns => by
    intro h hmem
    rw [HandlerNode.handlers] at hmem
    rcases List.mem_cons.mp hmem with rfl | hmem
    · have hk := n.keeps ok
      exact ⟨fun w hw => hk.start _ (hw.setRunner hx n.id), hk.stop⟩
    · exact HandlerNode.keeps_handlers ok x hx ns h hmem

end

end Keeps

/-! ## Runners that are alive -/

variable [DecidableEq ρ]

/-- Every pointer of a handler is to a runner that is alive. -/
def RunnersAlive (s : Handlers ι ρ) : Prop := s.pointers.All fun r => (s.runners r).isSome = true

/-- When a runner is destroyed, no handler but its own has its pointer. -/
def NoneLeft (s : Handlers ι ρ) : HandlersAction ι ρ → Prop
  | .destroy r => ∀ id, s.runners r = some id → ∀ i, i ≠ id → s.pointers.runner i ≠ some r
  | _ => True

section Alive

variable {s s' : Handlers ι ρ} {a : HandlersAction ι ρ}

/-- `~Runner` leaves no pointer to the runner if and only if its own handler was the only one
with such a pointer. -/
theorem destroy_alive_iff {r : ρ} (hi : RunnersAlive s) (he : s.step (.destroy r) = some s') :
    RunnersAlive s' ↔ NoneLeft s (.destroy r) := by
  obtain ⟨id, hid, rfl⟩ := Option.map_eq_some_iff.mp he
  constructor
  · intro h id' hid' i hne hr
    obtain rfl : id = id' := Option.some.inj (hid.symm.trans hid')
    have hold : (s.pointers.setRunner id none).runner i = some r := by
      rw [Pointers.setRunner_runner, if_neg hne, hr]
    simpa using h i r hold
  · intro h i r' hr
    have hr : (s.pointers.setRunner id none).runner i = some r' := hr
    rw [Pointers.setRunner_runner] at hr
    split at hr
    · cases hr
    · rename_i hne
      have hr' : r' ≠ r := fun heq => h id hid i hne (heq ▸ hr)
      simpa [Function.update_of_ne hr'] using hi i r' hr

theorem RunnersAlive.step (hi : RunnersAlive s) (hok : NoneLeft s a) (he : s.step a = some s') :
    RunnersAlive s' := by
  cases a with
  | construct id isComposite =>
    simp only [Handlers.step] at he
    split at he <;> cases he
    exact hi
  | runner r id =>
    simp only [Handlers.step] at he
    split at he <;> cases he
    refine Pointers.All.setRunner (fun i r' hr => ?_) (fun r' hr' => ?_) id
    · by_cases h : r' = r
      · simp [h]
      · simpa [Function.update_of_ne h] using hi i r' hr
    · cases hr'
      simp
  | destroy r => exact (destroy_alive_iff hi he).mpr hok
  | start id ok =>
    obtain ⟨n, -, rfl⟩ := Option.map_eq_some_iff.mp he
    exact (n.keeps ok).start _ hi
  | stop id =>
    obtain ⟨n, -, rfl⟩ := Option.map_eq_some_iff.mp he
    exact (n.keeps _).stop _ hi
  | add c id ok =>
    simp only [Handlers.step] at he
    split at he
    · split at he <;> cases he
      rename_i n _ _
      show Pointers.All _ (if s.pointers.running c then _ else s.pointers)
      split
      · exact (n.keeps ok).start _ (Pointers.All.setRunner hi (fun r => hi c r) n.id)
      · exact hi
    · cases he
  | remove c id =>
    obtain ⟨n, -, rfl⟩ := Option.map_eq_some_iff.mp he
    refine Pointers.All.setRunner ?_ (fun r h => (by cases h)) n.id
    split
    · exact (n.keeps _).stop _ hi
    · exact hi

/-- In the runs in which a runner is destroyed only when no handler but its own has its
pointer, every pointer of a handler is to a runner that is alive; and no other destruction of
a runner leaves it so. -/
theorem runner_alive (h : (Handlers.lts ι ρ).Reach NoneLeft s) :
    (∀ i r, s.pointers.runner i = some r → (s.runners r).isSome = true) ∧
      ∀ r s', s.step (.destroy r) = some s' → (RunnersAlive s' ↔ NoneLeft s (.destroy r)) := by
  have hi : RunnersAlive s := h.invariant (fun i r hr => (by cases hr)) fun hi hok he => hi.step hok he
  exact ⟨hi, fun r s' he => destroy_alive_iff hi he⟩

end Alive

instance [Fintype ι] (s : Handlers ι ρ) (a : HandlersAction ι ρ) : Decidable (NoneLeft s a) :=
  match a with
  | .destroy r => inferInstanceAs
      (Decidable (∀ id, s.runners r = some id → ∀ i, i ≠ id → s.pointers.runner i ≠ some r))
  | .construct _ _ | .runner _ _ | .start _ _ | .stop _ | .add _ _ _ | .remove _ _ => .isTrue trivial

/-- A composite and a member of it. The runner of the composite is destroyed after the member
was removed. -/
theorem runner_alive_removed : ∃ s, (Handlers.lts Bool Bool).Reach NoneLeft s ∧
    s.pointers.runner false = some true ∧ (s.runners true).isSome = true ∧
    s.pointers.runner true = none ∧ (s.runners false).isSome = false := by
  obtain ⟨s, hs, hq⟩ := Lts.Reach.of_run (Handlers.lts Bool Bool) NoneLeft
    [.construct false true, .construct true false, .add false true (fun _ => true), .runner false false,
      .start false (fun _ => true), .remove false true, .stop false, .destroy false, .runner true false]
    (fun s => s.pointers.runner false = some true ∧ s.pointers.runner true = none ∧
      (s.runners false).isSome = false) (by decide +kernel)
  obtain ⟨h₁, h₂, h₃⟩ := of_decide_eq_true hq
  exact ⟨s, hs, h₁, (runner_alive hs).1 false true h₁, h₂, h₃⟩

/-- The member keeps the pointer to the runner that was destroyed. -/
theorem runner_not_alive : ∃ s, (Handlers.lts Bool Unit).Reach Lts.Any s ∧
    s.pointers.runner true = some () ∧ (s.runners ()).isSome = false := by
  obtain ⟨s, hs, hq⟩ := Lts.Reach.of_run (Handlers.lts Bool Unit) Lts.Any
    [.construct false true, .construct true false, .add false true (fun _ => true), .runner () false,
      .start false (fun _ => true), .stop false, .destroy ()]
    (fun s => s.pointers.runner true = some () ∧ (s.runners ()).isSome = false) (by decide +kernel)
  exact ⟨s, hs, of_decide_eq_true hq⟩

end TX.RunLoop
