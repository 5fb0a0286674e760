import TxPkgAux.Framework.Deadlock
import TxPkgAux.Proof.Rtt.SigHubFrames
import Mathlib.Data.Fintype.Basic

/-!
# `SigHub`: deadlocks

`Deliver` and `SetHandler` call `OnMessage` under the `_handlerMutex` of the user. A
handler that sends, or leaves, comes to a second mutex while it holds the first.
`LockOrder rank` is the condition that this only happens downwards in an order of
the users, and `no_deadlock` says that then no set of threads is deadlocked.
`self_send_deadlocks` is a handler that sends a message to itself.
-/

namespace TX.Rtt

open Function (update)

variable {τ υ : Type} [DecidableEq τ] [DecidableEq υ]

/-- The user whose `_handlerMutex` the call is about to take. -/
def Frame.waits : Frame υ → Option υ
  | .register u .locking => some u
  | .leave u .locking => some u
  | .deliver u _ .locking => some u
  | _ => none

/-- The thread is at the acquisition of the user's `_handlerMutex`. -/
def SigHub.waits (s : SigHub τ υ) (t : τ) (u : υ) : Prop := (s.stack t).head?.bind Frame.waits = some u

def SigHub.owner (s : SigHub τ υ) (u : υ) : Option τ := (s.users u).mutex

/-- The user whose `_handlerMutex` the next step of the thread comes to. -/
def SigHub.comesTo (s : SigHub τ υ) (t : τ) : Option υ :=
  match s.stack t with
  | .register u (.checking supplied) :: _ =>
    if supplied ∧ (s.users u).handlerAlive then some u else none
  | .leave u .unregistering :: _ => some u
  | .dispatch _ dst _ :: _ => (s.peers dst).filter fun u => (s.users u).alive
  | _ => none

/-- A thread comes to a mutex only if its user is below those whose mutexes it
holds. -/
def LockOrder (rank : υ → Nat) (s : SigHub τ υ) : SigAction τ υ → Prop
  | .next t => ∀ v ∈ s.comesTo t, ∀ u, s.owner u = some t → rank v < rank u
  | _ => True

/-- Only the topmost call of a thread is not waiting for code of the callers, and a
thread waits for a mutex below those it holds. -/
structure Locks (rank : υ → Nat) (s : SigHub τ υ) : Prop where
  below : ∀ t, ∀ f ∈ (s.stack t).tail, f.inUser = true
  order : ∀ t v u, s.waits t v → s.owner u = some t → rank v < rank u

section Step

variable {s s' : SigHub τ υ} {a : SigAction τ υ}

omit [DecidableEq τ] [DecidableEq υ] in
/-- All calls of a thread in code of the callers wait for it. -/
theorem mem_inUser (hb : ∀ t, ∀ f ∈ (s.stack t).tail, f.inUser = true) {t : τ} (hu : s.inUser t = true)
    {f : Frame υ} (hf : f ∈ s.stack t) : f.inUser = true := by
  unfold SigHub.inUser at hu
  split at hu <;> rename_i hs
  · rw [hs] at hf
    cases hf
  · rcases List.mem_cons.mp (hs ▸ hf) with rfl | hf
    · exact hu
    · exact hb t f (by simpa [hs] using hf)

/-- Calls are made from code of the callers. -/
theorem HubStep.below (h : HubStep s a s') (hb : ∀ t, ∀ f ∈ (s.stack t).tail, f.inUser = true) (t : τ)
    (f : Frame υ) (hf : f ∈ (s'.stack t).tail) : f.inUser = true := by
  have hother : ∀ t' fs, t ≠ t' → s'.stack = update s.stack t' fs → f.inUser = true := fun t' fs ht he => by
    rw [he, Function.update_of_ne ht] at hf
    exact hb t f hf
  cases h.stackStep with
  | same he hr => exact hb t f (he ▸ hf)
  | made t' g hu hg he hr =>
    by_cases ht : t = t'
    · subst ht
      rw [he, Function.update_self] at hf
      exact mem_inUser hb hu hf
    · exact hother t' _ ht he
  | goes t' hs hg he hr =>
    by_cases ht : t = t'
    · subst ht
      rw [he, Function.update_self] at hf
      exact hb t f (by simpa [hs] using hf)
    · exact hother t' _ ht he
  | returns t' hs hg he hr =>
    by_cases ht : t = t'
    · subst ht
      rw [he, Function.update_self] at hf
      exact hb t f (by simpa [hs] using List.mem_of_mem_tail hf)
    · exact hother t' _ ht he

omit [DecidableEq υ] in
/-- A call that waits for code of the callers does not wait for a mutex. -/
theorem Frame.waits_of_inUser {f : Frame υ} (h : f.inUser = true) : f.waits = none := by
  cases f with
  | register u pc | leave u pc | deliver u m pc => cases pc <;> simp_all [Frame.inUser, Frame.waits]
  | dispatch => rfl

omit [DecidableEq τ] [DecidableEq υ] in
/-- A call comes to wait for a mutex at three places. -/
theorem Frame.Goes.waits {f g : Frame υ} (h : f.Goes s s' g) {t : τ} {fs : List (Frame υ)}
    (hs : s.stack t = f :: fs) {v : υ} (hw : g.waits = some v) : s.comesTo t = some v ∧ f.inUser = false := by
  cases h with
  | @register u pc pc' h =>
    cases h with
    | joined ha => exact ⟨by simpa [SigHub.comesTo, hs, ha, Frame.waits] using hw, rfl⟩
    | join | unjoined | lock | bind | replay | replayed => cases hw
  | unregister => exact ⟨by simpa [SigHub.comesTo, hs, Frame.waits] using hw, rfl⟩
  | dispatch hp ha =>
    cases hw
    exact ⟨by simp [SigHub.comesTo, hs, hp, ha], rfl⟩
  | insert | lockLeave | read | onLeft | lock | call => cases hw

/-- A thread waits after a step if it did before, or the step came to the mutex. -/
theorem HubStep.waits (h : HubStep s a s') (hb : ∀ t, ∀ f ∈ (s.stack t).tail, f.inUser = true)
    {t : τ} {v : υ} (hw : s'.waits t v) : s.waits t v ∨ a = .next t ∧ s.comesTo t = some v := by
  unfold SigHub.waits at hw ⊢
  have hother : ∀ t' fs, t ≠ t' → s'.stack = update s.stack t' fs →
      (s.stack t).head?.bind Frame.waits = some v := fun t' fs ht he => by
    rwa [he, Function.update_of_ne ht] at hw
  cases h.stackStep with
  | same he hr => exact .inl (he ▸ hw)
  | made t' g hu hg he hr =>
    by_cases ht : t = t'
    · subst ht
      rw [he, Function.update_self] at hw
      cases hg with
      | register | leave | send => cases hw
    · exact .inl (hother t' _ ht he)
  | goes t' hs hg he hr =>
    by_cases ht : t = t'
    · subst ht
      rw [he, Function.update_self] at hw
      obtain ⟨hc, hu⟩ := hg.waits hs hw
      exact .inr ⟨h.next_of_runs hr hs hu, hc⟩
    · exact .inl (hother t' _ ht he)
  | @returns t' _ fs hs hg he hr =>
    by_cases ht : t = t'
    · subst ht
      rw [he, Function.update_self] at hw
      cases fs with
      | nil => cases hw
      | cons f fs => simp [Frame.waits_of_inUser (hb t f (by simp [hs]))] at hw
    · exact .inl (hother t' _ ht he)

/-- A thread that took a mutex does not wait. -/
theorem HubStep.owned (h : HubStep s a s') {t : τ} {u v : υ} (ho : s'.owner u = some t)
    (hw : s'.waits t v) : s.owner u = some t := by
  unfold SigHub.waits at hw
  cases h
  case registerLock t' w fs hs hm | leaveLock t' w fs hs hm | deliverLock t' w m fs hs hm =>
    by_cases hu : u = w
    · obtain rfl : t' = t := by simpa [SigHub.owner, hu] using ho
      simp [Frame.waits] at hw
    · simpa [SigHub.owner, hu] using ho
  case bindLast t' w fs hs hp | replayed t' w fs hs | leaveRead t' w fs hs | deliverBuffer t' w m fs hs hh |
      retDeliver t' w m fs supplied hs =>
    by_cases hu : u = w
    · simp [SigHub.owner, hu] at ho
    · simpa [SigHub.owner, hu] using ho
  all_goals
    refine Eq.trans ?_ ho
    first
    | rfl
    | exact (users_field HubUser.mutex (by rfl) u).symm

theorem HubStep.locks {rank : υ → Nat} (h : HubStep s a s') (hl : Locks rank s)
    (ha : LockOrder rank s a) : Locks rank s' where
  below := h.below hl.below
  order t v u hw ho := by
    have ho' := h.owned ho hw
    rcases h.waits hl.below hw with hw' | ⟨rfl, hc⟩
    · exact hl.order t v u hw' ho'
    · exact ha v hc u ho'

end Step

theorem Locks.reach {rank : υ → Nat} {localId : υ → PeerId} {s : SigHub τ υ}
    (h : (SigHub.lts τ localId).Reach (LockOrder rank) s) : Locks rank s := by
  refine h.invariant ⟨?_, ?_⟩ fun hI ha he => (step_cases he).locks hI ha <;>
    simp [SigHub.lts, SigHub.waits]

/-- In a run in which the mutexes are taken in order, no set of threads is
deadlocked. -/
theorem no_deadlock {rank : υ → Nat} {localId : υ → PeerId} {s : SigHub τ υ}
    (h : (SigHub.lts τ localId).Reach (LockOrder rank) s) (D : Set τ) :
    ¬ Deadlocked s.waits s.owner D :=
  not_deadlocked_of_rank rank (Locks.reach h).order D

instance [Fintype υ] (rank : υ → Nat) (s : SigHub τ υ) : ∀ a, Decidable (LockOrder rank s a)
  | .next t => inferInstanceAs (Decidable (∀ v ∈ s.comesTo t, ∀ _ : υ, _ → _))
  | .register _ _ | .send _ _ _ _ | .leave _ _ | .ret _ _ | .dropHandle _ | .dropHandler _ | .dropHub =>
    .isTrue trivial

instance (s : SigHub τ υ) (t : τ) (u : υ) : Decidable (s.waits t u) :=
  inferInstanceAs (Decidable (_ = _))

/-- The handler of the user `true` forwards a message to the user `false`. -/
theorem no_deadlock_forward : ∃ s, (twoUsers "a" "b").Reach (LockOrder Bool.toNat) s ∧
    s.waits () false ∧ s.owner true = some () ∧ ∀ D, ¬ Deadlocked s.waits s.owner D := by
  obtain ⟨s, hs, hq⟩ := Lts.Reach.of_run (twoUsers "a" "b") (LockOrder Bool.toNat)
    ((registering false ++ registering true).append [.send () false ⟨"b"⟩ "m", .next (), .next (), .next (),
      .send () true ⟨"a"⟩ "m", .next ()])
    (fun s => s.waits () false ∧ s.owner true = some ()) (by decide +kernel)
  obtain ⟨hw, ho⟩ := of_decide_eq_true hq
  exact ⟨s, hs, hw, ho, no_deadlock hs⟩

/-- A handler that answers its own message: `OnMessage` runs under the mutex of the
user, and `Deliver` of the answer waits for it, on the same thread. -/
theorem self_send_deadlocks : ∃ s, (twoUsers "a" "b").Reach Lts.Any s ∧
    Deadlocked s.waits s.owner {()} := by
  obtain ⟨s, hs, hq⟩ := Lts.Reach.of_run (twoUsers "a" "b") Lts.Any
    ((registering false).append [.send () false ⟨"a"⟩ "m", .next (), .next (), .next (),
      .send () false ⟨"a"⟩ "m", .next ()])
    (fun s => s.waits () false ∧ s.owner false = some ()) (by decide +kernel)
  obtain ⟨hw, ho⟩ := of_decide_eq_true hq
  exact ⟨s, hs, ⟨(), rfl⟩, fun t _ => ⟨false, hw, (), rfl, ho⟩⟩

end TX.Rtt
