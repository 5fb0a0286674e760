import TxPkgAux.Proof.Rtt.SigHubInv
import Mathlib.Data.Fintype.Basic

/-!
# `SigHub`: after `Leave`

`Leave` removes the user from `_peers`, but a `Dispatch` that already looked it up
still delivers to it, and so does the replay of a `Register` that is not finished;
and a handler that `Register` binds after `Leave` read it is never told.
`LeaveApart` is the condition that `Leave` meets neither. `leave_final` says that then
the handler gets no message after `Leave` returned, and exactly one `OnLeft`;
`leave_overtaken` is a `Leave` inside the join factory, after which both fail.
-/

namespace TX.Rtt

open Function (update)

variable {τ υ : Type} [DecidableEq τ] [DecidableEq υ]

/-- `Register` for the user has yet to bind its handler. -/
def Frame.binds (u : υ) : Frame υ → Bool
  | .register v .inserting | .register v .joining | .register v (.checking _) |
    .register v .locking | .register v .binding => v = u
  | _ => false

theorem Frame.binds_register {u : υ} {f : Frame υ} (h : f.binds u = true) : ∃ pc, f = .register u pc := by
  cases f with
  | register v pc => cases pc <;> simp_all [Frame.binds]
  | leave | dispatch | deliver => cases h

/-- The call may still lead to an `OnMessage` of the user's handler. -/
def Frame.calls (u : υ) : Frame υ → Bool
  | .register v (.replaying rest) | .register v (.inMessage rest) => v = u ∧ rest ≠ []
  | .deliver v _ .locking | .deliver v _ .locked => v = u
  | f => f.binds u

/-- The user whose handler the step reads in `Leave`. -/
def SigHub.reads (s : SigHub τ υ) : SigAction τ υ → Option υ
  | .next t =>
    match s.stack t with
    | .leave u .reading :: _ => some u
    | _ => none
  | _ => none

/-- The user whose `Leave` returns in the step. -/
def SigHub.returns (s : SigHub τ υ) : SigAction τ υ → Option υ
  | .leave _ u => if (s.users u).left then some u else none
  | .next t =>
    match s.stack t with
    | .leave u (.notifying bound) :: _ =>
      if bound ∧ (s.users u).handlerAlive then none else some u
    | _ => none
  | .ret t _ =>
    match s.stack t with
    | .leave u .inLeft :: _ => some u
    | _ => none
  | _ => none

/-- `Leave` reads the handler when no `Register` of its user has yet to bind it, and
returns when its user is out of `_peers` and no call can still lead to an
`OnMessage` of it. -/
def LeaveApart (s : SigHub τ υ) (a : SigAction τ υ) : Prop :=
  (∀ u ∈ s.reads a, ∀ t, ∀ f ∈ s.stack t, f.binds u = false) ∧
    ∀ u ∈ s.returns a, s.peers (s.users u).localId ≠ some u ∧
      ∀ t, ∀ f ∈ s.stack t, f.calls u = false

/-- No message can reach the user's handler any more. -/
structure SigHub.Quiet (s : SigHub τ υ) (u : υ) : Prop where
  created : (s.users u).created = true
  left : (s.users u).left = true
  gone : ∀ id, s.peers id ≠ some u
  calls : ∀ t, ∀ f ∈ s.stack t, f.calls u = false

/-- No handler is bound to the user, nor will be. -/
structure SigHub.Unbound (s : SigHub τ υ) (u : υ) : Prop where
  created : (s.users u).created = true
  handler : (s.users u).handler = false
  binds : ∀ t, ∀ f ∈ s.stack t, f.binds u = false

/-- A `Leave` on the user has yet to decide whether it calls `OnLeft`. -/
def SigHub.Telling (s : SigHub τ υ) (u : υ) : Prop :=
  ∃ t pc, .leave u pc ∈ s.stack t ∧ pc ≠ .inLeft

/-- The event is not a message to the user's handler after a `Leave` returned. -/
def Event.NotAfter (u : υ) (e e' : Event υ) : Prop :=
  e' = .leaveReturned u → ∀ m, e ≠ .onMessage u m

/-- The invariant of the runs in which `Leave` stays apart. -/
structure LeaveInv (s : SigHub τ υ) : Prop where
  hub : HubInv s
  quiet : ∀ u, .leaveReturned u ∈ s.log → s.Quiet u
  order : ∀ u, s.log.Pairwise (Event.NotAfter u)
  bound : ∀ u, .joined u ∈ s.log → (s.users u).handler = false →
    ∃ t, ∃ f ∈ s.stack t, f.binds u = true
  unbound : ∀ t u, .leave u (.notifying false) ∈ s.stack t → s.Unbound u
  untold : ∀ u, (s.users u).left = false ∨ s.Telling u → s.log.count (.onLeft u) = 0
  once : ∀ u, s.log.count (.onLeft u) ≤ 1
  told : ∀ u, (s.users u).left = true → s.Telling u ∨ s.log.count (.onLeft u) = 1 ∨
    (s.users u).handlerAlive = false ∨ s.Unbound u

section Step

variable {s s' : SigHub τ υ} {a : SigAction τ υ}

omit [DecidableEq τ] in
/-- No call comes to lead to an `OnMessage` of a user that is not in `_peers`. -/
theorem Frame.Goes.calls {f g : Frame υ} (h : f.Goes s s' g) {u : υ} (hp : ∀ id, s.peers id ≠ some u)
    (hf : f.calls u = false) : g.calls u = false := by
  cases h with
  | insert => exact hf
  | register h => cases h <;> simp_all [Frame.calls, Frame.binds]
  | unregister | lockLeave | read | onLeft => rfl
  | @dispatch src dst payload v hv ha =>
    refine decide_eq_false fun he => ?_
    exact hp dst (he ▸ hv)
  | lock => exact hf
  | call => rfl

theorem HubStep.quiet (h : HubStep s a s') {u : υ} (hq : s.Quiet u) : s'.Quiet u where
  created := (h.user u).created hq.created
  left := (h.user u).left hq.left
  gone id hp := by
    rcases h.peers hp with hp | ⟨-, -, t, hm⟩
    · exact hq.gone id hp
    · simpa [Frame.calls, Frame.binds] using hq.calls t _ hm
  calls t f hm := by
    rcases h.mem hm with hm | hf | ⟨hs, hf, -⟩
    · exact hq.calls t f hm
    · cases hf with
      | register hn hc =>
        refine decide_eq_false fun he => ?_
        simp [he, hq.created] at hn
      | leave | send => rfl
    · exact hf.calls hq.gone (hq.calls t _ (mem_top hs))

/-- What a step adds to the log: a message is handed over by a call that may lead to
it, and a `Leave` that returns was called on a user that has left. -/
theorem HubStep.log (h : HubStep s a s') (hi : HubInv s) : s'.log = s.log ∨ ∃ e, s'.log = e :: s.log ∧
    (∀ u m, e = .onMessage u m → ∃ t, ∃ f ∈ s.stack t, f.calls u = true) ∧
    (∀ u, e = .leaveReturned u → s.returns a = some u ∧ (s.users u).left = true ∧
      (s.users u).created = true) ∧
    ∀ u, e = .onLeft u → ∃ t, .leave u (.notifying true) ∈ s.stack t := by
  have htop : ∀ t f fs, s.stack t = f :: fs → f ∈ s.stack t := fun t f fs hs => by simp [hs]
  cases h
  case leaveAgain t u hh hl =>
    refine .inr ⟨_, rfl, nofun, fun v hv => ?_, nofun⟩
    obtain rfl : u = v := by simpa using hv
    exact ⟨by simp [SigHub.returns, hl], hl, hi.held u (by simp [hh])⟩
  case replay t u fs m rest hs =>
    refine .inr ⟨_, rfl, fun v m' hv => ⟨t, _, htop t _ fs hs, ?_⟩, nofun, nofun⟩
    obtain ⟨rfl, -⟩ : u = v ∧ m = m' := by simpa using hv
    simp [Frame.calls]
  case deliverCall t u m fs hs hh ha =>
    refine .inr ⟨_, rfl, fun v m' hv => ⟨t, _, htop t _ fs hs, ?_⟩, nofun, nofun⟩
    obtain ⟨rfl, -⟩ : u = v ∧ m = m' := by simpa using hv
    simp [Frame.calls]
  case onLeft t u fs hs ha =>
    refine .inr ⟨_, rfl, nofun, nofun, fun v hv => ?_⟩
    obtain rfl : u = v := by simpa using hv
    exact ⟨t, htop t _ fs hs⟩
  case leaveSkip t u fs bound hs ha =>
    refine .inr ⟨_, rfl, nofun, fun v hv => ?_, nofun⟩
    obtain rfl : u = v := by simpa using hv
    refine ⟨?_, hi.leaving t u _ (htop t _ fs hs)⟩
    cases bound <;> simp_all [SigHub.returns]
  case retLeft t u fs supplied hs =>
    refine .inr ⟨_, rfl, nofun, fun v hv => ?_, nofun⟩
    obtain rfl : u = v := by simpa using hv
    exact ⟨by simp [SigHub.returns, hs], hi.leaving t u _ (htop t _ fs hs)⟩
  case insert | joined | deliverLock => exact .inr ⟨_, rfl, nofun, nofun, nofun⟩
  all_goals exact .inl rfl

/-! ### Messages -/

theorem HubStep.leave_quiet (h : HubStep s a s') (hi : LeaveInv s) (ha : LeaveApart s a) (u : υ)
    (hu : .leaveReturned u ∈ s'.log) : s'.Quiet u := by
  refine h.quiet ?_
  rcases h.log hi.hub with hl | ⟨e, hl, -, hret, -⟩
  · exact hi.quiet u (hl ▸ hu)
  · rw [hl] at hu
    rcases List.mem_cons.mp hu with he | hu
    · obtain ⟨hr, hleft, hc⟩ := hret u he.symm
      obtain ⟨hp, hf⟩ := ha.2 u hr
      refine ⟨hc, hleft, fun id hid => ?_, hf⟩
      rw [(hi.hub.stored id u hid).1] at hp
      exact hp hid
    · exact hi.quiet u hu

theorem HubStep.leave_order (h : HubStep s a s') (hi : LeaveInv s) (u : υ) :
    s'.log.Pairwise (Event.NotAfter u) := by
  rcases h.log hi.hub with hl | ⟨e, hl, hmsg, -, -⟩
  · exact hl ▸ hi.order u
  · rw [hl, List.pairwise_cons]
    refine ⟨fun e' he' hr m hm => ?_, hi.order u⟩
    obtain ⟨t, f, hf, hc⟩ := hmsg u m hm
    simp [(hi.quiet u (hr ▸ he')).calls t f hf] at hc

/-! ### `OnLeft` -/

omit [DecidableEq τ] in
/-- No call comes to bind a handler. -/
theorem Frame.Goes.binds {f g : Frame υ} (h : f.Goes s s' g) {u : υ} (hf : f.binds u = false) :
    g.binds u = false := by
  cases h with
  | insert => exact hf
  | register h => cases h <;> simp_all [Frame.binds]
  | unregister | lockLeave | read | onLeft | dispatch | lock | call => rfl

theorem HubStep.stays_unbound (h : HubStep s a s') {u : υ} (hu : s.Unbound u) : s'.Unbound u where
  created := (h.user u).created hu.created
  handler := by
    by_contra hn
    rcases h.handler (by simpa using hn) with hh | ⟨t, hm⟩
    · simp [hu.handler] at hh
    · simpa [Frame.binds] using hu.binds t _ hm
  binds t f hm := by
    rcases h.mem hm with hm | hf | ⟨hs, hf, -⟩
    · exact hu.binds t f hm
    · cases hf with
      | register hn hc =>
        refine decide_eq_false fun he => ?_
        simp [he, hu.created] at hn
      | leave | send => rfl
    · exact hf.binds (hu.binds t _ (mem_top hs))

/-- `Leave` reads an unbound handler only if none will be bound. -/
theorem HubStep.leave_unbound (h : HubStep s a s') (hi : LeaveInv s) (ha : LeaveApart s a) (t : τ)
    (u : υ) (hm : .leave u (.notifying false) ∈ s'.stack t) : s'.Unbound u := by
  refine h.stays_unbound ?_
  rcases h.mem hm with hm | hf | ⟨hs, hf, hr⟩
  · exact hi.unbound t u hm
  · cases hf
  · generalize hpc : LeavePc.notifying false = pc at hf
    cases hf with
    | unregister | lockLeave | onLeft => cases hpc
    | read =>
      have hh : (s.users u).handler = false := by simpa using hpc.symm
      obtain rfl := h.next_of_runs hr hs rfl
      exact ⟨(hi.hub.leaving t u .reading (mem_top hs)).2, hh, ha.1 u (by simp [SigHub.reads, hs])⟩

/-- A handler that the join supplied is bound, or `Register` is about to. -/
theorem HubStep.bound (h : HubStep s a s') (hi : HubInv s) (u : υ)
    (hb : .joined u ∈ s.log → (s.users u).handler = false → ∃ t, ∃ f ∈ s.stack t, f.binds u = true)
    (hj : .joined u ∈ s'.log) (hh : (s'.users u).handler = false) :
    ∃ t, ∃ f ∈ s'.stack t, f.binds u = true := by
  have hh' : (s.users u).handler = false := by
    by_contra hn
    have := (h.user u).handler (by simpa using hn)
    simp [hh] at this
  rcases h.joined_mem hj with hold | ⟨t, -, hm⟩
  · obtain ⟨t, f, hf, hb⟩ := hb hold hh'
    obtain ⟨pc, rfl⟩ := Frame.binds_register hb
    have hsucc := (hi.joined u hold).2 t pc hf
    rcases h.keeps hf with hf | ⟨g, hg, hgo⟩ | hret
    · exact ⟨t, _, hf, hb⟩
    · -- The call of `Register` goes on; only `_handler = handler` ends its wait.
      refine ⟨t, g, hg, ?_⟩
      cases hgo with
      | insert => cases hsucc
      | register hgo =>
        cases hgo with
        | join | joined | unjoined => cases hsucc
        | lock => exact hb
        | bind hbound => simp [hh] at hbound
        | replay | replayed => cases hb
    · cases hret with
      | unjoined | replayed => cases hb
      | bound hbound => simp [hh] at hbound
  · exact ⟨t, _, hm, by simp [Frame.binds]⟩

/-- `Leave` decides once whether it calls `OnLeft`. -/
theorem HubStep.telling (h : HubStep s a s') {u : υ} (ht : s'.Telling u) :
    s.Telling u ∨ (s.users u).left = false := by
  obtain ⟨t, pc, hm, hpc⟩ := ht
  rcases h.mem hm with hm | hf | ⟨hs, hf, -⟩
  · exact .inl ⟨t, pc, hm, hpc⟩
  · cases hf with
    | leave hh hl hl' => exact .inr hl
  · cases hf with
    | unregister | lockLeave | read => exact .inl ⟨t, _, mem_top hs, by simp⟩
    | onLeft => exact absurd rfl hpc

/-- And when it has decided, it called `OnLeft`, or there is nobody to tell. -/
theorem HubStep.telling_end (h : HubStep s a s') {u : υ} (ht : s.Telling u) :
    s'.Telling u ∨ s'.log = .onLeft u :: s.log ∨ (s.users u).handlerAlive = false ∨
      ∃ t, .leave u (.notifying false) ∈ s.stack t := by
  obtain ⟨t, pc, hm, hpc⟩ := ht
  rcases h.keeps hm with hm | ⟨g, hg, hgo⟩ | hret
  · exact .inl ⟨t, pc, hm, hpc⟩
  · cases hgo with
    | unregister | lockLeave | read => exact .inl ⟨t, _, hg, by simp⟩
    | onLeft hl => exact .inr (.inl hl)
  · cases hret with
    | @skip _ bound ha =>
      cases bound with
      | true => exact .inr (.inr (.inl (ha rfl)))
      | false => exact .inr (.inr (.inr ⟨t, hm⟩))
    | left => exact absurd rfl hpc

/-- The `Leave` that calls `OnLeft` is the only one of its user. -/
theorem HubStep.not_onLeft (h : HubStep s a s') (hi : HubInv s) {u : υ}
    (hl : s'.log = .onLeft u :: s.log) : (s'.users u).left = true ∧ ¬ s'.Telling u := by
  have hone := h.leaveOnce hi u
  have hleft := h.leaving hi
  cases h
  case onLeft t v fs hs ha =>
    obtain rfl : v = u := by simpa using hl
    have hm : .leave v .inLeft ∈ update s.stack t (.leave v .inLeft :: fs) t := by simp
    refine ⟨(hleft t v _ hm).1, ?_⟩
    rintro ⟨t', pc, hm', hpc⟩
    have := hone.eq hm hm' (by simp [Frame.isLeave]) (by simp [Frame.isLeave])
    grind -linarith -order
  all_goals simp at hl

/-- A step calls `OnLeft` of the user, or leaves the number of calls as it is. -/
theorem HubStep.count_onLeft (h : HubStep s a s') (hi : HubInv s) (u : υ) :
    s'.log.count (.onLeft u) = s.log.count (.onLeft u) ∨
      s'.log = .onLeft u :: s.log ∧ s.Telling u := by
  rcases h.log hi with hl | ⟨e, hl, -, -, hleft⟩
  · exact .inl (by rw [hl])
  · by_cases he : e = .onLeft u
    · obtain ⟨t, ht⟩ := hleft u he
      exact .inr ⟨he ▸ hl, t, _, ht, by simp⟩
    · exact .inl (by rw [hl, List.count_cons_of_ne he])

theorem HubStep.leave_untold (h : HubStep s a s') (hi : LeaveInv s) (u : υ)
    (hu : (s'.users u).left = false ∨ s'.Telling u) : s'.log.count (.onLeft u) = 0 := by
  rcases h.count_onLeft hi.hub u with hc | ⟨hl, -⟩
  · rw [hc]
    refine hi.untold u ?_
    rcases hu with hl | ht
    · by_contra hno
      have := (h.user u).left (by simpa using (not_or.mp hno).1)
      simp [hl] at this
    · exact (h.telling ht).symm
  · obtain ⟨hleft, hnot⟩ := h.not_onLeft hi.hub hl
    rcases hu with hu | hu
    · simp [hleft] at hu
    · exact absurd hu hnot

theorem HubStep.leave_once (h : HubStep s a s') (hi : LeaveInv s) (u : υ) :
    s'.log.count (.onLeft u) ≤ 1 := by
  rcases h.count_onLeft hi.hub u with hc | ⟨hl, ht⟩
  · exact hc ▸ hi.once u
  · rw [hl, List.count_cons_self, hi.untold u (.inr ht)]

theorem HubStep.leave_told (h : HubStep s a s') (hi : LeaveInv s) (u : υ)
    (hu : (s'.users u).left = true) : s'.Telling u ∨ s'.log.count (.onLeft u) = 1 ∨
      (s'.users u).handlerAlive = false ∨ s'.Unbound u := by
  by_cases hl : (s.users u).left = true
  · rcases hi.told u hl with ht | hc | hd | hub
    · have h0 := hi.untold u (.inr ht)
      rcases h.telling_end ht with ht | hlog | hd | ⟨t, hm⟩
      · exact .inl ht
      · exact .inr (.inl (by rw [hlog, List.count_cons_self, h0]))
      · exact .inr (.inr (.inl ((h.user u).handlerAlive hd)))
      · exact .inr (.inr (.inr (h.stays_unbound (hi.unbound t u hm))))
    · rcases h.count_onLeft hi.hub u with hc' | ⟨-, ht⟩
      · exact .inr (.inl (hc'.trans hc))
      · have h0 := hi.untold u (.inr ht)
        omega
    · exact .inr (.inr (.inl ((h.user u).handlerAlive hd)))
    · exact .inr (.inr (.inr (h.stays_unbound hub)))
  · rcases h.left hu with hl' | ⟨t, hm⟩
    · exact absurd hl' hl
    · exact .inl ⟨t, _, hm, by simp⟩

theorem HubStep.leaveInv (h : HubStep s a s') (hi : LeaveInv s) (ha : LeaveApart s a) : LeaveInv s' :=
  ⟨h.hubInv hi.hub, h.leave_quiet hi ha, h.leave_order hi, fun u => h.bound hi.hub u (hi.bound u),
    h.leave_unbound hi ha, h.leave_untold hi, h.leave_once hi, h.leave_told hi⟩

end Step

theorem LeaveInv.init (localId : υ → PeerId) : LeaveInv (SigHub.lts τ localId).init where
  hub := .init localId
  quiet := by simp [SigHub.lts]
  order := by simp [SigHub.lts]
  bound := by simp [SigHub.lts]
  unbound := by simp [SigHub.lts]
  untold := by simp [SigHub.lts]
  once := by simp [SigHub.lts]
  told := by simp [SigHub.lts]

theorem LeaveInv.reach {localId : υ → PeerId} {s : SigHub τ υ}
    (h : (SigHub.lts τ localId).Reach LeaveApart s) : LeaveInv s :=
  h.invariant (.init localId) fun hI ha he => (step_cases he).leaveInv hI ha

/-- In a run in which `Leave` stays apart, the handler gets no message after `Leave`
returned, and is told at most once that its user left; it has been told when `Leave`
returned and no other call of it is in progress, if the join supplied it and it stayed
alive. The log is newest first. -/
theorem leave_final {localId : υ → PeerId} {s : SigHub τ υ}
    (h : (SigHub.lts τ localId).Reach LeaveApart s) (u : υ) :
    s.log.Pairwise (fun e e' => e' = .leaveReturned u → ∀ m, e ≠ .onMessage u m) ∧
      s.log.count (.onLeft u) ≤ 1 ∧
      (.leaveReturned u ∈ s.log → (∀ t pc, .leave u pc ∉ s.stack t) → .joined u ∈ s.log →
        (s.users u).handlerAlive = true → s.log.count (.onLeft u) = 1) := by
  have hi := LeaveInv.reach h
  refine ⟨hi.order u, hi.once u, fun hr hno hj ha => ?_⟩
  rcases hi.told u (hi.quiet u hr).left with ⟨t, pc, hm, -⟩ | hc | hd | hub
  · exact absurd hm (hno t pc)
  · exact hc
  · simp [ha] at hd
  · obtain ⟨t, f, hf, hb⟩ := hi.bound u hj hub.handler
    simp [hub.binds t f hf] at hb

instance [Fintype τ] (s : SigHub τ υ) (a : SigAction τ υ) : Decidable (LeaveApart s a) :=
  inferInstanceAs (Decidable ((∀ u ∈ s.reads a, ∀ t, ∀ f ∈ s.stack t, f.binds u = false) ∧
    ∀ u ∈ s.returns a, s.peers (s.users u).localId ≠ some u ∧ ∀ t, ∀ f ∈ s.stack t, f.calls u = false))

/-- `Leave` after `Register` returned. -/
theorem leave_final_registered : ∃ s, (twoUsers "a" "b").Reach LeaveApart s ∧
    .leaveReturned false ∈ s.log ∧ s.log.count (.onLeft false) = 1 := by
  obtain ⟨s, hs, hq⟩ := Lts.Reach.of_run (twoUsers "a" "b") LeaveApart
    ((registering false).append [.leave () false, .next (), .next (), .next (), .next (), .ret () true])
    (fun s => s.stack () = [] ∧ .leaveReturned false ∈ s.log ∧ .joined false ∈ s.log ∧
      (s.users false).handlerAlive = true) (by decide +kernel)
  obtain ⟨hst, hr, hj, ha⟩ := of_decide_eq_true hq
  exact ⟨s, hs, hr, (leave_final hs false).2.2 hr (fun t pc => by simp [hst]) hj ha⟩

/-- Inside the join factory the user sends a message to itself, which is buffered, and
leaves. The handler that the factory supplies is bound afterwards: it gets the message
after `Leave` returned, and is never told that its user left. -/
theorem leave_overtaken : ∃ s, (twoUsers "a" "b").Reach Lts.Any s ∧ s.stack () = [] ∧
    .leaveReturned false ∈ s.log ∧ .joined false ∈ s.log ∧ (s.users false).handlerAlive = true ∧
    s.log.count (.onLeft false) = 0 ∧
    ¬ s.log.Pairwise (fun e e' => e' = .leaveReturned false → ∀ m, e ≠ .onMessage false m) := by
  obtain ⟨s, hs, hq⟩ := Lts.Reach.of_run (twoUsers "a" "b") Lts.Any
    [.register () false, .next (), .send () false ⟨"a"⟩ "m", .next (), .next (), .next (),
      .leave () false, .next (), .next (), .next (), .next (), .ret () true, .next (), .next (),
      .next (), .next (), .ret () true, .next ()]
    (fun s => s.stack () = [] ∧ (s.users false).handlerAlive = true ∧ s.log =
      [.onMessage false ⟨⟨"a"⟩, "m"⟩, .joined false, .leaveReturned false,
        .acquired false ⟨⟨"a"⟩, "m"⟩, .inserted false]) (by decide +kernel)
  obtain ⟨hst, ha, hl⟩ := of_decide_eq_true hq
  refine ⟨s, hs, hst, by simp [hl], by simp [hl], ha, by simp [hl], ?_⟩
  simp [hl]

end TX.Rtt
