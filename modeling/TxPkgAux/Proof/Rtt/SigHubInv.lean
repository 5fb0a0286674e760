import TxPkgAux.Proof.Rtt.SigHubFrames

/-!
# `SigHub`: users and their calls

`HubInv` is what holds in every run: `Register` is called once for a user, and of
the calls of `Leave` on a user one gets past its exchange, so at most one frame of
each is on all stacks; a user in `_peers` is stored under its own id.
-/

namespace TX.Rtt

open Function (update)

variable {τ υ : Type} [DecidableEq τ] [DecidableEq υ]

/-- A call of `Register` for the user. -/
def Frame.isRegister (u : υ) : Frame υ → Bool
  | .register v _ => v = u
  | _ => false

/-- A call of `Leave` on the user, past its exchange. -/
def Frame.isLeave (u : υ) : Frame υ → Bool
  | .leave v _ => v = u
  | _ => false

/-- `Register` is past a successful join. -/
def RegisterPc.succeeded : RegisterPc → Bool
  | .locking | .binding | .replaying _ | .inMessage _ => true
  | _ => false

structure HubInv (s : SigHub τ υ) : Prop where
  registerOnce : ∀ u, AtMostOne s.stack (Frame.isRegister u)
  leaveOnce : ∀ u, AtMostOne s.stack (Frame.isLeave u)
  held : ∀ u, (s.users u).handle ≠ .none → (s.users u).created = true
  registering : ∀ t u pc, .register u pc ∈ s.stack t → (s.users u).created = true
  leaving : ∀ t u pc, .leave u pc ∈ s.stack t →
    (s.users u).left = true ∧ (s.users u).created = true
  joined : ∀ u, .joined u ∈ s.log → (s.users u).created = true ∧
    ∀ t pc, .register u pc ∈ s.stack t → pc.succeeded = true
  stored : ∀ id v, s.peers id = some v → (s.users v).localId = id ∧ (s.users v).handle ≠ .none

section Step

variable {s s' : SigHub τ υ} {a : SigAction τ υ}

theorem HubStep.registerOnce (h : HubStep s a s') (hi : HubInv s) (u : υ) :
    AtMostOne s'.stack (Frame.isRegister u) := by
  refine h.stackStep.atMostOne (hi.registerOnce u) (fun f g hf hg => ?_) fun f hf hp t g hg => ?_
  · cases hf with
    | insert | register => exact hg
    | unregister | lockLeave | read | onLeft | dispatch | lock | call => cases hg
  · cases hf with
    | register hn hc =>
      obtain rfl := of_decide_eq_true hp
      cases g with
      | register v pc =>
        refine decide_eq_false fun hv => ?_
        have := hi.registering t v pc hg
        simp [hv, hn] at this
      | leave | dispatch | deliver => rfl
    | leave | send => cases hp

theorem HubStep.leaveOnce (h : HubStep s a s') (hi : HubInv s) (u : υ) :
    AtMostOne s'.stack (Frame.isLeave u) := by
  refine h.stackStep.atMostOne (hi.leaveOnce u) (fun f g hf hg => ?_) fun f hf hp t g hg => ?_
  · cases hf with
    | unregister | lockLeave | read | onLeft => exact hg
    | insert | register | dispatch | lock | call => cases hg
  · cases hf with
    | leave hh hl hl' =>
      obtain rfl := of_decide_eq_true hp
      cases g with
      | leave v pc =>
        refine decide_eq_false fun hv => ?_
        have := (hi.leaving t v pc hg).1
        simp [hv, hl] at this
      | register | dispatch | deliver => rfl
    | register | send => cases hp

theorem HubStep.held (h : HubStep s a s') (hi : HubInv s) (u : υ)
    (hu : (s'.users u).handle ≠ .none) : (s'.users u).created = true := by
  refine (h.user u).created ?_
  rcases h.handle u with he | ⟨hh, -⟩ | ⟨-, ⟨t, hm⟩, -⟩
  · exact hi.held u (he ▸ hu)
  · exact hi.held u (by simp [hh])
  · exact hi.registering t u _ hm

theorem HubStep.registering (h : HubStep s a s') (hi : HubInv s) (t : τ) (u : υ) (pc : RegisterPc)
    (hm : .register u pc ∈ s'.stack t) : (s'.users u).created = true := by
  rcases h.mem hm with hm | hf | ⟨hs, hf, -⟩
  · exact (h.user u).created (hi.registering t u pc hm)
  · cases hf with
    | register hn hc => exact hc
  · cases hf with
    | insert | register => exact (h.user u).created (hi.registering t u _ (mem_top hs))

theorem HubStep.leaving (h : HubStep s a s') (hi : HubInv s) (t : τ) (u : υ) (pc : LeavePc)
    (hm : .leave u pc ∈ s'.stack t) : (s'.users u).left = true ∧ (s'.users u).created = true := by
  have hkept : ∀ pc', .leave u pc' ∈ s.stack t → (s'.users u).left = true ∧ (s'.users u).created = true :=
    fun pc' hm => ⟨(h.user u).left (hi.leaving t u pc' hm).1, (h.user u).created (hi.leaving t u pc' hm).2⟩
  rcases h.mem hm with hm | hf | ⟨hs, hf, -⟩
  · exact hkept pc hm
  · cases hf with
    | leave hh hl hl' => exact ⟨hl', (h.user u).created (hi.held u (by simp [hh]))⟩
  · cases hf with
    | unregister | lockLeave | read | onLeft => exact hkept _ (mem_top hs)

omit [DecidableEq τ] in
theorem RegisterPc.Goes.succeeded {w w' : HubUser τ} {pc pc' : RegisterPc} (h : pc.Goes w w' pc')
    (hp : pc.succeeded = true) : pc'.succeeded = true := by
  cases h <;> first | rfl | cases hp

/-- The join is decided on in one step. -/
theorem HubStep.joined_mem (h : HubStep s a s') {u : υ} (hj : .joined u ∈ s'.log) :
    .joined u ∈ s.log ∨
      ∃ t, .register u (.checking true) ∈ s.stack t ∧ .register u .locking ∈ s'.stack t := by
  cases h
  case joined t v fs hs ha =>
    rcases List.mem_cons.mp hj with hj | hj
    · cases hj
      exact .inr ⟨t, mem_top hs, by simp⟩
    · exact .inl hj
  all_goals exact .inl (by simpa using hj)

theorem HubStep.joined_log (h : HubStep s a s') (hi : HubInv s) (u : υ) (hj : .joined u ∈ s'.log) :
    (s'.users u).created = true ∧ ∀ t pc, .register u pc ∈ s'.stack t → pc.succeeded = true := by
  rcases h.joined_mem hj with hold | ⟨t, -, hm⟩
  · obtain ⟨hc, hp⟩ := hi.joined u hold
    refine ⟨(h.user u).created hc, fun t pc hm => ?_⟩
    rcases h.mem hm with hm | hf | ⟨hs, hf, -⟩
    · exact hp t pc hm
    · cases hf with
      | register hn _ => simp [hc] at hn
    · cases hf with
      | insert => exact absurd (hp t _ (mem_top hs)) nofun
      | register hf => exact hf.succeeded (hp t _ (mem_top hs))
  · -- It is the only call of `Register` for the user.
    refine ⟨h.registering hi t u _ hm, fun t' pc hm' => ?_⟩
    have := (h.registerOnce hi u).eq hm hm' (by simp [Frame.isRegister]) (by simp [Frame.isRegister])
    cases this
    rfl

theorem HubStep.stored (h : HubStep s a s') (hi : HubInv s) (id : PeerId) (v : υ)
    (hp : s'.peers id = some v) : (s'.users v).localId = id ∧ (s'.users v).handle ≠ .none := by
  rw [(h.user v).localId]
  rcases h.peers hp with hp | ⟨hid, hh, -⟩
  · obtain ⟨hid, hn⟩ := hi.stored id v hp
    refine ⟨hid, ?_⟩
    rcases h.handle v with he | ⟨-, hd⟩ | ⟨hh, -⟩
    · rwa [he]
    · simp [hd]
    · simp [hh]
  · exact ⟨hid, by simp [hh]⟩

theorem HubStep.hubInv (h : HubStep s a s') (hi : HubInv s) : HubInv s' :=
  ⟨h.registerOnce hi, h.leaveOnce hi, h.held hi, h.registering hi, h.leaving hi, h.joined_log hi,
    h.stored hi⟩

end Step

theorem HubInv.init (localId : υ → PeerId) : HubInv (SigHub.lts τ localId).init where
  registerOnce u := ⟨by simp [SigHub.lts], by simp [SigHub.lts]⟩
  leaveOnce u := ⟨by simp [SigHub.lts], by simp [SigHub.lts]⟩
  held := by simp [SigHub.lts]
  registering := by simp [SigHub.lts]
  leaving := by simp [SigHub.lts]
  joined := by simp [SigHub.lts]
  stored := by simp [SigHub.lts]

end TX.Rtt
