import TxPkgAux.Framework.Stacks
import TxPkgAux.Proof.Rtt.SigHubStep

/-!
# `SigHub`: calls, users and the registry in a step

What a step does to the stacks (`HubStep.stackStep`: a call is made, goes on or returns), to a
user (`HubStep.user`) and to `_peers` (`HubStep.peers`). The invariants of the hub are read
off these: of the calls in progress, only the one that is new has to be looked at
(`HubStep.mem`).
-/

namespace TX.Rtt

open Function (update)

variable {τ υ : Type} [DecidableEq τ] [DecidableEq υ]

/-- The thread whose topmost call takes the step. -/
def SigAction.runs : SigAction τ υ → Option τ
  | .next t | .ret t _ => some t
  | _ => none

/-- How `Register` goes on once it stored the user, which is `w` before and `w'` after the step. -/
inductive RegisterPc.Goes (w w' : HubUser τ) : RegisterPc → RegisterPc → Prop where
  | join (supplied : Bool) : Goes w w' .joining (.checking supplied)
  | joined (ha : w.handlerAlive = true) : Goes w w' (.checking true) .locking
  | unjoined (supplied : Bool) : Goes w w' (.checking supplied) .erasing
  | lock : Goes w w' .locking .binding
  | bind (hh : w'.handler = true) : Goes w w' .binding (.replaying w.pending)
  | replay (m : SigMessage) (rest : List SigMessage) : Goes w w' (.replaying (m :: rest)) (.inMessage rest)
  | replayed (rest : List SigMessage) : Goes w w' (.inMessage rest) (.replaying rest)

/-- How a call goes on. -/
inductive Frame.Goes (s s' : SigHub τ υ) : Frame υ → Frame υ → Prop where
  | insert {u : υ} (hp : s'.peers (s.users u).localId = some u) :
    Goes s s' (.register u .inserting) (.register u .joining)
  | register {u : υ} {pc pc' : RegisterPc} (h : pc.Goes (s.users u) (s'.users u) pc') :
    Goes s s' (.register u pc) (.register u pc')
  | unregister {u : υ} : Goes s s' (.leave u .unregistering) (.leave u .locking)
  | lockLeave {u : υ} : Goes s s' (.leave u .locking) (.leave u .reading)
  | read {u : υ} : Goes s s' (.leave u .reading) (.leave u (.notifying (s.users u).handler))
  | onLeft {u : υ} (hl : s'.log = .onLeft u :: s.log) :
    Goes s s' (.leave u (.notifying true)) (.leave u .inLeft)
  | dispatch {src dst : PeerId} {payload : String} {u : υ} (hp : s.peers dst = some u)
      (ha : (s.users u).alive = true) :
    Goes s s' (.dispatch src dst payload) (.deliver u ⟨src, payload⟩ .locking)
  | lock {u : υ} {m : SigMessage} : Goes s s' (.deliver u m .locking) (.deliver u m .locked)
  | call {u : υ} {m : SigMessage} : Goes s s' (.deliver u m .locked) (.deliver u m .inMessage)

/-- A call that is made. -/
inductive Frame.Made (s s' : SigHub τ υ) : Frame υ → Prop where
  | register {u : υ} (hn : (s.users u).created = false) (hc : (s'.users u).created = true) :
    Made s s' (.register u .inserting)
  | leave {u : υ} (hh : (s.users u).handle = .held) (hl : (s.users u).left = false)
      (hl' : (s'.users u).left = true) : Made s s' (.leave u .unregistering)
  | send {src dst : PeerId} {payload : String} : Made s s' (.dispatch src dst payload)

/-- A call that returns. -/
inductive Frame.Returns (s s' : SigHub τ υ) : Frame υ → Prop where
  | unjoined {u : υ} : Returns s s' (.register u .erasing)
  | bound {u : υ} (hh : (s'.users u).handler = true) : Returns s s' (.register u .binding)
  | replayed {u : υ} : Returns s s' (.register u (.replaying []))
  | skip {u : υ} {bound : Bool} (ha : bound = true → (s.users u).handlerAlive = false) :
    Returns s s' (.leave u (.notifying bound))
  | left {u : υ} : Returns s s' (.leave u .inLeft)
  | dropped {src dst : PeerId} {payload : String} : Returns s s' (.dispatch src dst payload)
  | buffered {u : υ} {m : SigMessage} : Returns s s' (.deliver u m .locked)
  | delivered {u : υ} {m : SigMessage} : Returns s s' (.deliver u m .inMessage)

/-- What a step does to the stacks. -/
inductive StackStep (s : SigHub τ υ) (a : SigAction τ υ) (s' : SigHub τ υ) : Prop where
  | same (he : s'.stack = s.stack) (hr : a.runs = none)
  | made (t : τ) (f : Frame υ) (hu : s.inUser t = true) (hf : f.Made s s')
      (he : s'.stack = update s.stack t (f :: s.stack t)) (hr : a.runs = none)
  | goes (t : τ) {f g : Frame υ} {fs : List (Frame υ)} (hs : s.stack t = f :: fs) (hf : f.Goes s s' g)
      (he : s'.stack = update s.stack t (g :: fs)) (hr : a.runs = some t)
  | returns (t : τ) {f : Frame υ} {fs : List (Frame υ)} (hs : s.stack t = f :: fs) (hf : f.Returns s s')
      (he : s'.stack = update s.stack t fs) (hr : a.runs = some t)

/-- The call that is new on a stack after a step. -/
inductive Frame.New (s : SigHub τ υ) (a : SigAction τ υ) (s' : SigHub τ υ) (t : τ) (f : Frame υ) :
    Prop where
  | made (h : f.Made s s')
  | goes {g : Frame υ} {fs : List (Frame υ)} (hs : s.stack t = g :: fs) (h : g.Goes s s' f)
      (hr : a.runs = some t)

/-- A user only goes this way. -/
structure HubUser.Grows (w w' : HubUser τ) : Prop where
  localId : w'.localId = w.localId
  created : w.created = true → w'.created = true
  left : w.left = true → w'.left = true
  handler : w.handler = true → w'.handler = true
  handlerAlive : w.handlerAlive = false → w'.handlerAlive = false

section Stack

variable {s s' : SigHub τ υ} {a : SigAction τ υ}

theorem HubStep.stackStep (h : HubStep s a s') : StackStep s a s' := by
  cases h
  case register t u hu hn => exact .made t _ hu (.register hn (by simp)) rfl rfl
  case send t u dst payload hu => exact .made t _ hu .send rfl rfl
  case leave t u hu hh hl => exact .made t _ hu (.leave hh hl (by simp)) rfl rfl
  case insert t u fs hs => exact .goes t hs (.insert (by simp)) rfl rfl
  case joined t u fs hs ha => exact .goes t hs (.register (.joined ha)) rfl rfl
  case unjoined t u fs supplied hs ha => exact .goes t hs (.register (.unjoined supplied)) rfl rfl
  case registerLock t u fs hs hm => exact .goes t hs (.register .lock) rfl rfl
  case bind t u fs hs hp ha => exact .goes t hs (.register (.bind (by simp))) rfl rfl
  case replay t u fs m rest hs => exact .goes t hs (.register (.replay m rest)) rfl rfl
  case unregister t u fs hs ha => exact .goes t hs .unregister rfl rfl
  case unregisterDead t u fs hs => exact .goes t hs .unregister rfl rfl
  case leaveLock t u fs hs hm => exact .goes t hs .lockLeave rfl rfl
  case leaveRead t u fs hs => exact .goes t hs .read rfl rfl
  case onLeft t u fs hs ha => exact .goes t hs (.onLeft rfl) rfl rfl
  case dispatch t u src dst payload fs hs hp ha => exact .goes t hs (.dispatch hp ha) rfl rfl
  case deliverLock t u m fs hs hm => exact .goes t hs .lock rfl rfl
  case deliverCall t u m fs hs hh ha => exact .goes t hs .call rfl rfl
  case retJoin t u fs supplied hs => exact .goes t hs (.register (.join supplied)) rfl rfl
  case retReplay t u fs rest supplied hs => exact .goes t hs (.register (.replayed rest)) rfl rfl
  case eraseFailed t u fs hs => exact .returns t hs .unjoined rfl rfl
  case bindLast t u fs hs hp => exact .returns t hs (.bound (by simp)) rfl rfl
  case replayed t u fs hs => exact .returns t hs .replayed rfl rfl
  case leaveSkip t u fs bound hs ha => exact .returns t hs (.skip ha) rfl rfl
  case dispatchNone t src dst payload fs hs hp => exact .returns t hs .dropped rfl rfl
  case dispatchStale t u src dst payload fs hs hp ha => exact .returns t hs .dropped rfl rfl
  case deliverBuffer t u m fs hs hh => exact .returns t hs .buffered rfl rfl
  case retLeft t u fs supplied hs => exact .returns t hs .left rfl rfl
  case retDeliver t u m fs supplied hs => exact .returns t hs .delivered rfl rfl
  case sendDead | leaveAgain | dropHandle | dropHandler | dropHub => exact .same rfl rfl

theorem HubStep.mem (h : HubStep s a s') {t : τ} {f : Frame υ} (hf : f ∈ s'.stack t) :
    f ∈ s.stack t ∨ f.New s a s' t := by
  cases h.stackStep with
  | same he hr => exact .inl (he ▸ hf)
  | made t' g hu hg he hr =>
    rw [he] at hf
    by_cases ht : t = t'
    · subst ht
      rw [Function.update_self] at hf
      rcases List.mem_cons.mp hf with rfl | hf
      · exact .inr (.made hg)
      · exact .inl hf
    · rw [Function.update_of_ne ht] at hf
      exact .inl hf
  | goes t' hs hg he hr =>
    rw [he] at hf
    by_cases ht : t = t'
    · subst ht
      rw [Function.update_self] at hf
      rcases List.mem_cons.mp hf with rfl | hf
      · exact .inr (.goes hs hg hr)
      · exact .inl (by simp [hs, hf])
    · rw [Function.update_of_ne ht] at hf
      exact .inl hf
  | returns t' hs hg he hr =>
    rw [he] at hf
    by_cases ht : t = t'
    · subst ht
      rw [Function.update_self] at hf
      exact .inl (by simp [hs, hf])
    · rw [Function.update_of_ne ht] at hf
      exact .inl hf

/-- What becomes of a call: it stays, or it is the topmost one, and goes on or returns. -/
theorem HubStep.keeps (h : HubStep s a s') {t : τ} {f : Frame υ} (hf : f ∈ s.stack t) :
    f ∈ s'.stack t ∨ (∃ g ∈ s'.stack t, f.Goes s s' g) ∨ f.Returns s s' := by
  cases h.stackStep with
  | same he hr => exact .inl (he ▸ hf)
  | made t' g hu hg he hr =>
    rw [he]
    by_cases ht : t = t'
    · subst ht
      exact .inl (by simp [hf])
    · exact .inl (by simpa [ht] using hf)
  | goes t' hs hg he hr =>
    rw [he]
    by_cases ht : t = t'
    · subst ht
      rw [Function.update_self]
      rcases List.mem_cons.mp (hs ▸ hf) with rfl | hf
      · exact .inr (.inl ⟨_, List.mem_cons_self, hg⟩)
      · exact .inl (List.mem_cons_of_mem _ hf)
    · exact .inl (by simpa [ht] using hf)
  | returns t' hs hg he hr =>
    rw [he]
    by_cases ht : t = t'
    · subst ht
      rw [Function.update_self]
      rcases List.mem_cons.mp (hs ▸ hf) with rfl | hf
      · exact .inr (.inr hg)
      · exact .inl hf
    · exact .inl (by simpa [ht] using hf)

/-- A call that does not wait for code of the callers takes its step by itself. -/
theorem HubStep.next_of_runs (h : HubStep s a s') {t : τ} {f : Frame υ} {fs : List (Frame υ)}
    (hr : a.runs = some t) (hs : s.stack t = f :: fs) (hf : f.inUser = false) : a = .next t := by
  cases a with
  | next t' => rw [Option.some.inj hr]
  | ret t' supplied =>
    obtain rfl := Option.some.inj hr
    cases h <;> rename_i hs' <;> rw [hs] at hs' <;> cases hs' <;> cases hf
  | register | send | leave | dropHandle | dropHandler | dropHub => cases hr

omit [DecidableEq υ] in
/-- At most one call meets `p` if no call comes to meet it while another one does. -/
theorem StackStep.atMostOne (h : StackStep s a s') {p : Frame υ → Bool} (hp : AtMostOne s.stack p)
    (hgoes : ∀ f g : Frame υ, f.Goes s s' g → p g = true → p f = true)
    (hmade : ∀ f : Frame υ, f.Made s s' → p f = true → ∀ t, ∀ g ∈ s.stack t, p g = false) :
    AtMostOne s'.stack p := by
  cases h with
  | same he hr => rwa [he]
  | made t f hu hf he hr =>
    rw [he]
    cases hpf : p f with
    | false => exact hp.update (by simp [hpf])
    | true => exact .push (hmade f hf hpf) f
  | goes t hs hf he hr =>
    rw [he]
    refine hp.update ?_
    rw [hs, List.countP_cons, List.countP_cons]
    have := hgoes _ _ hf
    split <;> split <;> simp_all
  | returns t hs hf he hr =>
    rw [he]
    refine hp.update ?_
    rw [hs, List.countP_cons]
    exact Nat.le_add_right _ _

end Stack

section Users

variable {s s' : SigHub τ υ} {a : SigAction τ υ}

omit [DecidableEq τ] in
/-- A field that the new value of a user has from the old one. -/
theorem users_field {β : Type} (p : HubUser τ → β) {u : υ} {w : HubUser τ} (h : p w = p (s.users u))
    (v : υ) : p (update s.users u w v) = p (s.users v) := by
  by_cases hv : v = u
  · subst hv
    rwa [Function.update_self]
  · rw [Function.update_of_ne hv]

omit [DecidableEq τ] in
theorem HubUser.Grows.update {u : υ} {w : HubUser τ} (h : (s.users u).Grows w) (v : υ) :
    (s.users v).Grows (update s.users u w v) := by
  by_cases hv : v = u
  · subst hv
    rwa [Function.update_self]
  · rw [Function.update_of_ne hv]
    exact ⟨rfl, id, id, id, id⟩

theorem HubStep.user (h : HubStep s a s') (u : υ) : (s.users u).Grows (s'.users u) := by
  cases h
  case joined | unjoined | send | sendDead | leaveAgain | replay | unregister | unregisterDead | onLeft |
      dispatchNone | dispatchStale | deliverCall | retJoin | retReplay | dropHub =>
    exact ⟨rfl, id, id, id, id⟩
  all_goals
    refine HubUser.Grows.update ?_ u
    constructor <;> simp

/-- Only `Register` stores a user, under its id. -/
theorem HubStep.peers (h : HubStep s a s') {id : PeerId} {u : υ} (hp : s'.peers id = some u) :
    s.peers id = some u ∨ (s.users u).localId = id ∧ (s'.users u).handle = .held ∧
      ∃ t, .register u .inserting ∈ s.stack t := by
  have hstore : ∀ {id' : PeerId} {o : Option υ}, update s.peers id' o id = some u →
      s.peers id = some u ∨ id' = id ∧ o = some u := fun {id' o} hp => by
    by_cases hid : id = id'
    · subst hid
      exact .inr ⟨rfl, by simpa using hp⟩
    · exact .inl (by simpa [hid] using hp)
  cases h
  case insert t v fs hs =>
    rcases hstore hp with hp | ⟨hid, hv⟩
    · exact .inl hp
    · cases hv
      exact .inr ⟨hid, by simp, t, mem_top hs⟩
  case eraseFailed | unregister | dispatchStale =>
    rcases hstore hp with hp | ⟨-, hv⟩
    · exact .inl hp
    · cases hv
  all_goals exact .inl hp

/-- A handle stays, is dropped, or becomes the caller's when `Register` stores the user. -/
theorem HubStep.handle (h : HubStep s a s') (u : υ) :
    (s'.users u).handle = (s.users u).handle ∨
      (s.users u).handle = .held ∧ (s'.users u).handle = .dropped ∨
      (s'.users u).handle = .held ∧ (∃ t, .register u .inserting ∈ s.stack t) ∧
        s'.peers (s.users u).localId = some u := by
  cases h
  case insert t v fs hs =>
    by_cases hv : u = v
    · subst hv
      exact .inr (.inr ⟨by simp, ⟨t, mem_top hs⟩, by simp⟩)
    · exact .inl (by simp [hv])
  case dropHandle v hh =>
    by_cases hv : u = v
    · subst hv
      exact .inr (.inl ⟨hh, by simp⟩)
    · exact .inl (by simp [hv])
  all_goals
    refine .inl ?_
    first
    | rfl
    | exact users_field HubUser.handle (by rfl) u

/-- A handler is bound by `Register`. -/
theorem HubStep.handler (h : HubStep s a s') {u : υ} (hh : (s'.users u).handler = true) :
    (s.users u).handler = true ∨ ∃ t, .register u .binding ∈ s.stack t := by
  cases h
  case bind t v fs hs hp ha | bindLast t v fs hs hp =>
    by_cases hv : u = v
    · subst hv
      exact .inr ⟨t, mem_top hs⟩
    · exact .inl (by simpa [hv] using hh)
  all_goals
    refine .inl (Eq.trans ?_ hh)
    first
    | rfl
    | exact (users_field HubUser.handler (by rfl) u).symm

/-- A user leaves by a call of `Leave`. -/
theorem HubStep.left (h : HubStep s a s') {u : υ} (hl : (s'.users u).left = true) :
    (s.users u).left = true ∨ ∃ t, .leave u .unregistering ∈ s'.stack t := by
  cases h
  case leave t v hin hh hlv =>
    by_cases hv : u = v
    · subst hv
      exact .inr ⟨t, by simp⟩
    · exact .inl (by simpa [hv] using hl)
  all_goals
    refine .inl (Eq.trans ?_ hl)
    first
    | rfl
    | exact (users_field HubUser.left (by rfl) u).symm

end Users

end TX.Rtt
