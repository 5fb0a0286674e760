import TxPkgAux.Proof.Rtt.SigHubLeave
import TxPkgAux.Proof.Rtt.SigHubLocks

/-!
# `SigHub`: the order of messages

A message reaches a handler in two ways: `Deliver` calls `OnMessage`, or buffers it
for the replay in `SetHandler`. Both run under the `_handlerMutex` of the user, which
`Exclusive` says at most one call holds. `Ordered` is the invariant: the messages in
the order `Deliver` took the mutex are those handed over, then the buffer, then those
the call that holds the mutex carries. `onMessage_in_order` is what the handler sees.
-/

namespace TX.Rtt

open Function (update)

variable {τ υ : Type} [DecidableEq τ] [DecidableEq υ]

/-- The call holds the `_handlerMutex` of the user. -/
def Frame.holds (u : υ) : Frame υ → Bool
  | .register v .binding | .register v (.replaying _) | .register v (.inMessage _) => v = u
  | .leave v .reading => v = u
  | .deliver v _ .locked | .deliver v _ .inMessage => v = u
  | _ => false

/-- The messages that the call has yet to hand over, or to buffer. -/
def Frame.carries : Frame υ → List SigMessage
  | .register _ (.replaying rest) | .register _ (.inMessage rest) => rest
  | .deliver _ m .locked => [m]
  | _ => []

/-- The call replays the buffer of the user. -/
def Frame.replays (u : υ) : Frame υ → Bool
  | .register v (.replaying _) | .register v (.inMessage _) => v = u
  | _ => false

/-- The message that `Deliver` on the user took the mutex for. -/
def Event.acquiredOf (u : υ) : Event υ → Option SigMessage
  | .acquired v m => if v = u then some m else none
  | _ => none

/-- The message that the user's handler is given. -/
def Event.onMessageOf (u : υ) : Event υ → Option SigMessage
  | .onMessage v m => if v = u then some m else none
  | _ => none

/-- The messages passed to `Deliver` on the user, in the order the calls took its
mutex. -/
def SigHub.acquired (s : SigHub τ υ) (u : υ) : List SigMessage :=
  (s.log.filterMap (Event.acquiredOf u)).reverse

/-- The messages of the `OnMessage` calls of the user's handler, in order. -/
def SigHub.messages (s : SigHub τ υ) (u : υ) : List SigMessage :=
  (s.log.filterMap (Event.onMessageOf u)).reverse

/-- A thread has one call that holds the mutex of a user, if it is the owner, else
none. -/
def Exclusive (s : SigHub τ υ) : Prop :=
  ∀ t u, (s.stack t).countP (Frame.holds u) = if s.owner u = some t then 1 else 0

structure Ordered (s : SigHub τ υ) : Prop where
  hub : HubInv s
  exclusive : Exclusive s
  bound : ∀ u, .joined u ∈ s.log → (s.users u).handler = false →
    ∃ t, ∃ f ∈ s.stack t, f.binds u = true
  replaying : ∀ t u, ∀ f ∈ s.stack t, f.replays u = true → (s.users u).handler = true
  replayed : ∀ u, (s.users u).handlerAlive = true → (s.users u).handler = true →
    (s.users u).pending = []
  free : ∀ u, (s.users u).handlerAlive = true → s.owner u = none →
    s.acquired u = s.messages u ++ (s.users u).pending
  held : ∀ t u, ∀ f ∈ s.stack t, f.holds u = true → (s.users u).handlerAlive = true →
    s.acquired u = s.messages u ++ (s.users u).pending ++ f.carries

section Exclusive

variable {s s' : SigHub τ υ} {a : SigAction τ υ}

theorem Exclusive.owner (h : Exclusive s) {t : τ} {u : υ} {f : Frame υ} (hf : f ∈ s.stack t)
    (hh : f.holds u = true) : s.owner u = some t := by
  have hpos : 0 < (s.stack t).countP (Frame.holds u) := List.countP_pos_iff.mpr ⟨f, hf, hh⟩
  rw [h t u] at hpos
  by_contra hn
  simp [hn] at hpos

theorem Exclusive.eq (h : Exclusive s) {t t' : τ} {u : υ} {f f' : Frame υ} (hf : f ∈ s.stack t)
    (hf' : f' ∈ s.stack t') (hh : f.holds u = true) (hh' : f'.holds u = true) : f = f' := by
  have ht : t = t' := by simpa [h.owner hf' hh'] using (h.owner hf hh).symm
  subst ht
  refine countP_le_one_eq ?_ hf hf' hh hh'
  rw [h t u]
  split <;> decide

end Exclusive

/-- The calls of the thread that hold the mutex of the user. -/
def SigHub.holders (s : SigHub τ υ) (t : τ) (u : υ) : List (Frame υ) := (s.stack t).filter (Frame.holds u)

/-- What a step does with the mutex of the user, and with the messages on their way to its
handler: nothing, or a call takes the mutex, goes on or gives it back. -/
inductive Handing (s s' : SigHub τ υ) (u : υ) : Prop where
  | aside (ho : s'.owner u = s.owner u) (hf : ∀ t, s'.holders t u = s.holders t u)
      (ha : s'.acquired u = s.acquired u) (hm : s'.messages u = s.messages u)
      (hp : (s'.users u).pending = (s.users u).pending)
  | takes (t : τ) (f : Frame υ) (ho : s.owner u = none) (ho' : s'.owner u = some t)
      (hf : s'.holders t u = f :: s.holders t u) (hn : ∀ t', t' ≠ t → s'.holders t' u = s.holders t' u)
      (ha : s'.acquired u = s.acquired u ++ f.carries) (hm : s'.messages u = s.messages u)
      (hp : (s'.users u).pending = (s.users u).pending)
  | goes (t : τ) (f g : Frame υ) (fs : List (Frame υ)) (ho : s'.owner u = s.owner u)
      (hf : s.holders t u = f :: fs) (hf' : s'.holders t u = g :: fs)
      (hn : ∀ t', t' ≠ t → s'.holders t' u = s.holders t' u) (ha : s'.acquired u = s.acquired u)
      (hm : (s.users u).handlerAlive = true →
        s'.messages u ++ (s'.users u).pending ++ g.carries = s.messages u ++ (s.users u).pending ++ f.carries)
  | gives (t : τ) (f : Frame υ) (fs : List (Frame υ)) (ho' : s'.owner u = none)
      (hf : s.holders t u = f :: fs) (hf' : s'.holders t u = fs)
      (hn : ∀ t', t' ≠ t → s'.holders t' u = s.holders t' u) (ha : s'.acquired u = s.acquired u)
      (hm : (s.users u).handlerAlive = true →
        s'.messages u ++ (s'.users u).pending = s.messages u ++ (s.users u).pending ++ f.carries)

section Step

variable {s s' : SigHub τ υ} {a : SigAction τ υ}

omit [DecidableEq τ] in
theorem holders_top {t : τ} {f : Frame υ} {fs : List (Frame υ)} (hs : s.stack t = f :: fs) {u : υ}
    (hf : f.holds u = true) : s.holders t u = f :: fs.filter (Frame.holds u) := by
  rw [SigHub.holders, hs, List.filter_cons_of_pos hf]

omit [DecidableEq τ] in
theorem holders_rest {t : τ} {f : Frame υ} {fs : List (Frame υ)} (hs : s.stack t = f :: fs) {u : υ}
    (hf : f.holds u = false) : s.holders t u = fs.filter (Frame.holds u) := by
  rw [SigHub.holders, hs, List.filter_cons_of_neg (by simp [hf])]

theorem HubStep.handing (h : HubStep s a s') (hi : Ordered s) (u : υ) : Handing s s' u := by
  have hother : ∀ {t : τ} {fs : List (Frame υ)} (t' : τ), t' ≠ t →
      (update s.stack t fs t').filter (Frame.holds u) = (s.stack t').filter (Frame.holds u) :=
    fun t' ht => by rw [Function.update_of_ne ht]
  have hsame : ∀ {t : τ} {fs : List (Frame υ)},
      fs.filter (Frame.holds u) = (s.stack t).filter (Frame.holds u) → ∀ t',
      (update s.stack t fs t').filter (Frame.holds u) = (s.stack t').filter (Frame.holds u) :=
    fun he => update_same (List.filter (Frame.holds u)) he
  -- A step on another user.
  have haside : ∀ {v t fs w} {s' : SigHub τ υ}, v ≠ u → s'.users = update s.users v w →
      s'.stack = update s.stack t fs → fs.filter (Frame.holds u) = (s.stack t).filter (Frame.holds u) →
      s'.acquired u = s.acquired u → s'.messages u = s.messages u → Handing s s' u :=
    fun {v t fs w s'} hv hu hst hf ha hm => by
      have hu' : s'.users u = s.users u := by rw [hu, Function.update_of_ne hv.symm]
      refine .aside (by rw [SigHub.owner, hu', SigHub.owner]) (fun t' => ?_) ha hm (by rw [hu'])
      rw [SigHub.holders, hst]
      exact hsame hf t'
  cases h
  case registerLock t v fs hs hm =>
    by_cases hv : v = u
    · subst hv
      refine .takes t (.register v .binding) hm (by simp [SigHub.owner]) ?_ hother
        (by simp [Frame.carries, SigHub.acquired]) rfl (by simp)
      rw [holders_rest hs rfl]
      exact holders_top (Function.update_self ..) (by simp [Frame.holds])
    · exact haside hv rfl rfl (by simp [hs, Frame.holds, hv]) rfl rfl
  case leaveLock t v fs hs hm =>
    by_cases hv : v = u
    · subst hv
      refine .takes t (.leave v .reading) hm (by simp [SigHub.owner]) ?_ hother
        (by simp [Frame.carries, SigHub.acquired]) rfl (by simp)
      rw [holders_rest hs rfl]
      exact holders_top (Function.update_self ..) (by simp [Frame.holds])
    · exact haside hv rfl rfl (by simp [hs, Frame.holds, hv]) rfl rfl
  case deliverLock t v m fs hs hm =>
    by_cases hv : v = u
    · subst hv
      refine .takes t (.deliver v m .locked) hm (by simp [SigHub.owner]) ?_ hother
        (by simp [Frame.carries, SigHub.acquired, Event.acquiredOf]) rfl (by simp)
      rw [holders_rest hs rfl]
      exact holders_top (Function.update_self ..) (by simp [Frame.holds])
    · exact haside hv rfl rfl (by simp [hs, Frame.holds, hv])
        (by simp [SigHub.acquired, Event.acquiredOf, hv]) rfl
  case bindLast t v fs hs hp =>
    by_cases hv : v = u
    · subst hv
      refine .gives t _ _ (by simp [SigHub.owner]) (holders_top hs (by simp [Frame.holds]))
        (by simp [SigHub.holders]) hother rfl fun ha => ?_
      rcases hp with hp | hp
      · simp [hp, Frame.carries, SigHub.messages]
      · simp [ha] at hp
    · exact haside hv rfl rfl (by simp [hs, Frame.holds, hv]) rfl rfl
  case replayed t v fs hs | leaveRead t v fs hs | deliverBuffer t v m fs hs hh |
      retDeliver t v m fs supplied hs =>
    by_cases hv : v = u
    · subst hv
      exact .gives t _ _ (by simp [SigHub.owner]) (holders_top hs (by simp [Frame.holds]))
        (by simp [SigHub.holders, Frame.holds]) hother rfl fun ha => by simp [Frame.carries, SigHub.messages]
    · exact haside hv rfl rfl (by simp [hs, Frame.holds, hv]) rfl rfl
  case bind t v fs hs hp ha =>
    by_cases hv : v = u
    · subst hv
      exact .goes t _ _ _ (by simp [SigHub.owner]) (holders_top hs (by simp [Frame.holds]))
        (holders_top (Function.update_self ..) (by simp [Frame.holds])) hother rfl
        fun _ => by simp [Frame.carries, SigHub.messages]
    · exact haside hv rfl rfl (by simp [hs, Frame.holds, hv]) rfl rfl
  case replay t v fs m rest hs =>
    by_cases hv : v = u
    · subst hv
      refine .goes t _ _ _ rfl (holders_top hs (by simp [Frame.holds]))
        (holders_top (Function.update_self ..) (by simp [Frame.holds])) hother rfl fun ha => ?_
      have hh := hi.replaying t v _ (mem_top hs) (by simp [Frame.replays])
      simp [hi.replayed v ha hh, Frame.carries, SigHub.messages, Event.onMessageOf]
    · exact .aside rfl (hsame (by simp [hs, Frame.holds, hv])) rfl
        (by simp [SigHub.messages, Event.onMessageOf, hv]) rfl
  case deliverCall t v m fs hs hh ha =>
    by_cases hv : v = u
    · subst hv
      refine .goes t _ _ _ rfl (holders_top hs (by simp [Frame.holds]))
        (holders_top (Function.update_self ..) (by simp [Frame.holds])) hother rfl fun _ => ?_
      simp [hi.replayed v ha hh, Frame.carries, SigHub.messages, Event.onMessageOf]
    · exact .aside rfl (hsame (by simp [hs, Frame.holds, hv])) rfl
        (by simp [SigHub.messages, Event.onMessageOf, hv]) rfl
  case retReplay t v fs rest supplied hs =>
    by_cases hv : v = u
    · subst hv
      exact .goes t _ _ _ rfl (holders_top hs (by simp [Frame.holds]))
        (holders_top (Function.update_self ..) (by simp [Frame.holds])) hother rfl
        fun _ => by simp [Frame.carries, SigHub.messages]
    · exact .aside rfl (hsame (by simp [hs, Frame.holds, hv])) rfl rfl rfl
  case sendDead | leaveAgain | dropHub => exact .aside rfl (fun t => rfl) rfl rfl rfl
  case dropHandle v hh | dropHandler v =>
    exact .aside (users_field HubUser.mutex (by rfl) u) (fun t => rfl) rfl rfl
      (users_field HubUser.pending (by rfl) u)
  case register t v hu hn | leave t v hu hh hl =>
    exact .aside (users_field HubUser.mutex (by rfl) u) (hsame (by simp [Frame.holds])) rfl rfl
      (users_field HubUser.pending (by rfl) u)
  case send t v dst payload hu => exact .aside rfl (hsame (by simp [Frame.holds])) rfl rfl rfl
  case insert t v fs hs | eraseFailed t v fs hs | leaveSkip t v fs bound hs ha | retLeft t v fs supplied hs |
      dispatch t v src dst payload fs hs hp ha =>
    exact .aside (users_field HubUser.mutex (by rfl) u) (hsame (by simp [hs, Frame.holds])) rfl rfl
      (users_field HubUser.pending (by rfl) u)
  case joined t v fs hs ha | unjoined t v fs supplied hs ha | unregister t v fs hs ha |
      unregisterDead t v fs hs | onLeft t v fs hs ha | dispatchNone t src dst payload fs hs hp |
      dispatchStale t v src dst payload fs hs hp ha | retJoin t v fs supplied hs =>
    exact .aside rfl (hsame (by simp [hs, Frame.holds])) rfl rfl rfl

theorem HubStep.exclusive (h : HubStep s a s') (hi : Ordered s) : Exclusive s' := by
  intro t u
  have hc : ∀ t, (s.holders t u).length = if s.owner u = some t then 1 else 0 := fun t => by
    rw [SigHub.holders, ← List.countP_eq_length_filter]
    exact hi.exclusive t u
  rw [List.countP_eq_length_filter]
  show (s'.holders t u).length = _
  cases h.handing hi u with
  | aside ho hf ha hm hp => rw [ho, hf, hc]
  | takes t' f ho ho' hf hn ha hm hp =>
    have h0 := hc t
    rw [ho, if_neg nofun] at h0
    rw [ho']
    by_cases ht : t = t'
    · subst ht
      simp [hf, h0]
    · simp [hn t ht, h0, Ne.symm ht]
  | goes t' f g fs ho hf hf' hn ha hm =>
    rw [ho, ← hc]
    by_cases ht : t = t'
    · subst ht
      rw [hf, hf', List.length_cons, List.length_cons]
    · rw [hn t ht]
  | gives t' f fs ho' hf hf' hn ha hm =>
    have h1 := hc t'
    rw [hf, List.length_cons] at h1
    have hown : s.owner u = some t' := by
      by_contra hne
      simp [hne] at h1
    rw [ho', if_neg nofun]
    by_cases ht : t = t'
    · subst ht
      rw [hf']
      simpa [hown] using h1
    · rw [hn t ht, hc, hown, if_neg (by simpa using Ne.symm ht)]

theorem HubStep.replaying (h : HubStep s a s') (hi : Ordered s) (t : τ) (u : υ) (f : Frame υ)
    (hf : f ∈ s'.stack t) (hr : f.replays u = true) : (s'.users u).handler = true := by
  rcases h.mem hf with hm | hf | ⟨hs, hf, -⟩
  · exact (h.user u).handler (hi.replaying t u f hm hr)
  · cases hf <;> cases hr
  · cases hf with
    | register hgo =>
      cases hgo with
      | bind hh =>
        obtain rfl := of_decide_eq_true hr
        exact hh
      | replay | replayed => exact (h.user u).handler (hi.replaying t u _ (mem_top hs) hr)
      | join | joined | unjoined | lock => cases hr
    | insert | unregister | lockLeave | read | onLeft | dispatch | lock | call => cases hr

theorem HubStep.ordered_replayed (h : HubStep s a s') (hi : Ordered s) (u : υ)
    (ha : (s'.users u).handlerAlive = true) (hh : (s'.users u).handler = true) :
    (s'.users u).pending = [] := by
  have hu := hi.replayed u
  cases h
  case bind t v fs hs hp ha' | bindLast t v fs hs hp =>
    by_cases hv : u = v
    · simp [hv]
    · simpa [hv] using hu (by simpa [hv] using ha) (by simpa [hv] using hh)
  case deliverBuffer t v m fs hs hh' =>
    by_cases hv : u = v
    · subst hv
      simp only [Function.update_self] at ha hh
      simp [ha, hh] at hh'
    · simpa [hv] using hu (by simpa [hv] using ha) (by simpa [hv] using hh)
  case dropHandler v =>
    by_cases hv : u = v
    · simp [hv] at ha
    · simpa [hv] using hu (by simpa [hv] using ha) (by simpa [hv] using hh)
  all_goals
    first
    | exact hu ha hh
    | exact (users_field HubUser.pending (by rfl) u).trans (hu
        ((users_field HubUser.handlerAlive (by rfl) u).symm.trans ha)
        ((users_field HubUser.handler (by rfl) u).symm.trans hh))

theorem HubStep.alive (h : HubStep s a s') {u : υ} (ha : (s'.users u).handlerAlive = true) :
    (s.users u).handlerAlive = true := by
  by_contra hn
  have := (h.user u).handlerAlive (by simpa using hn)
  simp [ha] at this

theorem HubStep.ordered_free (h : HubStep s a s') (hi : Ordered s) (u : υ)
    (ha : (s'.users u).handlerAlive = true) (ho : s'.owner u = none) :
    s'.acquired u = s'.messages u ++ (s'.users u).pending := by
  have ha' := h.alive ha
  cases h.handing hi u with
  | aside ho' hf hacq hm hp => rw [hacq, hm, hp, hi.free u ha' (ho' ▸ ho)]
  | takes t f hown hown' => simp [hown'] at ho
  | goes t f g fs ho' hf hf' hn hacq hm =>
    obtain ⟨hmem, hold⟩ := List.mem_filter.mp (mem_top hf)
    have := hi.exclusive.owner hmem hold
    simp [← ho', ho] at this
  | gives t f fs ho' hf hf' hn hacq hm =>
    obtain ⟨hmem, hold⟩ := List.mem_filter.mp (mem_top hf)
    rw [hacq, hm ha', hi.held t u f hmem hold ha']

theorem HubStep.ordered_held (h : HubStep s a s') (hi : Ordered s) (t : τ) (u : υ) (f : Frame υ)
    (hf : f ∈ s'.stack t) (hh : f.holds u = true) (ha : (s'.users u).handlerAlive = true) :
    s'.acquired u = s'.messages u ++ (s'.users u).pending ++ f.carries := by
  have ha' := h.alive ha
  have hmem : f ∈ s'.holders t u := List.mem_filter.mpr ⟨hf, hh⟩
  -- The holder that the step is about is the one that is asked for.
  have hone : ∀ {t' g}, g ∈ s'.holders t' u → g = f := fun hg =>
    (h.exclusive hi).eq (List.mem_filter.mp hg).1 hf (List.mem_filter.mp hg).2 hh
  cases h.handing hi u with
  | aside ho hf hacq hm hp =>
    obtain ⟨hmem, hold⟩ := List.mem_filter.mp (hf t ▸ hmem)
    rw [hacq, hm, hp, hi.held t u f hmem hold ha']
  | takes t' g ho ho' hg hn hacq hm hp =>
    obtain rfl := hone (mem_top hg)
    rw [hacq, hm, hp, hi.free u ha' ho]
  | goes t' g g' fs ho hg hg' hn hacq hm =>
    obtain rfl := hone (mem_top hg')
    obtain ⟨hmem, hold⟩ := List.mem_filter.mp (mem_top hg)
    rw [hacq, hm ha', hi.held t' u g hmem hold ha']
  | gives t' g fs ho' hg hg' hn hacq hm =>
    have := (h.exclusive hi).owner hf hh
    simp [ho'] at this

theorem HubStep.ordered (h : HubStep s a s') (hi : Ordered s) : Ordered s' :=
  ⟨h.hubInv hi.hub, h.exclusive hi, fun u => h.bound hi.hub u (hi.bound u), h.replaying hi,
    h.ordered_replayed hi, h.ordered_free hi, h.ordered_held hi⟩

end Step

theorem Ordered.init (localId : υ → PeerId) : Ordered (SigHub.lts τ localId).init where
  hub := .init localId
  exclusive t u := by simp [SigHub.lts, SigHub.owner]
  bound := by simp [SigHub.lts]
  replaying := by simp [SigHub.lts]
  replayed := by simp [SigHub.lts]
  free := by simp [SigHub.lts, SigHub.acquired, SigHub.messages]
  held := by simp [SigHub.lts]

/-! ## What a thread sends -/

/-- What a thread does with a message on its way to a user. -/
inductive Passed (τ υ : Type) where
  /-- `Dispatch` finds the user. -/
  | found (t : τ) (u : υ) (message : SigMessage)
  /-- `Deliver` takes the mutex of the user. -/
  | acquired (t : τ) (u : υ) (message : SigMessage)
  deriving DecidableEq

/-- What a step does with a message. -/
def SigHub.passes (s : SigHub τ υ) : SigAction τ υ → List (Passed τ υ)
  | .next t =>
    match s.stack t with
    | .dispatch src dst payload :: _ =>
      match s.peers dst with
      | some u => if (s.users u).alive then [.found t u ⟨src, payload⟩] else []
      | none => []
    | .deliver u m .locking :: _ => [.acquired t u m]
    | _ => []
  | _ => []

/-- The hub, with a record of what its steps do with messages. -/
def SigHub.observed (τ : Type) [DecidableEq τ] (localId : υ → PeerId) :
    Lts (SigHub τ υ × List (Passed τ υ)) (SigAction τ υ) :=
  (SigHub.lts τ localId).observe SigHub.passes

def Passed.foundBy (t : τ) (u : υ) : Passed τ υ → Option SigMessage
  | .found t' v m => if t' = t ∧ v = u then some m else none
  | .acquired _ _ _ => none

def Passed.acquiredFor (u : υ) : Passed τ υ → Option (τ × SigMessage)
  | .found _ _ _ => none
  | .acquired t v m => if v = u then some (t, m) else none

/-- The messages that the thread dispatched to the user while it was registered, in
the order it sent them. -/
def sentBy (ps : List (Passed τ υ)) (t : τ) (u : υ) : List SigMessage :=
  (ps.filterMap (Passed.foundBy t u)).reverse

/-- The messages passed to `Deliver` on the user with the threads that did, in the order
the calls took its mutex. -/
def delivered (ps : List (Passed τ υ)) (u : υ) : List (τ × SigMessage) :=
  (ps.filterMap (Passed.acquiredFor u)).reverse

/-- The message of a call that has yet to take the mutex of the user. -/
def Frame.queued (u : υ) : Frame υ → List SigMessage
  | .deliver v m .locking => if v = u then [m] else []
  | _ => []

/-- The message for which the thread has yet to take the mutex of the user. -/
def SigHub.queued (s : SigHub τ υ) (t : τ) (u : υ) : List SigMessage :=
  (s.stack t).head?.elim [] (Frame.queued u)

/-- A thread takes the mutex of the user for its messages in the order it sent them. -/
structure SentInOrder (s : SigHub τ υ) (ps : List (Passed τ υ)) : Prop where
  below : ∀ t, ∀ f ∈ (s.stack t).tail, f.inUser = true
  acquired : ∀ u, (delivered ps u).map Prod.snd = s.acquired u
  sent : ∀ t u, sentBy ps t u = ((delivered ps u).filter (·.1 = t)).map Prod.snd ++ s.queued t u

/-- What a step does with a message on its way to the user: nothing, or the thread
queues it, or takes it from its queue. -/
inductive Passing (s s' : SigHub τ υ) (u : υ) : List (Passed τ υ) → Prop where
  | none (ha : s'.acquired u = s.acquired u) (hn : ∀ t, s'.queued t u = s.queued t u) :
    Passing s s' u []
  | found (t : τ) (v : υ) (m : SigMessage) (ha : s'.acquired u = s.acquired u)
      (hq : v = u → s.queued t u = [] ∧ s'.queued t u = [m])
      (hn : ∀ t', ¬ (t = t' ∧ v = u) → s'.queued t' u = s.queued t' u) : Passing s s' u [.found t v m]
  | acquired (t : τ) (v : υ) (m : SigMessage)
      (ha : s'.acquired u = s.acquired u ++ if v = u then [m] else [])
      (hq : v = u → s.queued t u = [m] ∧ s'.queued t u = [])
      (hn : ∀ t', ¬ (t = t' ∧ v = u) → s'.queued t' u = s.queued t' u) : Passing s s' u [.acquired t v m]

section Sent

variable {s s' : SigHub τ υ} {a : SigAction τ υ} {ps : List (Passed τ υ)} {t : τ} {u : υ}

/-- A call that waits for code of the callers does not wait for a mutex. -/
theorem Frame.queued_of_inUser {f : Frame υ} (h : f.inUser = true) (u : υ) : f.queued u = [] := by
  cases f with
  | register v pc | leave v pc => rfl
  | deliver v m pc => cases pc <;> simp_all [Frame.inUser, Frame.queued]
  | dispatch => rfl

omit [DecidableEq τ] in
theorem SigHub.queued_of_inUser (h : s.inUser t = true) (u : υ) : s.queued t u = [] := by
  unfold SigHub.inUser at h
  unfold SigHub.queued
  split at h <;> rename_i hs
  · simp [hs]
  · simpa [hs] using Frame.queued_of_inUser h u

theorem HubStep.passing (h : HubStep s a s') (hb : ∀ t, ∀ f ∈ (s.stack t).tail, f.inUser = true)
    (u : υ) : Passing s s' u (s.passes a) := by
  have hpop : ∀ {t g fs}, s.stack t = g :: fs → fs.head?.elim [] (Frame.queued u) = [] := fun {t g fs} hs => by
    cases fs with
    | nil => rfl
    | cons f fs => exact Frame.queued_of_inUser (hb t f (by simp [hs])) u
  have hother : ∀ {t fs} (t' : τ), t' ≠ t →
      (update s.stack t fs t').head?.elim [] (Frame.queued u) = s.queued t' u :=
    fun t' ht => by rw [Function.update_of_ne ht, SigHub.queued]
  have hsame : ∀ {t fs}, fs.head?.elim [] (Frame.queued u) = s.queued t u → ∀ t',
      (update s.stack t fs t').head?.elim [] (Frame.queued u) = s.queued t' u :=
    fun he => update_same (fun fs => fs.head?.elim [] (Frame.queued u)) he
  cases h
  case dispatch t v src dst payload fs hs hp ha =>
    simp only [SigHub.passes, hs, hp, ha, if_true]
    refine .found t v _ rfl (fun hv => ⟨?_, ?_⟩) fun t' hn => ?_
    · simp [SigHub.queued, hs, Frame.queued]
    · simp [SigHub.queued, Frame.queued, hv]
    · by_cases hv : v = u
      · exact hother t' fun ht => hn ⟨ht.symm, hv⟩
      · exact hsame (by simp [SigHub.queued, hs, Frame.queued, hv]) t'
  case deliverLock t v m fs hs hm =>
    simp only [SigHub.passes, hs]
    refine .acquired t v m ?_ (fun hv => ⟨?_, ?_⟩) fun t' hn => ?_
    · by_cases hv : v = u <;> simp [SigHub.acquired, Event.acquiredOf, hv]
    · simp [SigHub.queued, hs, Frame.queued, hv]
    · simp [SigHub.queued, Frame.queued]
    · by_cases hv : v = u
      · exact hother t' fun ht => hn ⟨ht.symm, hv⟩
      · exact hsame (by simp [SigHub.queued, hs, Frame.queued, hv]) t'
  case sendDead | leaveAgain | dropHandle | dropHandler | dropHub => exact .none rfl fun t => rfl
  case register t v hu _ | send t v dst payload hu | leave t v hu _ _ =>
    exact .none rfl (hsame (SigHub.queued_of_inUser hu u).symm)
  case dispatchNone t src dst payload fs hs hp | dispatchStale t v src dst payload fs hs hp ha =>
    rw [show s.passes (.next t) = [] by simp_all [SigHub.passes]]
    exact .none rfl (hsame (by rw [hpop hs, SigHub.queued, hs]; rfl))
  case eraseFailed t v fs hs | bindLast t v fs hs hp | replayed t v fs hs | leaveSkip t v fs bound hs ha |
      deliverBuffer t v m fs hs hh =>
    rw [show s.passes (.next t) = [] by simp [SigHub.passes, hs]]
    exact .none rfl (hsame (by rw [hpop hs, SigHub.queued, hs]; rfl))
  case retLeft t v fs supplied hs | retDeliver t v m fs supplied hs =>
    exact .none rfl (hsame (by rw [hpop hs, SigHub.queued, hs]; rfl))
  case retJoin t v fs supplied hs | retReplay t v fs rest supplied hs =>
    exact .none rfl (hsame (by rw [SigHub.queued, hs]; rfl))
  case insert t v fs hs | joined t v fs hs ha | unjoined t v fs supplied hs ha | registerLock t v fs hs hm |
      bind t v fs hs hp ha | replay t v fs m rest hs | unregister t v fs hs ha | unregisterDead t v fs hs |
      leaveLock t v fs hs hm | leaveRead t v fs hs | onLeft t v fs hs ha | deliverCall t v m fs hs hh ha =>
    rw [show s.passes (.next t) = [] by simp [SigHub.passes, hs]]
    exact .none rfl (hsame (by rw [SigHub.queued, hs]; rfl))

omit [DecidableEq τ] in
theorem Passing.acquired_append {qs : List (Passed τ υ)} (h : Passing s s' u qs)
    (hi : (delivered ps u).map Prod.snd = s.acquired u) :
    (delivered (qs ++ ps) u).map Prod.snd = s'.acquired u := by
  unfold delivered at *
  cases h with
  | none ha hn => simpa [ha] using hi
  | found t v m ha hq hn => simpa [ha, Passed.acquiredFor, List.filterMap_cons] using hi
  | acquired t v m ha hq hn =>
    rw [ha, ← hi]
    by_cases hv : v = u <;> simp [Passed.acquiredFor, hv]

theorem Passing.sent_append {qs : List (Passed τ υ)} (h : Passing s s' u qs)
    (hi : sentBy ps t u = ((delivered ps u).filter (·.1 = t)).map Prod.snd ++ s.queued t u) :
    sentBy (qs ++ ps) t u =
      ((delivered (qs ++ ps) u).filter (·.1 = t)).map Prod.snd ++ s'.queued t u := by
  unfold sentBy delivered at *
  cases h with
  | none ha hn => simpa [hn t] using hi
  | found t' v m ha hq hn =>
    by_cases hm : t' = t ∧ v = u
    · obtain ⟨rfl, rfl⟩ := hm
      obtain ⟨hq, hq'⟩ := hq rfl
      simpa [Passed.foundBy, Passed.acquiredFor, List.filterMap_cons, hq, hq'] using hi
    · simpa [Passed.foundBy, Passed.acquiredFor, List.filterMap_cons, hm, hn t hm] using hi
  | acquired t' v m ha hq hn =>
    by_cases hm : t' = t ∧ v = u
    · obtain ⟨rfl, rfl⟩ := hm
      obtain ⟨hq, hq'⟩ := hq rfl
      simpa [Passed.foundBy, Passed.acquiredFor, List.filterMap_cons, hq, hq'] using hi
    · rw [hn t hm]
      by_cases hv : v = u
      · have ht : t' ≠ t := fun ht => hm ⟨ht, hv⟩
        simpa [Passed.foundBy, Passed.acquiredFor, List.filterMap_cons, hv, ht] using hi
      · simpa [Passed.foundBy, Passed.acquiredFor, List.filterMap_cons, hv] using hi

end Sent

theorem SentInOrder.reach {localId : υ → PeerId} {p : SigHub τ υ × List (Passed τ υ)}
    (h : (SigHub.observed τ localId).Reach Lts.Any p) : Ordered p.1 ∧ SentInOrder p.1 p.2 := by
  refine h.invariant (I := fun p => Ordered p.1 ∧ SentInOrder p.1 p.2) ⟨.init localId, ?_⟩
    fun {p p' a} hI _ he => ?_
  · exact ⟨by simp [SigHub.observed, Lts.observe, SigHub.lts], fun u => rfl, fun t u => rfl⟩
  · obtain ⟨ho, hs⟩ := hI
    obtain ⟨he, hp⟩ := Lts.observe_step.mp he
    have h := step_cases he
    rw [hp]
    exact ⟨h.ordered ho, h.below hs.below,
      fun u => (h.passing hs.below u).acquired_append (hs.acquired u),
      fun t u => (h.passing hs.below u).sent_append (hs.sent t u)⟩

/-- The join supplied a handler to the user, and `SetHandler` returned. -/
def SigHub.handlerSet (s : SigHub τ υ) (u : υ) : Prop :=
  .joined u ∈ s.log ∧ ∀ t pc, .register u pc ∉ s.stack t

/-- When `SetHandler` has returned and no `Deliver` is in progress, the handler was given
the messages passed to `Deliver`, in the order the calls took the mutex: those of each
thread in the order it sent them. -/
theorem onMessage_in_order {localId : υ → PeerId} {s : SigHub τ υ} {ps : List (Passed τ υ)}
    (h : (SigHub.observed τ localId).Reach Lts.Any (s, ps)) {u : υ} (hset : s.handlerSet u)
    (ha : (s.users u).handlerAlive = true) (hd : ∀ t m pc, .deliver u m pc ∉ s.stack t) :
    s.messages u = s.acquired u ∧ ∃ order : List (τ × SigMessage),
      order.map Prod.snd = s.messages u ∧
      ∀ t, (order.filter (·.1 = t)).map Prod.snd = sentBy ps t u := by
  obtain ⟨ho, hs⟩ := SentInOrder.reach h
  obtain ⟨hj, hr⟩ := hset
  have hh : (s.users u).handler = true := by
    by_contra hn
    obtain ⟨t, f, hf, hb⟩ := ho.bound u hj (by simpa using hn)
    obtain ⟨pc, rfl⟩ := Frame.binds_register hb
    exact hr t pc hf
  have hp : (s.users u).pending = [] := ho.replayed u ha hh
  have heq : s.acquired u = s.messages u := by
    cases hown : s.owner u with
    | none => simpa [hp] using ho.free u ha hown
    | some t =>
      -- The mutex is held by a `Leave`, which carries no message.
      have hc := ho.exclusive t u
      rw [hown, if_pos rfl] at hc
      obtain ⟨f, hf, hold⟩ := List.countP_pos_iff.mp (Nat.lt_of_lt_of_eq Nat.zero_lt_one hc.symm)
      have hcar : f.carries = [] := by
        cases f with
        | register v pc => cases pc <;> simp_all [Frame.holds]
        | leave | dispatch => rfl
        | deliver v m pc => cases pc <;> simp_all [Frame.holds]
      simpa [hp, hcar] using ho.held t u f hf hold ha
  refine ⟨heq.symm, delivered ps u, (hs.acquired u).trans heq, fun t => ?_⟩
  have hq : s.queued t u = [] := by
    unfold SigHub.queued
    cases hst : s.stack t with
    | nil => rfl
    | cons f fs =>
      have hf : ∀ m pc, f ≠ .deliver u m pc := fun m pc he => hd t m pc (by simp [hst, he])
      cases f with
      | register | leave | dispatch => rfl
      | deliver v m pc => cases pc <;> simp_all [Frame.queued]
  rw [hs.sent t u, hq, List.append_nil]

/-- A message sent inside the join factory, which is replayed, and one sent after it. -/
theorem onMessage_in_order_replayed : ∃ s ps,
    (SigHub.observed Unit fun _ : Bool => ⟨"a"⟩).Reach Lts.Any (s, ps) ∧ s.handlerSet false ∧
      sentBy ps () false = [⟨⟨"a"⟩, "m"⟩, ⟨⟨"a"⟩, "n"⟩] ∧ s.messages false = s.acquired false := by
  obtain ⟨⟨s, ps⟩, hs, hq⟩ := Lts.Reach.of_run (SigHub.observed Unit fun _ : Bool => ⟨"a"⟩) Lts.Any
    [.register () false, .next (), .send () false ⟨"a"⟩ "m", .next (), .next (), .next (),
      .ret () true, .next (), .next (), .next (), .next (), .ret () true, .next (),
      .send () false ⟨"a"⟩ "n", .next (), .next (), .next (), .ret () true]
    (fun p => p.1.stack () = [] ∧ .joined false ∈ p.1.log ∧ (p.1.users false).handlerAlive = true ∧
      sentBy p.2 () false = [⟨⟨"a"⟩, "m"⟩, ⟨⟨"a"⟩, "n"⟩]) (by decide +kernel)
  obtain ⟨hst, hj, ha, hsent⟩ := of_decide_eq_true hq
  have hset : s.handlerSet false := ⟨hj, fun t pc => by simp [show s.stack t = [] from hst]⟩
  exact ⟨s, ps, hs, hset, hsent,
    (onMessage_in_order hs hset ha fun t m pc => by simp [show s.stack t = [] from hst]).1⟩

end TX.Rtt
