import TxPkgAux.Impl.Rtt.SigHub

/-!
# `SigHub`: what one step can do

`HubStep` lists the steps of the hub with what they read and the state they lead
to, field by field; `step_cases` says that there are no others. The invariants of
the hub are proved by cases on it.

`focus` is for a call that runs on its own, step after step, and is about one user.
-/

namespace TX.Rtt

open Function (update)

variable {τ υ : Type} [DecidableEq τ] [DecidableEq υ]

/-- The steps of the hub. -/
inductive HubStep (s : SigHub τ υ) : SigAction τ υ → SigHub τ υ → Prop where
  | register (t : τ) (u : υ) (hu : s.inUser t = true) (hn : (s.users u).created = false) :
    HubStep s (.register t u) { s with
      users := update s.users u { s.users u with created := true, refs := 1 }
      stack := update s.stack t (.register u .inserting :: s.stack t) }
  | send (t : τ) (u : υ) (dst : PeerId) (payload : String) (hu : s.inUser t = true) :
    HubStep s (.send t u dst payload) { s with
      stack := update s.stack t (.dispatch (s.users u).localId dst payload :: s.stack t) }
  | sendDead (t : τ) (u : υ) (dst : PeerId) (payload : String) : HubStep s (.send t u dst payload) s
  | leave (t : τ) (u : υ) (hu : s.inUser t = true) (hh : (s.users u).handle = .held)
      (hl : (s.users u).left = false) :
    HubStep s (.leave t u) { s with
      users := update s.users u { s.users u with left := true, refs := (s.users u).refs + 1 }
      stack := update s.stack t (.leave u .unregistering :: s.stack t) }
  | leaveAgain (t : τ) (u : υ) (hh : (s.users u).handle = .held) (hl : (s.users u).left = true) :
    HubStep s (.leave t u) { s with log := .leaveReturned u :: s.log }
  | insert (t : τ) (u : υ) (fs : List (Frame υ)) (hs : s.stack t = .register u .inserting :: fs) :
    HubStep s (.next t) { s with
      peers := update s.peers (s.users u).localId (some u)
      users := update s.users u { s.users u with handle := .held }
      stack := update s.stack t (.register u .joining :: fs)
      log := .inserted u :: s.log }
  | joined (t : τ) (u : υ) (fs : List (Frame υ)) (hs : s.stack t = .register u (.checking true) :: fs)
      (ha : (s.users u).handlerAlive = true) :
    HubStep s (.next t) { s with
      stack := update s.stack t (.register u .locking :: fs)
      log := .joined u :: s.log }
  | unjoined (t : τ) (u : υ) (fs : List (Frame υ)) {supplied : Bool}
      (hs : s.stack t = .register u (.checking supplied) :: fs)
      (ha : supplied = true → (s.users u).handlerAlive = false) :
    HubStep s (.next t) { s with stack := update s.stack t (.register u .erasing :: fs) }
  | eraseFailed (t : τ) (u : υ) (fs : List (Frame υ)) (hs : s.stack t = .register u .erasing :: fs) :
    HubStep s (.next t) { s with
      peers := update s.peers (s.users u).localId none
      users := update s.users u { s.users u with refs := (s.users u).refs - 1 }
      stack := update s.stack t fs }
  | registerLock (t : τ) (u : υ) (fs : List (Frame υ)) (hs : s.stack t = .register u .locking :: fs)
      (hm : (s.users u).mutex = none) :
    HubStep s (.next t) { s with
      users := update s.users u { s.users u with mutex := some t }
      stack := update s.stack t (.register u .binding :: fs) }
  | bind (t : τ) (u : υ) (fs : List (Frame υ)) (hs : s.stack t = .register u .binding :: fs)
      (hp : (s.users u).pending ≠ []) (ha : (s.users u).handlerAlive = true) :
    HubStep s (.next t) { s with
      users := update s.users u { s.users u with handler := true, pending := [] }
      stack := update s.stack t (.register u (.replaying (s.users u).pending) :: fs) }
  | bindLast (t : τ) (u : υ) (fs : List (Frame υ)) (hs : s.stack t = .register u .binding :: fs)
      (hp : (s.users u).pending = [] ∨ (s.users u).handlerAlive = false) :
    HubStep s (.next t) { s with
      users := update s.users u { s.users u with
        handler := true, pending := [], mutex := none, refs := (s.users u).refs - 1 }
      stack := update s.stack t fs }
  | replayed (t : τ) (u : υ) (fs : List (Frame υ))
      (hs : s.stack t = .register u (.replaying []) :: fs) :
    HubStep s (.next t) { s with
      users := update s.users u { s.users u with mutex := none, refs := (s.users u).refs - 1 }
      stack := update s.stack t fs }
  | replay (t : τ) (u : υ) (fs : List (Frame υ)) {m : SigMessage} {rest : List SigMessage}
      (hs : s.stack t = .register u (.replaying (m :: rest)) :: fs) :
    HubStep s (.next t) { s with
      stack := update s.stack t (.register u (.inMessage rest) :: fs)
      log := .onMessage u m :: s.log }
  | unregister (t : τ) (u : υ) (fs : List (Frame υ)) (hs : s.stack t = .leave u .unregistering :: fs)
      (ha : s.hubAlive = true) :
    HubStep s (.next t) { s with
      peers := update s.peers (s.users u).localId none
      stack := update s.stack t (.leave u .locking :: fs) }
  | unregisterDead (t : τ) (u : υ) (fs : List (Frame υ))
      (hs : s.stack t = .leave u .unregistering :: fs) :
    HubStep s (.next t) { s with stack := update s.stack t (.leave u .locking :: fs) }
  | leaveLock (t : τ) (u : υ) (fs : List (Frame υ)) (hs : s.stack t = .leave u .locking :: fs)
      (hm : (s.users u).mutex = none) :
    HubStep s (.next t) { s with
      users := update s.users u { s.users u with mutex := some t }
      stack := update s.stack t (.leave u .reading :: fs) }
  | leaveRead (t : τ) (u : υ) (fs : List (Frame υ)) (hs : s.stack t = .leave u .reading :: fs) :
    HubStep s (.next t) { s with
      users := update s.users u { s.users u with mutex := none }
      stack := update s.stack t (.leave u (.notifying (s.users u).handler) :: fs) }
  | onLeft (t : τ) (u : υ) (fs : List (Frame υ)) (hs : s.stack t = .leave u (.notifying true) :: fs)
      (ha : (s.users u).handlerAlive = true) :
    HubStep s (.next t) { s with
      stack := update s.stack t (.leave u .inLeft :: fs)
      log := .onLeft u :: s.log }
  | leaveSkip (t : τ) (u : υ) (fs : List (Frame υ)) {bound : Bool}
      (hs : s.stack t = .leave u (.notifying bound) :: fs)
      (ha : bound = true → (s.users u).handlerAlive = false) :
    HubStep s (.next t) { s with
      users := update s.users u { s.users u with refs := (s.users u).refs - 1 }
      stack := update s.stack t fs
      log := .leaveReturned u :: s.log }
  | dispatchNone (t : τ) {src dst : PeerId} {payload : String} (fs : List (Frame υ))
      (hs : s.stack t = .dispatch src dst payload :: fs) (hp : s.peers dst = none) :
    HubStep s (.next t) { s with stack := update s.stack t fs }
  | dispatch (t : τ) (u : υ) {src dst : PeerId} {payload : String} (fs : List (Frame υ))
      (hs : s.stack t = .dispatch src dst payload :: fs) (hp : s.peers dst = some u)
      (ha : (s.users u).alive = true) :
    HubStep s (.next t) { s with
      users := update s.users u { s.users u with refs := (s.users u).refs + 1 }
      stack := update s.stack t (.deliver u ⟨src, payload⟩ .locking :: fs) }
  | dispatchStale (t : τ) (u : υ) {src dst : PeerId} {payload : String} (fs : List (Frame υ))
      (hs : s.stack t = .dispatch src dst payload :: fs) (hp : s.peers dst = some u)
      (ha : (s.users u).alive = false) :
    HubStep s (.next t) { s with
      peers := update s.peers dst none
      stack := update s.stack t fs }
  | deliverLock (t : τ) (u : υ) {m : SigMessage} (fs : List (Frame υ))
      (hs : s.stack t = .deliver u m .locking :: fs) (hm : (s.users u).mutex = none) :
    HubStep s (.next t) { s with
      users := update s.users u { s.users u with mutex := some t }
      stack := update s.stack t (.deliver u m .locked :: fs)
      log := .acquired u m :: s.log }
  | deliverCall (t : τ) (u : υ) {m : SigMessage} (fs : List (Frame υ))
      (hs : s.stack t = .deliver u m .locked :: fs) (hh : (s.users u).handler = true)
      (ha : (s.users u).handlerAlive = true) :
    HubStep s (.next t) { s with
      stack := update s.stack t (.deliver u m .inMessage :: fs)
      log := .onMessage u m :: s.log }
  | deliverBuffer (t : τ) (u : υ) {m : SigMessage} (fs : List (Frame υ))
      (hs : s.stack t = .deliver u m .locked :: fs)
      (hh : (s.users u).handler = false ∨ (s.users u).handlerAlive = false) :
    HubStep s (.next t) { s with
      users := update s.users u { s.users u with
        pending := (s.users u).pending ++ [m], mutex := none, refs := (s.users u).refs - 1 }
      stack := update s.stack t fs }
  | retJoin (t : τ) (u : υ) (fs : List (Frame υ)) (supplied : Bool)
      (hs : s.stack t = .register u .joining :: fs) :
    HubStep s (.ret t supplied) { s with
      stack := update s.stack t (.register u (.checking supplied) :: fs) }
  | retReplay (t : τ) (u : υ) (fs : List (Frame υ)) {rest : List SigMessage} (supplied : Bool)
      (hs : s.stack t = .register u (.inMessage rest) :: fs) :
    HubStep s (.ret t supplied) { s with
      stack := update s.stack t (.register u (.replaying rest) :: fs) }
  | retLeft (t : τ) (u : υ) (fs : List (Frame υ)) (supplied : Bool)
      (hs : s.stack t = .leave u .inLeft :: fs) :
    HubStep s (.ret t supplied) { s with
      users := update s.users u { s.users u with refs := (s.users u).refs - 1 }
      stack := update s.stack t fs
      log := .leaveReturned u :: s.log }
  | retDeliver (t : τ) (u : υ) {m : SigMessage} (fs : List (Frame υ)) (supplied : Bool)
      (hs : s.stack t = .deliver u m .inMessage :: fs) :
    HubStep s (.ret t supplied) { s with
      users := update s.users u { s.users u with mutex := none, refs := (s.users u).refs - 1 }
      stack := update s.stack t fs }
  | dropHandle (u : υ) (hh : (s.users u).handle = .held) :
    HubStep s (.dropHandle u) { s with
      users := update s.users u { s.users u with handle := .dropped } }
  | dropHandler (u : υ) :
    HubStep s (.dropHandler u) { s with
      users := update s.users u { s.users u with handlerAlive := false } }
  | dropHub : HubStep s .dropHub { s with hubAlive := false }

omit [DecidableEq τ] in
theorem unlock_release (s : SigHub τ υ) (u : υ) : (s.unlock u).release u =
    s.setUser u { s.users u with mutex := none, refs := (s.users u).refs - 1 } := by
  simp [SigHub.unlock, SigHub.release, SigHub.setUser]

theorem registerNext_cases {s s' : SigHub τ υ} {t : τ} {u : υ} {fs : List (Frame υ)} {pc : RegisterPc}
    (hs : s.stack t = .register u pc :: fs) (he : s.registerNext t u fs pc = some s') :
    HubStep s (.next t) s' := by
  cases pc with
  | inserting =>
    cases he
    exact .insert t u fs hs
  | checking supplied =>
    simp only [SigHub.registerNext] at he
    split at he <;> cases he <;> rename_i h
    · obtain ⟨rfl, ha⟩ := h
      exact .joined t u fs hs ha
    · refine .unjoined t u fs hs fun e => ?_
      simpa [e] using h
  | erasing =>
    cases he
    exact .eraseFailed t u fs hs
  | locking =>
    simp only [SigHub.registerNext, SigHub.lock] at he
    split at he <;> cases he
    exact .registerLock t u fs hs ‹_›
  | binding =>
    simp only [SigHub.registerNext, unlock_release] at he
    split at he <;> cases he <;> rename_i h
    · exact .bind t u fs hs h.1 h.2
    · have hp : (s.users u).pending = [] ∨ (s.users u).handlerAlive = false := by
        by_cases hp : (s.users u).pending = [] <;> simp_all
      convert HubStep.bindLast t u fs hs hp using 1
      simp [SigHub.setStack, SigHub.setUser]
  | replaying rest =>
    cases rest with
    | nil =>
      simp only [SigHub.registerNext, unlock_release, Option.some.injEq] at he
      subst he
      exact .replayed t u fs hs
    | cons m rest =>
      cases he
      exact .replay t u fs hs
  | joining | inMessage => cases he

theorem leaveNext_cases {s s' : SigHub τ υ} {t : τ} {u : υ} {fs : List (Frame υ)} {pc : LeavePc}
    (hs : s.stack t = .leave u pc :: fs) (he : s.leaveNext t u fs pc = some s') :
    HubStep s (.next t) s' := by
  cases pc with
  | unregistering =>
    simp only [SigHub.leaveNext, Option.some.injEq] at he
    subst he
    split
    · exact .unregister t u fs hs ‹_›
    · exact .unregisterDead t u fs hs
  | locking =>
    simp only [SigHub.leaveNext, SigHub.lock] at he
    split at he <;> cases he
    exact .leaveLock t u fs hs ‹_›
  | reading =>
    cases he
    exact .leaveRead t u fs hs
  | notifying bound =>
    simp only [SigHub.leaveNext] at he
    split at he <;> cases he <;> rename_i h
    · obtain ⟨rfl, ha⟩ := h
      exact .onLeft t u fs hs ha
    · refine .leaveSkip t u fs hs fun e => ?_
      simpa [e] using h
  | inLeft => cases he

theorem dispatchNext_cases {s s' : SigHub τ υ} {t : τ} {src dst : PeerId} {payload : String}
    {fs : List (Frame υ)} (hs : s.stack t = .dispatch src dst payload :: fs)
    (he : s.dispatchNext t src dst payload fs = some s') : HubStep s (.next t) s' := by
  simp only [SigHub.dispatchNext] at he
  split at he
  · cases he
    exact .dispatchNone t fs hs ‹_›
  · split at he <;> cases he <;> rename_i h
    · exact .dispatch t _ fs hs ‹_› h
    · exact .dispatchStale t _ fs hs ‹_› (by simpa using h)

theorem deliverNext_cases {s s' : SigHub τ υ} {t : τ} {u : υ} {m : SigMessage} {fs : List (Frame υ)}
    {pc : DeliverPc} (hs : s.stack t = .deliver u m pc :: fs)
    (he : s.deliverNext t u m fs pc = some s') : HubStep s (.next t) s' := by
  cases pc with
  | locking =>
    simp only [SigHub.deliverNext, SigHub.lock] at he
    split at he <;> cases he
    exact .deliverLock t u fs hs ‹_›
  | locked =>
    simp only [SigHub.deliverNext, unlock_release] at he
    split at he <;> cases he <;> rename_i h
    · exact .deliverCall t u fs hs h.1 h.2
    · have hh : (s.users u).handler = false ∨ (s.users u).handlerAlive = false := by
        by_cases hh : (s.users u).handler = false <;> simp_all
      convert HubStep.deliverBuffer t u fs hs hh using 1
      simp [SigHub.setStack, SigHub.setUser]
  | inMessage => cases he

theorem ret_cases {s s' : SigHub τ υ} {t : τ} {supplied : Bool} (he : s.ret t supplied = some s') :
    HubStep s (.ret t supplied) s' := by
  simp only [SigHub.ret, unlock_release] at he
  split at he <;> cases he <;> rename_i hs
  · exact .retJoin t _ _ supplied hs
  · exact .retReplay t _ _ supplied hs
  · exact .retLeft t _ _ supplied hs
  · exact .retDeliver t _ _ supplied hs

/-- Every step of the hub is one of them. -/
theorem step_cases {s s' : SigHub τ υ} {a : SigAction τ υ} (he : s.step a = some s') :
    HubStep s a s' := by
  cases a with
  | register t u =>
    simp only [SigHub.step] at he
    split at he <;> cases he
    rename_i h
    exact .register t u h.1 h.2.2
  | send t u dst payload =>
    simp only [SigHub.step] at he
    split at he <;> [skip; cases he]
    rename_i h
    split at he <;> cases he
    · exact .send t u dst payload h.1
    · exact .sendDead t u dst payload
  | leave t u =>
    simp only [SigHub.step] at he
    split at he <;> [skip; cases he]
    rename_i h
    split at he <;> cases he <;> rename_i hl
    · exact .leaveAgain t u h.2 hl
    · exact .leave t u h.1 h.2 (by simpa using hl)
  | next t =>
    simp only [SigHub.step, SigHub.next] at he
    split at he <;> rename_i hs
    · cases he
    · exact registerNext_cases hs he
    · exact leaveNext_cases hs he
    · exact dispatchNext_cases hs he
    · exact deliverNext_cases hs he
  | ret t supplied => exact ret_cases he
  | dropHandle u =>
    simp only [SigHub.step] at he
    split at he <;> cases he
    exact .dropHandle u ‹_›
  | dropHandler u =>
    cases he
    exact .dropHandler u
  | dropHub =>
    cases he
    exact .dropHub

/-! ## A hub to run -/

/-! ## One call -/

namespace SigHub

/-- A hub with the calls on the stack of one thread, and the record of one user. -/
def focus (hub : SigHub τ υ) (t : τ) (fs : List (Frame υ)) (u : υ) (r : HubUser τ) : SigHub τ υ :=
  { hub with users := update hub.users u r, stack := update hub.stack t fs }

section Focus

variable {hub : SigHub τ υ} {t : τ} {fs : List (Frame υ)} {u : υ} {r : HubUser τ}

@[simp] theorem focus_stack : (hub.focus t fs u r).stack t = fs := by simp [focus]
@[simp] theorem focus_users : (hub.focus t fs u r).users u = r := by simp [focus]
@[simp] theorem focus_peers : (hub.focus t fs u r).peers = hub.peers := rfl
@[simp] theorem focus_setStack (gs : List (Frame υ)) :
    (hub.focus t fs u r).setStack t gs = hub.focus t gs u r := by
  simp [focus, setStack]
@[simp] theorem focus_setUser (r' : HubUser τ) :
    (hub.focus t fs u r).setUser u r' = hub.focus t fs u r' := by
  simp [focus, setUser]
@[simp] theorem focus_emit (e : Event υ) : (hub.focus t fs u r).emit e = (hub.emit e).focus t fs u r := rfl
@[simp] theorem focus_hubAlive : (hub.focus t fs u r).hubAlive = hub.hubAlive := rfl
@[simp] theorem focus_erase (id : PeerId) :
    (hub.focus t fs u r).erase id = (hub.erase id).focus t fs u r := rfl
@[simp] theorem focus_withPeers (peers : PeerId → Option υ) :
    { hub.focus t fs u r with peers } = focus { hub with peers } t fs u r := rfl

@[simp] theorem focus_unlock_release :
    ((hub.focus t fs u r).unlock u).release u =
      hub.focus t fs u { r with mutex := none, refs := r.refs - 1 } := by
  simp [unlock_release]

/-- The thread returned from its calls. -/
theorem focus_nil (hs : hub.stack t = []) : hub.focus t [] u r = hub.setUser u r := by
  simp [focus, setUser, ← hs]

theorem focus_self (u : υ) : hub.setStack t fs = hub.focus t fs u (hub.users u) := by
  simp [focus, setStack]

end Focus

end SigHub

/-- One thread and two users, `false` and `true`, with these ids. -/
def twoUsers (id id' : String) : Lts (SigHub Unit Bool) (SigAction Unit Bool) :=
  SigHub.lts Unit fun u => ⟨bif u then id' else id⟩

/-- `Register` with a factory that supplies a handler. -/
def registering (u : Bool) : List (SigAction Unit Bool) :=
  [.register () u, .next (), .ret () true, .next (), .next (), .next ()]

end TX.Rtt
