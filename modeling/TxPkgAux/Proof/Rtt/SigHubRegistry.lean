import TxPkgAux.Proof.Rtt.SigHubInv

/-!
# `SigHub`: who is registered under an id

`_peers` is keyed by the id, and `Unregister` and a failed join erase by the id:
whoever is stored there is removed. `OwnErase` is the condition that an erase meets
its own entry, or one whose user has left or was dropped. `dispatch_delivers` says
that then a message for an id reaches the user last registered under it, as long as
that user is current; `dispatch_drops` is a run in which the `Leave` of an older
user makes the hub drop it.
-/

namespace TX.Rtt

open Function (update)

variable {τ υ : Type} [DecidableEq τ] [DecidableEq υ]

/-- The user that an event inserts under the id. -/
def Event.insertedAt (localId : υ → PeerId) (id : PeerId) : Event υ → Option υ
  | .inserted u => if localId u = id then some u else none
  | _ => none

/-- The user last inserted under the id. -/
def SigHub.newest (s : SigHub τ υ) (id : PeerId) : Option υ :=
  s.log.findSome? (Event.insertedAt (fun u => (s.users u).localId) id)

/-- The user joined and is the last one inserted under its id; it has not left and
its handle was not dropped. -/
def SigHub.Current (s : SigHub τ υ) (u : υ) : Prop :=
  .joined u ∈ s.log ∧ s.newest (s.users u).localId = some u ∧ (s.users u).left = false ∧
    (s.users u).handle = .held

/-- The user in whose name a step erases the entry of its id. -/
def SigHub.erases (s : SigHub τ υ) : SigAction τ υ → Option υ
  | .next t =>
    match s.stack t with
    | .register u .erasing :: _ => some u
    | .leave u .unregistering :: _ => if s.hubAlive then some u else none
    | _ => none
  | _ => none

/-- An erase meets its own entry, or one whose user has left or was dropped. -/
def OwnErase (s : SigHub τ υ) (a : SigAction τ υ) : Prop :=
  ∀ u ∈ s.erases a, ∀ v ∈ s.peers (s.users u).localId,
    v = u ∨ (s.users v).left = true ∨ (s.users v).handle = .dropped

/-- `Register` has inserted the user and waits for the join. -/
def RegisterPc.undecided : RegisterPc → Bool
  | .joining | .checking _ => true
  | _ => false

/-- Only an insertion makes another user the last one inserted under its id. -/
theorem HubStep.newest {s s' : SigHub τ υ} {a : SigAction τ υ} (h : HubStep s a s') (id : PeerId) :
    s'.newest id = s.newest id ∨ ∃ t u fs, s.stack t = .register u .inserting :: fs ∧
      s'.peers = update s.peers id (some u) ∧ s'.newest id = some u ∧ (s.users u).localId = id := by
  have hl : (fun u => (s'.users u).localId) = fun u => (s.users u).localId :=
    funext fun u => (h.user u).localId
  simp only [SigHub.newest, hl]
  cases h
  case insert t u fs hs =>
    by_cases hid : (s.users u).localId = id
    · exact .inr ⟨t, u, fs, hs, by simp [Event.insertedAt, hid]⟩
    · exact .inl (by simp [Event.insertedAt, hid])
  all_goals exact .inl rfl

/-- The user joined, or its join is not decided yet. -/
def SigHub.Joins (s : SigHub τ υ) (u : υ) : Prop :=
  .joined u ∈ s.log ∨ ∃ t pc, .register u pc ∈ s.stack t ∧ pc.undecided = true

/-- The registry of the hub. -/
structure Registry (s : SigHub τ υ) : Prop where
  hub : HubInv s
  entry : ∀ u, s.Joins u → s.newest (s.users u).localId = some u → (s.users u).left = false →
    (s.users u).handle = .held → s.peers (s.users u).localId = some u

section Step

variable {s s' : SigHub τ υ} {a : SigAction τ υ}

/-- A user that joins did so before, or is inserted now. -/
theorem HubStep.registry_joins (h : HubStep s a s') {u : υ} (hj : s'.Joins u) :
    s.Joins u ∨ s'.peers (s.users u).localId = some u := by
  rcases hj with hj | ⟨t, pc, hm, hu⟩
  · rcases h.joined_mem hj with hj | ⟨t, hm, -⟩
    · exact .inl (.inl hj)
    · exact .inl (.inr ⟨t, _, hm, rfl⟩)
  · rcases h.mem hm with hm | hf | ⟨hs, hf, -⟩
    · exact .inl (.inr ⟨t, pc, hm, hu⟩)
    · cases hf with
      | register => cases hu
    · cases hf with
      | insert hp => exact .inr hp
      | register hf =>
        cases hf with
        | join => exact .inl (.inr ⟨t, _, mem_top hs, rfl⟩)
        | joined | unjoined | lock | bind | replay | replayed => cases hu

omit [DecidableEq τ] in
/-- A user that joins and has not left is not erased in its own name. -/
theorem Registry.not_erases (hr : Registry s) {u : υ} (hj : s.Joins u)
    (hl : (s.users u).left = false) : s.erases a ≠ some u := by
  intro he
  simp only [SigHub.erases] at he
  split at he <;> [skip; cases he]
  rename_i t
  split at he
  · rename_i v fs hs
    obtain rfl : v = u := by simpa using he
    have hm : .register v .erasing ∈ s.stack t := by simp [hs]
    rcases hj with hj | ⟨t', pc, hm', hu⟩
    · exact absurd ((hr.hub.joined v hj).2 t _ hm) (by simp [RegisterPc.succeeded])
    · have := (hr.hub.registerOnce v).eq hm hm' (by simp [Frame.isRegister]) (by simp [Frame.isRegister])
      grind -linarith -order [RegisterPc.undecided]
  · rename_i v fs hs
    split at he <;> cases he
    have hm : .leave u .unregistering ∈ s.stack t := by simp [hs]
    exact absurd (hr.hub.leaving t u _ hm).1 (by simp [hl])
  · cases he

omit [DecidableEq τ] in
/-- An erase under the condition is not at the id of a user that joins. -/
theorem Registry.erase_ne (hr : Registry s) (ho : OwnErase s a) {u v : υ} (hj : s.Joins u)
    (hl : (s.users u).left = false) (hh : (s.users u).handle = .held)
    (he : s.peers (s.users u).localId = some u) (hv : s.erases a = some v) :
    (s.users v).localId ≠ (s.users u).localId := by
  intro hid
  rcases ho v hv u (by rw [hid]; exact he) with rfl | h | h
  · exact hr.not_erases hj hl hv
  · simp [hl] at h
  · simp [hh] at h

theorem HubStep.registry_kept (h : HubStep s a s') (hr : Registry s) (ho : OwnErase s a) {u : υ}
    (hj : s.Joins u) (hl : (s.users u).left = false) (hh : (s.users u).handle = .held)
    (he : s.peers (s.users u).localId = some u) (hn : s'.newest (s.users u).localId = some u) :
    s'.peers (s.users u).localId = some u := by
  cases h
  case insert t v fs hs =>
    by_cases hid : (s.users v).localId = (s.users u).localId
    · simp_all [SigHub.newest, Event.insertedAt]
    · simp [Ne.symm hid, he]
  case eraseFailed t v fs hs =>
    have hne := hr.erase_ne ho hj hl hh he (v := v) (by simp [SigHub.erases, hs])
    simp [Ne.symm hne, he]
  case unregister t v fs hs ha =>
    have hne := hr.erase_ne ho hj hl hh he (v := v) (by simp [SigHub.erases, hs, ha])
    simp [Ne.symm hne, he]
  case dispatchStale t v src dst payload fs hs hp ha =>
    have hne : (s.users u).localId ≠ dst := by
      rintro rfl
      obtain rfl : u = v := by simpa [he] using hp
      simp [HubUser.alive, hh] at ha
    simp [hne, he]
  all_goals exact he

theorem HubStep.registry_entry (h : HubStep s a s') (hr : Registry s) (ho : OwnErase s a) (u : υ)
    (hj : s'.Joins u) (hn : s'.newest (s'.users u).localId = some u) (hl : (s'.users u).left = false)
    (hh : (s'.users u).handle = .held) : s'.peers (s'.users u).localId = some u := by
  rw [(h.user u).localId] at hn ⊢
  rcases h.newest (s.users u).localId with hnew | ⟨t, v, fs, hs, hp, hnew, hid⟩
  · rcases h.registry_joins hj with hj | hp
    · have hl' : (s.users u).left = false := by
        by_contra hn
        have := (h.user u).left (by simpa using hn)
        simp [hl] at this
      rcases h.handle u with he | ⟨-, hd⟩ | ⟨-, -, hp⟩
      · rw [he] at hh
        exact h.registry_kept hr ho hj hl' hh (hr.entry u hj (hnew ▸ hn) hl' hh) hn
      · simp [hh] at hd
      · exact hp
    · exact hp
  · obtain rfl : v = u := by simpa [hnew] using hn
    simp [hp]

theorem HubStep.registry (h : HubStep s a s') (hr : Registry s) (ho : OwnErase s a) : Registry s' :=
  ⟨h.hubInv hr.hub, h.registry_entry hr ho⟩

end Step

theorem Registry.reach {localId : υ → PeerId} {s : SigHub τ υ}
    (h : (SigHub.lts τ localId).Reach OwnErase s) : Registry s :=
  h.invariant ⟨.init localId, by simp [SigHub.lts, SigHub.newest]⟩
    fun hI ho he => (step_cases he).registry hI ho

/-- In a run in which every erase is in its own name, a message for an id is handed
to the current user of that id. -/
theorem dispatch_delivers {localId : υ → PeerId} {s : SigHub τ υ}
    (h : (SigHub.lts τ localId).Reach OwnErase s) {u : υ} (hc : s.Current u) {t : τ} {src : PeerId}
    {payload : String} {fs : List (Frame υ)}
    (hs : s.stack t = .dispatch src (s.users u).localId payload :: fs) :
    ∃ s', s.step (.next t) = some s' ∧ s'.stack t = .deliver u ⟨src, payload⟩ .locking :: fs := by
  obtain ⟨hj, hn, hl, hh⟩ := hc
  have he := (Registry.reach h).entry u (.inl hj) hn hl hh
  have ha : (s.users u).alive = true := by simp [HubUser.alive, hh]
  have hst : s.step (.next t) = some ((s.setUser u { s.users u with refs := (s.users u).refs + 1 }).setStack
      t (.deliver u ⟨src, payload⟩ .locking :: fs)) := by
    simp only [SigHub.step, SigHub.next, hs, SigHub.dispatchNext, he, ha, if_true]
  exact ⟨_, hst, by simp [SigHub.setStack]⟩

instance (s : SigHub τ υ) (u : υ) : Decidable (s.Current u) :=
  inferInstanceAs (Decidable (_ ∧ _ ∧ _ ∧ _))

instance (s : SigHub τ υ) (a : SigAction τ υ) : Decidable (OwnErase s a) :=
  inferInstanceAs (Decidable (∀ u ∈ s.erases a, ∀ v ∈ s.peers (s.users u).localId, _))

/-- A user registers under the id of another and gets the message for it. -/
theorem dispatch_delivers_newer : ∃ s, (twoUsers "a" "a").Reach OwnErase s ∧ s.Current true ∧
    ∃ s', s.step (.next ()) = some s' ∧
      s'.stack () = [.deliver true ⟨⟨"a"⟩, "m"⟩ .locking] := by
  obtain ⟨s, hs, hq⟩ := Lts.Reach.of_run (twoUsers "a" "a") OwnErase
    ((registering false ++ registering true).append [.send () false ⟨"a"⟩ "m"])
    (fun s => s.Current true ∧ s.stack () = [.dispatch ⟨"a"⟩ (s.users true).localId "m"]) (by decide +kernel)
  obtain ⟨hc, hst⟩ := of_decide_eq_true hq
  exact ⟨s, hs, hc, dispatch_delivers hs hc hst⟩

/-- The same, but the older user leaves before: the message is dropped. -/
theorem dispatch_drops : ∃ s, (twoUsers "a" "a").Reach Lts.Any s ∧ s.Current true ∧
    s.stack () = [.dispatch ⟨"a"⟩ (s.users true).localId "m"] ∧
    (s.step (.next ())).map (fun s' => s'.stack ()) = some [] := by
  obtain ⟨s, hs, hq⟩ := Lts.Reach.of_run (twoUsers "a" "a") Lts.Any
    ((registering false ++ registering true).append [.leave () false, .next (), .next (), .next (), .next (),
      .ret () true, .send () true ⟨"a"⟩ "m"])
    (fun s => s.Current true ∧ s.stack () = [.dispatch ⟨"a"⟩ (s.users true).localId "m"] ∧
      (s.step (.next ())).map (fun s' => s'.stack ()) = some []) (by decide +kernel)
  exact ⟨s, hs, of_decide_eq_true hq⟩

end TX.Rtt
