import TxPkgAux.Framework.Routes
import TxPkgAux.Impl.Rtt.JsRtcTransport
import TxPkgAux.Proof.Rtt.DcInv

/-!
# `DcRtcTransport` and `JsRtcTransport`: the routes in `peers`

Both transports have a `RoutingModel`: a link (a context) is stored under the id of its
peer, over an older one of that id, and its end erases by id. An older link that ends
after a newer one was stored takes the newer one out (`routes_lost`); where it ends
before, an entry is removed by the end of its own link only (`routes_kept`).
-/

namespace TX.Rtt

open Function (update)

/-! ## `DcRtcTransport` -/

section Dc

variable {τ : Type} [DecidableEq τ]

namespace DcRtcTransport

def routes (s : DcRtcTransport τ) : Routes PeerId where
  peers := s.peers
  key l := (s.links l).remoteId
  created := s.created
  ended l := (s.links l).ended

/-- The link whose `onGone`, `onClosed` or `onFailed` the action is. -/
def ends (s : DcRtcTransport τ) : DcAction τ → Option Nat
  | .changeNext l =>
    match (s.links l).change with
    | some (.ending _) => some l
    | _ => none
  | _ => none

omit [DecidableEq τ] in
theorem routes_eq {s s' : DcRtcTransport τ} (hp : s'.peers = s.peers) (hc : s'.created = s.created)
    (h : ∀ l, (s'.links l).remoteId = (s.links l).remoteId ∧ (s'.links l).ended = (s.links l).ended) :
    s'.routes = s.routes :=
  Routes.ext hp (funext fun l => (h l).1) hc (funext fun l => (h l).2)

end DcRtcTransport

theorem DcStep.routes {parse : Parse} {s s' : DcRtcTransport τ} {a : DcAction τ}
    (h : DcStep parse s a s') (ha : s'.alive = true) :
    s'.routes = s.routes ∨ (∃ id, s'.routes = s.routes.store id) ∨
      ∃ l, s.ends a = some l ∧ s'.routes = s.routes.finish l := by
  cases h
  case handleOffer t accepted src sdp hc =>
    refine .inr (.inl ⟨src, Routes.ext rfl ?_ rfl ?_⟩) <;> funext l <;>
      simp only [DcRtcTransport.routes, Routes.store, Function.update_apply] <;> split <;> rfl
  case openOfferer t accepted hc =>
    refine .inr (.inl ⟨s.remoteId, Routes.ext rfl ?_ rfl ?_⟩) <;> funext l <;>
      simp only [DcRtcTransport.routes, Routes.store, Function.update_apply] <;> split <;> rfl
  case gone l st hc ha =>
    refine .inr (.inr ⟨l, by simp [DcRtcTransport.ends, hc], Routes.ext rfl ?_ rfl ?_⟩) <;> funext k <;>
      simp only [DcRtcTransport.routes, Routes.finish, Function.update_apply] <;> split <;> simp_all
  case destroy => cases ha
  all_goals exact .inl (DcRtcTransport.routes_eq rfl rfl (by grind -linarith -order [Function.update_apply]))

/-- The routes of a `DcRtcTransport`. -/
def dcRouting (parse : Parse) (remoteId : PeerId) (max : Nat) :
    RoutingModel (DcRtcTransport.lts τ parse remoteId max) PeerId where
  view := DcRtcTransport.routes
  alive := DcRtcTransport.alive
  ends := DcRtcTransport.ends
  init_valid := ⟨by simp [DcRtcTransport.lts, DcRtcTransport.routes],
    by simp [DcRtcTransport.lts, DcRtcTransport.routes, Routes.Newest]⟩
  step_view he ha := ⟨(DcStep.of_step he).alive ha, (DcStep.of_step he).routes ha⟩

end Dc

/-! ## `JsRtcTransport` -/

namespace JsRtcTransport

def routes (s : JsRtcTransport) : Routes PeerId where
  peers := s.peers
  key c := (s.contexts c).remoteId
  created := s.created
  ended c := (s.contexts c).ended

/-- The context whose `~JsRtcLink` the action runs. -/
def ends (s : JsRtcTransport) : JsAction → Option Nat
  | .onLink c keep h => if ((s.setHandler c keep h).contexts c).held = 0 then some c else none
  | .dropLink c =>
    if (s.contexts c).held = 1 ∧ (s.contexts c).inOnLink = false then some c else none
  | _ => none

variable {s s' : JsRtcTransport}

theorem routes_eq (hp : s'.peers = s.peers) (hc : s'.created = s.created)
    (h : ∀ c, (s'.contexts c).remoteId = (s.contexts c).remoteId ∧
      (s'.contexts c).ended = (s.contexts c).ended) : s'.routes = s.routes :=
  Routes.ext hp (funext fun c => (h c).1) hc (funext fun c => (h c).2)

/-- A context keeps its id, and its end, when other fields are set. -/
theorem setContext_routes {c : Nat} {r : JsRtcPeerContext} (hr : r.remoteId = (s.contexts c).remoteId)
    (he : r.ended = (s.contexts c).ended) : (s.setContext c r).routes = s.routes :=
  routes_eq rfl rfl fun k => by
    by_cases hk : k = c
    · subst hk
      simp [setContext, hr, he]
    · simp [setContext, hk]

theorem store_routes {r : JsRtcPeerContext} (he : r.ended = false) :
    (s.store r).routes = s.routes.store r.remoteId := by
  refine Routes.ext rfl ?_ rfl ?_ <;> funext k <;>
    simp only [routes, store, Routes.store, Function.update_apply] <;> split <;> simp [he]

theorem destroyLink_routes {c : Nat} (ha : s.alive = true) :
    (s.destroyLink c).routes = s.routes.finish c := by
  simp only [destroyLink, ha, if_true]
  refine Routes.ext rfl ?_ rfl ?_ <;> funext k <;>
    simp only [routes, setContext, Routes.finish, Function.update_apply] <;> split <;> simp_all

@[simp]
theorem emit_routes (s : JsRtcTransport) (e : JsEvent) : (s.emit e).routes = s.routes := rfl

theorem setRemoteAnswer_routes (s : JsRtcTransport) (c : Nat) (d : Description) :
    (s.setRemoteAnswer c d).routes = s.routes := by
  simp only [setRemoteAnswer]
  split
  · rw [emit_routes]
    exact setContext_routes rfl rfl
  · rfl

theorem addIceCandidate_routes (s : JsRtcTransport) (c : Nat) (cand : Candidate) :
    (s.addIceCandidate c cand).routes = s.routes := by
  simp only [addIceCandidate]
  split
  · split
    · rfl
    · exact setContext_routes rfl rfl
  · rfl

theorem onOffer_routes (s : JsRtcTransport) (src : PeerId) (j : Json) :
    (s.onOffer src j).routes = s.routes ∨ (s.onOffer src j).routes = s.routes.store src := by
  simp only [onOffer]
  split
  · exact .inl rfl
  · split
    · exact .inl rfl
    · exact .inr (store_routes rfl)

theorem onAnswer_routes (s : JsRtcTransport) (src : PeerId) (j : Json) :
    (s.onAnswer src j).routes = s.routes := by
  simp only [onAnswer]
  split
  · split
    · rfl
    · split
      · rfl
      · exact setRemoteAnswer_routes s _ _
  · rfl

theorem onCandidate_routes (s : JsRtcTransport) (src : PeerId) (j : Json) :
    (s.onCandidate src j).routes = s.routes := by
  simp only [onCandidate]
  split
  · split
    · rfl
    · exact addIceCandidate_routes s _ _
  · rfl

theorem onMessage_routes (parse : Parse) (s : JsRtcTransport) (m : SigMessage) :
    (s.onMessage parse m).routes = s.routes ∨
      ∃ id, (s.onMessage parse m).routes = s.routes.store id := by
  simp only [onMessage]
  split
  · exact .inl rfl
  · split
    · exact .inl rfl
    · exact (onOffer_routes s m.src _).imp id fun h => ⟨m.src, h⟩
    · exact .inl (onAnswer_routes s m.src _)
    · exact .inl (onCandidate_routes s m.src _)
    · exact .inl rfl

theorem onJoined_routes (s : JsRtcTransport) (result : Option Error) :
    (s.onJoined result).routes = s.routes ∨ ∃ id, (s.onJoined result).routes = s.routes.store id := by
  cases result with
  | some e => exact .inl rfl
  | none =>
    simp only [onJoined]
    split
    · exact .inr ⟨s.remoteId, store_routes rfl⟩
    · exact .inl rfl

theorem setHandler_routes (s : JsRtcTransport) (c : Nat) (keep : Bool) (h : LinkHandler) :
    (s.setHandler c keep h).routes = s.routes := by
  change (s.setContext c _).routes = s.routes
  exact setContext_routes rfl rfl

theorem onLink_routes {c : Nat} {keep : Bool} {h : LinkHandler} (ha : s.alive = true) :
    (s.onLink c keep h).routes = s.routes ∨
      s.ends (.onLink c keep h) = some c ∧ (s.onLink c keep h).routes = s.routes.finish c := by
  simp only [onLink]
  split
  · rename_i hheld
    refine .inr ⟨by simp [ends, hheld], ?_⟩
    rw [destroyLink_routes (by exact ha), setHandler_routes]
  · exact .inl (setHandler_routes s c keep h)

theorem dropLink_routes {c : Nat} (ha : s.alive = true) :
    (s.dropLink c).routes = s.routes ∨
      s.ends (.dropLink c) = some c ∧ (s.dropLink c).routes = s.routes.finish c := by
  have hset : (s.setContext c { s.contexts c with held := (s.contexts c).held - 1 }).routes = s.routes :=
    setContext_routes rfl rfl
  simp only [dropLink]
  split
  · rename_i hheld
    exact .inr ⟨by simp [ends, hheld], by rw [destroyLink_routes (by exact ha), hset]⟩
  · exact .inl hset

theorem onDataChannelOpen_routes (s : JsRtcTransport) (c : Nat) :
    (s.onDataChannelOpen c).routes = s.routes := by
  simp only [onDataChannelOpen]
  split
  · rfl
  · split
    · exact setContext_routes (s := s) rfl rfl
    · exact setContext_routes rfl rfl

theorem onClose_routes (s : JsRtcTransport) (c : Nat) : (s.onClose c).routes = s.routes := by
  simp only [onClose]
  split
  · split
    · rw [emit_routes]
      exact setContext_routes rfl rfl
    · exact setContext_routes rfl rfl
  · rfl

end JsRtcTransport

theorem JsRtcTransport.alive_of_step {parse : Parse} {s s' : JsRtcTransport} {a : JsAction}
    (he : s.step parse a = some s') (ha : s'.alive = true) : s.alive = true := by
  cases a <;> simp only [step] at he <;> split at he <;> cases he <;>
    grind -linarith -order [onDescSet, onDataChannelOpen, onLink, onClose, dropLink, destroyLink, setContext, emit,
      setHandler]

theorem JsRtcTransport.step_routes {parse : Parse} {s s' : JsRtcTransport} {a : JsAction}
    (he : s.step parse a = some s') (ha : s.alive = true) (ha' : s'.alive = true) :
    s'.routes = s.routes ∨ (∃ id, s'.routes = s.routes.store id) ∨
      ∃ c, s.ends a = some c ∧ s'.routes = s.routes.finish c := by
  cases a with
  | joined result =>
    simp only [step] at he
    split at he <;> cases he
    exact (onJoined_routes s result).imp id .inl
  | onMessage m =>
    simp only [step] at he
    split at he <;> cases he
    exact (onMessage_routes parse s m).imp id .inl
  | onLeft ec =>
    simp only [step] at he
    split at he <;> cases he
    cases ec <;> exact .inl rfl
  | descSet c =>
    simp only [step] at he
    split at he <;> cases he
    refine .inl ?_
    change (s.setContext c _).routes = s.routes
    exact setContext_routes rfl rfl
  | onDataChannelOpen c =>
    simp only [step] at he
    split at he <;> cases he
    exact .inl (onDataChannelOpen_routes s c)
  | onLink c keep h =>
    simp only [step] at he
    split at he <;> cases he
    exact (onLink_routes ha).imp id fun h => .inr ⟨c, h⟩
  | onDataChannelClose c =>
    simp only [step] at he
    split at he <;> cases he
    exact .inl (onClose_routes s c)
  | disconnect c =>
    simp only [step] at he
    split at he <;> cases he
    refine .inl ?_
    split
    · rfl
    · exact setContext_routes rfl rfl
  | dropLink c =>
    simp only [step] at he
    split at he <;> cases he
    exact (dropLink_routes ha).imp id fun h => .inr ⟨c, h⟩
  | destroy =>
    simp only [step] at he
    split at he <;> cases he
    cases ha'

/-- The routes of a `JsRtcTransport`. -/
def jsRouting (parse : Parse) (remoteId : PeerId) (max : Nat) :
    RoutingModel (JsRtcTransport.lts parse remoteId max) PeerId where
  view := JsRtcTransport.routes
  alive := JsRtcTransport.alive
  ends := JsRtcTransport.ends
  init_valid := ⟨by simp [JsRtcTransport.lts, JsRtcTransport.routes],
    by simp [JsRtcTransport.lts, JsRtcTransport.routes, Routes.Newest]⟩
  step_view he ha :=
    have hal := JsRtcTransport.alive_of_step he ha
    ⟨hal, JsRtcTransport.step_routes he hal ha⟩

/-! ## Both -/

/-- In a run of either transport in which a link ends only while no newer link of its
peer is left, the newest link of a peer is found under its id until it ends, and an
entry is removed by the end of its own link only. -/
theorem routes_kept {τ : Type} [DecidableEq τ] (parse : Parse) (remoteId : PeerId) (max : Nat) :
    (∀ s : DcRtcTransport τ,
      (DcRtcTransport.lts τ parse remoteId max).Reach (dcRouting parse remoteId max).Apart s →
        s.alive = true → (dcRouting parse remoteId max).Kept s) ∧
    ∀ s : JsRtcTransport,
      (JsRtcTransport.lts parse remoteId max).Reach (jsRouting parse remoteId max).Apart s →
        s.alive = true → (jsRouting parse remoteId max).Kept s := by
  refine ⟨fun s h hs => ?_, fun s h hs => ?_⟩
  · exact RoutingModel.kept h hs
  · exact RoutingModel.kept h hs

/-- A second offer of a peer whose first link is gone. -/
theorem routes_kept_again :
    (∃ s, (DcRtcTransport.answerer 2).Reach (dcRouting DcRtcTransport.sampleParse ⟨""⟩ 2).Apart s ∧
      s.created = 2 ∧ s.peers ⟨"a"⟩ = some 1) ∧
    ∃ s, (JsRtcTransport.lts DcRtcTransport.sampleParse ⟨""⟩ 2).Reach
      (jsRouting DcRtcTransport.sampleParse ⟨""⟩ 2).Apart s ∧ s.created = 2 ∧ s.peers ⟨"a"⟩ = some 1 := by
  constructor
  · obtain ⟨s, hs, hq⟩ := Lts.Reach.of_run (DcRtcTransport.answerer 2)
      (dcRouting DcRtcTransport.sampleParse ⟨""⟩ 2).Apart
      (.joined () none :: (DcRtcTransport.offered "a" ++ DcRtcTransport.opening 0 true ++
        DcRtcTransport.reporting 0 .closed 3 ++ DcRtcTransport.offered "a"))
      (fun s => s.alive = true ∧ s.created = 2 ∧ s.routes.Newest 1 ∧ s.routes.ended 1 = false ∧
        s.routes.key 1 = ⟨"a"⟩) (by decide +kernel)
    obtain ⟨ha, hc, hn, he, hk⟩ := of_decide_eq_true hq
    exact ⟨s, hs, hc, hk ▸ ((routes_kept _ _ _).1 s hs ha).routed 1 hn he⟩
  · obtain ⟨s, hs, hq⟩ := Lts.Reach.of_run (JsRtcTransport.lts DcRtcTransport.sampleParse ⟨""⟩ 2)
      (jsRouting DcRtcTransport.sampleParse ⟨""⟩ 2).Apart
      [.joined none, .onMessage (DcRtcTransport.offerFrom "a"), .onDataChannelOpen 0,
        .onLink 0 true ⟨true⟩, .dropLink 0, .onMessage (DcRtcTransport.offerFrom "a")]
      (fun s => s.alive = true ∧ s.created = 2 ∧ s.routes.Newest 1 ∧ s.routes.ended 1 = false ∧
        s.routes.key 1 = ⟨"a"⟩) (by decide +kernel)
    obtain ⟨ha, hc, hn, he, hk⟩ := of_decide_eq_true hq
    exact ⟨s, hs, hc, hk ▸ ((routes_kept (τ := Unit) _ _ _).2 s hs ha).routed 1 hn he⟩

/-- A second offer of a peer whose first link is still there: when that ends, the
second one is taken out of `peers`. -/
theorem routes_lost :
    (∃ s, (DcRtcTransport.answerer 2).Reach Lts.Any s ∧ s.alive = true ∧ s.routes.Newest 1 ∧
      (s.links 1).remoteId = ⟨"a"⟩ ∧ (s.links 1).ended = false ∧ s.peers ⟨"a"⟩ = none) ∧
    ∃ s, (JsRtcTransport.lts DcRtcTransport.sampleParse ⟨""⟩ 2).Reach Lts.Any s ∧ s.alive = true ∧
      s.routes.Newest 1 ∧ (s.contexts 1).remoteId = ⟨"a"⟩ ∧ (s.contexts 1).ended = false ∧
      s.peers ⟨"a"⟩ = none := by
  constructor
  · obtain ⟨s, hs, hq⟩ := Lts.Reach.of_run (DcRtcTransport.answerer 2) Lts.Any
      (.joined () none :: (DcRtcTransport.offered "a" ++ DcRtcTransport.opening 0 true ++
        DcRtcTransport.offered "a" ++ DcRtcTransport.reporting 0 .closed 3))
      (fun s => s.alive = true ∧ s.routes.Newest 1 ∧ (s.links 1).remoteId = ⟨"a"⟩ ∧
        (s.links 1).ended = false ∧ s.peers ⟨"a"⟩ = none) (by decide +kernel)
    exact ⟨s, hs, of_decide_eq_true hq⟩
  · obtain ⟨s, hs, hq⟩ := Lts.Reach.of_run (JsRtcTransport.lts DcRtcTransport.sampleParse ⟨""⟩ 2)
      Lts.Any
      [.joined none, .onMessage (DcRtcTransport.offerFrom "a"), .onDataChannelOpen 0,
        .onLink 0 true ⟨true⟩, .onMessage (DcRtcTransport.offerFrom "a"), .dropLink 0]
      (fun s => s.alive = true ∧ s.routes.Newest 1 ∧ (s.contexts 1).remoteId = ⟨"a"⟩ ∧
        (s.contexts 1).ended = false ∧ s.peers ⟨"a"⟩ = none) (by decide +kernel)
    exact ⟨s, hs, of_decide_eq_true hq⟩

end TX.Rtt
