import TxPkgAux.Impl.Rtt.WsSignaling
import TxPkgAux.Proof.Rtt.WsClientDelivery
import TxPkgAux.Proof.Rtt.WsServerRoutes

/-!
# Signaling over WebSocket: steps

`addressedTo` are the messages that the frames the server handled have for a peer, since the
peer was registered: a frame of the peer `a` counts as a message from `a`, whatever it says.
`SigNetStep` lists the steps of the network. Three parts of its invariant follow a message:
`Connected` that every connection is that of one peer, `Forwarded` from the server's
`onMessage` through the hub to the connection, and `Received` from there to the client.
-/

namespace TX.Rtt

open Function (update)

variable {ι : Type} [DecidableEq ι]

/-- `json::parse` takes back what `json::dump` made of an envelope. -/
def Codec (parse : Parse) (dump : Dump) : Prop :=
  ∀ id payload, parse (dump (envelope id payload)) = some (envelope id payload)

/-- What a frame says, as a message. -/
def decode (parse : Parse) (text : String) : Option SigMessage :=
  match readFrame parse text with
  | .fields id payload => some ⟨id, payload⟩
  | .ignored | .threw => none

namespace SigEvent

/-- The message for `b` in a frame that the server handled. -/
def addressed (parse : Parse) (id : ι → PeerId) (b : ι) : SigEvent ι → Option SigMessage
  | .handled a text =>
    match readFrame parse text with
    | .fields dst payload => if dst = id b then some ⟨id a, payload⟩ else none
    | .ignored | .threw => none
  | .accepted _ | .wrote _ _ => none

/-- The messages for `b` in the frames handled since `b` was registered, in order. -/
def addressedIn (parse : Parse) (id : ι → PeerId) (b : ι) (history : List (SigEvent ι)) : List SigMessage :=
  ((history.takeWhile (· ≠ .accepted b)).filterMap (addressed parse id b)).reverse

def wroteBy (i : ι) : SigEvent ι → Option String
  | .wrote j text => if j = i then some text else none
  | .accepted _ | .handled _ _ => none

def handledBy (i : ι) : SigEvent ι → Option String
  | .handled j text => if j = i then some text else none
  | .accepted _ | .wrote _ _ => none

end SigEvent

namespace WsSignaling

/-- The frames that a client wrote, in order. -/
def writtenBy (s : WsSignaling ι) (i : ι) : List String :=
  (s.history.filterMap (SigEvent.wroteBy i)).reverse

/-- The frames of a client that the server handled, in order. -/
def handledBy (s : WsSignaling ι) (i : ι) : List String :=
  (s.history.filterMap (SigEvent.handledBy i)).reverse

/-- The messages for a peer that the server handled since it registered the peer, in order. -/
def addressedTo (parse : Parse) (id : ι → PeerId) (s : WsSignaling ι) (b : ι) : List SigMessage :=
  SigEvent.addressedIn parse id b s.history

/-- The messages on their way from the server to the handler of a peer. -/
def inFlight (parse : Parse) (s : WsSignaling ι) (b : ι) (w : ℕ) : List SigMessage :=
  (s.clients b).undelivered ++ ((s.server.sentOn w).drop (s.received b)).filterMap (decode parse)

end WsSignaling

/-! ## Steps -/

/-- A step of the server that is not about a frame or a new connection. -/
def ServerAction.closes : ServerAction → Bool
  | .closing _ | .onClosed _ | .disconnectPeer _ => true
  | .onOpen _ | .onMessage _ _ | .dispatch _ _ _ => false

/-- The steps of the network. -/
inductive SigNetStep (parse : Parse) (dump : Dump) (s : WsSignaling ι) :
    SigNetAction ι → WsSignaling ι → Prop where
  | refused (i : ι) :
    SigNetStep parse dump s (.accept i) { s with server := { s.server with log := .refused :: s.server.log } }
  | accepted (i : ι) (hc : s.conn i = none) :
    SigNetStep parse dump s (.accept i) { s with
      server := s.server.registered (s.clients i).id
      conn := update s.conn i (some s.server.opened)
      history := .accepted i :: s.history }
  | client (i : ι) (a : WsAction) (c : DcWsSigClient) (hn : ∀ text, a ≠ .onMessage text)
      (hs : WsStep parse (s.clients i) a c) :
    SigNetStep parse dump s (.client i a) ({ s with clients := update s.clients i c }.wrote i
      (WsSignaling.frames dump (s.clients i) a))
  | write (i : ι) (text : String) : SigNetStep parse dump s (.write i text) (s.wrote i [text])
  | handled (i : ι) (w : ℕ) (text : String) (rest : List String) (server : DcWsSigServer)
      (hc : s.conn i = some w) (hu : s.up i = text :: rest)
      (hs : ServerStep parse dump s.server (.onMessage w (.text text)) server) :
    SigNetStep parse dump s (.serverFrame i) { s with
      server, up := update s.up i rest, history := .handled i text :: s.history }
  | given (i : ι) (w : ℕ) (text : String) (c : DcWsSigClient) (hc : s.conn i = some w)
      (ht : (s.server.sentOn w)[s.received i]? = some text)
      (hs : WsStep parse (s.clients i) (.onMessage text) c)
      (hp : (s.clients i).userAlive = true → c.passed = (s.clients i).passed ++ (decode parse text).toList) :
    SigNetStep parse dump s (.clientFrame i) { s with
      clients := update s.clients i c
      received := update s.received i (s.received i + 1) }
  | server {a : SigNetAction ι} (b : ServerAction) (server : DcWsSigServer) (hb : b.closes = true)
      (hs : ServerStep parse dump s.server b server) : SigNetStep parse dump s a { s with server }

section Cases

variable {parse : Parse} {dump : Dump} {s s' : WsSignaling ι} {a : SigNetAction ι}

theorem connIdOf_slash (v : String) : connIdOf (some ("/" ++ v)) = ⟨v⟩ := by
  simp [connIdOf, String.toList_append]

theorem client_step {i : ι} {b : WsAction} (hn : ∀ text, b ≠ .onMessage text) :
    s.step parse dump (.client i b) = ((s.clients i).step parse b).map fun c =>
      { s with clients := update s.clients i c }.wrote i (WsSignaling.frames dump (s.clients i) b) := by
  cases b with
  | onMessage text => exact absurd rfl (hn text)
  | _ => rfl

theorem onOpen_refused {server : DcWsSigServer} {path : Option String} (hp : (connIdOf path).value = "") :
    server.onOpen dump path = some { server with log := .refused :: server.log } := by
  simp [DcWsSigServer.onOpen, hp, DcWsSigServer.emit]

theorem serverStep_cases (hi : ServerInv s.server) {i : ι} {b : ℕ → ServerAction}
    (hb : ∀ w, (b w).closes = true) (he : s.serverStep parse dump i b = some s') :
    SigNetStep parse dump s a s' := by
  simp only [WsSignaling.serverStep] at he
  split at he <;> [skip; cases he]
  obtain ⟨server, hs, rfl⟩ := Option.map_eq_some_iff.mp he
  exact .server _ server (hb _) (.of_step hi hs)

theorem onMessage_passed {c : DcWsSigClient} (hu : c.userAlive = true) (text : String) :
    (c.onMessage parse text).passed = c.passed ++ (decode parse text).toList := by
  simp only [DcWsSigClient.onMessage, hu, if_true, decode]
  split <;> simp [DcWsSigClient.passed, DcWsSigClient.emit, List.filterMap_cons, WsEvent.passedOf, *]

theorem SigNetStep.of_step (hi : ServerInv s.server) (he : s.step parse dump a = some s') :
    SigNetStep parse dump s a s' := by
  cases a with
  | accept i =>
    simp only [WsSignaling.step, WsSignaling.accept] at he
    split at he <;> [skip; cases he]
    rename_i hc
    by_cases hid : (s.clients i).id.value = ""
    · rw [onOpen_refused (by rw [connIdOf_slash]; exact hid)] at he
      simp only [hid, Option.map_some, if_true, Option.some.injEq] at he
      exact he ▸ .refused i
    · rw [onOpen_eq hi (by rw [connIdOf_slash]; exact hid), connIdOf_slash] at he
      simp only [hid, Option.map_some, if_false, Option.some.injEq] at he
      exact he ▸ .accepted i hc
  | client i a =>
    by_cases hn : ∀ text, a ≠ .onMessage text
    · rw [client_step hn] at he
      obtain ⟨c, hs, rfl⟩ := Option.map_eq_some_iff.mp he
      exact .client i a c hn (.of_step hs)
    · obtain ⟨text, rfl⟩ : ∃ text, a = .onMessage text := by simpa using hn
      cases he
  | write i text =>
    simp only [WsSignaling.step] at he
    split at he <;> cases he
    exact .write i text
  | serverFrame i =>
    simp only [WsSignaling.step, WsSignaling.serverFrame] at he
    split at he <;> [skip; cases he]
    rename_i w text rest hc hu
    obtain ⟨server, hs, rfl⟩ := Option.map_eq_some_iff.mp he
    exact .handled i w text rest server hc hu (.of_step hi hs)
  | clientFrame i =>
    simp only [WsSignaling.step, WsSignaling.clientFrame] at he
    split at he <;> [skip; cases he]
    rename_i w hc
    split at he <;> [skip; cases he]
    rename_i text ht
    obtain ⟨c, hs, rfl⟩ := Option.map_eq_some_iff.mp he
    refine .given i w text c hc ht (.of_step hs) fun hu => ?_
    simp only [DcWsSigClient.step] at hs
    split at hs <;> cases hs
    exact onMessage_passed hu text
  | closing i => exact serverStep_cases hi (fun _ => rfl) he
  | onClosed i => exact serverStep_cases hi (fun _ => rfl) he
  | disconnectPeer id =>
    cases he
    exact .server (.disconnectPeer id) _ rfl (.of_step hi rfl)

end Cases

/-! ## Histories -/

section Histories

variable {parse : Parse} {dump : Dump} {id : ι → PeerId} {b : ι} {history : List (SigEvent ι)}

theorem addressedIn_accepted (i : ι) : SigEvent.addressedIn parse id b (.accepted i :: history) =
    if i = b then [] else SigEvent.addressedIn parse id b history := by
  by_cases hib : i = b <;> simp [SigEvent.addressedIn, List.filterMap_cons, SigEvent.addressed, hib]

theorem addressedIn_wrote (i : ι) (texts : List String) :
    SigEvent.addressedIn parse id b ((texts.map (SigEvent.wrote i)).reverse ++ history) =
      SigEvent.addressedIn parse id b history := by
  have hw : ∀ e ∈ (texts.map (SigEvent.wrote i)).reverse, SigEvent.addressed parse id b e = none := by
    simp [SigEvent.addressed]
  have ht : ∀ e ∈ (texts.map (SigEvent.wrote i)).reverse, decide (e ≠ .accepted b) = true := by simp
  simp only [SigEvent.addressedIn, List.takeWhile_append_of_pos ht, List.filterMap_append,
    List.filterMap_eq_nil_iff.mpr hw, List.nil_append]

theorem addressedIn_handled (i : ι) (text : String) :
    SigEvent.addressedIn parse id b (.handled i text :: history) =
      SigEvent.addressedIn parse id b history ++ (SigEvent.addressed parse id b (.handled i text)).toList := by
  cases h : SigEvent.addressed parse id b (.handled i text) <;> simp [SigEvent.addressedIn, h]

theorem sentOn_dispatched (s : DcWsSigServer) (dst : PeerId) (m : SigMessage) (w : ℕ) :
    (s.dispatched dump dst m).sentOn w = s.sentOn w ++
      if s.hub.peers dst = some w ∧ s.socket w = .opened then [dump (envelope m.src m.payload)] else [] := by
  simp only [DcWsSigServer.dispatched, DcWsSigServer.sentOn]
  cases hp : s.hub.peers dst with
  | none => simp
  | some w' =>
    by_cases ho : s.socket w' = .opened
    · by_cases hw : w' = w
      · subst hw
        simp [DcWsSigServer.forward, DcWsSigServer.withHub, DcWsSigServer.emit, ho, ServerEvent.sentOn]
      · simp [DcWsSigServer.forward, DcWsSigServer.withHub, DcWsSigServer.emit, ho, ServerEvent.sentOn, hw]
    · by_cases hw : w' = w
      · subst hw
        simp [DcWsSigServer.forward, DcWsSigServer.withHub, ho]
      · simp [DcWsSigServer.forward, DcWsSigServer.withHub, ho, hw]

end Histories

/-! ## Connections -/

/-- Every connection of the server is that of one peer, and has its id. -/
structure Connected (id : ι → PeerId) (s : WsSignaling ι) : Prop where
  server : Routed s.server
  ids : ∀ i, (s.clients i).id = id i
  conn : ∀ i w, s.conn i = some w → w < s.server.opened ∧ s.server.connId w = id i
  owner : ∀ w < s.server.opened, ∃ i, s.conn i = some w

section Connected

variable {parse : Parse} {dump : Dump} {id : ι → PeerId} {s s' : WsSignaling ι} {a : SigNetAction ι}

omit [DecidableEq ι] in
theorem Connected.connId_inj (h : Connected id s) (hid : Function.Injective id) {w k : ℕ}
    (hw : w < s.server.opened) (hk : k < s.server.opened)
    (he : s.server.connId k = s.server.connId w) : k = w := by
  obtain ⟨i, hi⟩ := h.owner w hw
  obtain ⟨j, hj⟩ := h.owner k hk
  have hij : j = i := hid (by rw [← (h.conn j k hj).2, he, (h.conn i w hi).2])
  subst hij
  exact Option.some.inj (hj.symm.trans hi)

omit [DecidableEq ι] in
theorem Connected.newest (h : Connected id s) (hid : Function.Injective id) {w : ℕ}
    (hw : w < s.server.opened) : s.server.Newest w :=
  ⟨hw, fun _ hk hlt he => absurd (h.connId_inj hid hw hk he) (Nat.ne_of_gt hlt)⟩

omit [DecidableEq ι] in
/-- No two connections have an id, so that they are closed in order. -/
theorem Connected.closedInOrder (h : Connected id s) (hid : Function.Injective id) {b : ServerAction}
    {server : DcWsSigServer} (hs : ServerStep parse dump s.server b server) : ClosedInOrder s.server b := by
  cases hs with
  | left w hw =>
    exact fun k hk _ he => .inl (h.connId_inj hid (live_opened h.server.base hw) hk he)
  | _ => trivial

/-- A step of the server other than `onOpen` makes no connection. -/
theorem ServerStep.connId_eq {s s' : DcWsSigServer} {b : ServerAction} (h : ServerStep parse dump s b s')
    (hb : ∀ path, b ≠ .onOpen path) : s'.opened = s.opened ∧ s'.connId = s.connId := by
  cases h with
  | refused path | registered path => exact absurd rfl (hb path)
  | frame w text dst payload =>
    obtain ⟨log, hlog, he⟩ := dispatched_spec dump s dst ⟨s.connId w, payload⟩
    rw [he]
    exact ⟨rfl, rfl⟩
  | dispatched src dst payload =>
    obtain ⟨log, hlog, he⟩ := dispatched_spec dump s dst ⟨src, payload⟩
    rw [he]
    exact ⟨rfl, rfl⟩
  | _ => exact ⟨rfl, rfl⟩

theorem WsStep.id_eq {c c' : DcWsSigClient} {b : WsAction} (h : WsStep parse c b c') : c'.id = c.id := by
  cases h <;> rfl

omit [DecidableEq ι] in
theorem Connected.server_step (h : Connected id s) (hid : Function.Injective id) {b : ServerAction}
    {server : DcWsSigServer} (hs : ServerStep parse dump s.server b server)
    (hb : ∀ path, b ≠ .onOpen path) : Connected id { s with server } := by
  obtain ⟨ho, hc⟩ := hs.connId_eq hb
  refine ⟨hs.routed h.server (h.closedInOrder hid hs), h.ids, ?_, ?_⟩
  · intro i w hw
    rw [ho, hc]
    exact h.conn i w hw
  · intro w hw
    exact h.owner w (ho ▸ hw)

theorem Connected.client_step (h : Connected id s) {i : ι} {b : WsAction} {c : DcWsSigClient}
    (hs : WsStep parse (s.clients i) b c) : Connected id { s with clients := update s.clients i c } := by
  refine ⟨h.server, fun j => ?_, h.conn, h.owner⟩
  by_cases hj : j = i
  · subst hj
    simpa [hs.id_eq] using h.ids j
  · simpa [hj] using h.ids j

theorem SigNetStep.connected (h : SigNetStep parse dump s a s') (hid : Function.Injective id)
    (hi : Connected id s) : Connected id s' := by
  cases h with
  | refused i =>
    have hs : ServerStep parse dump s.server (.onOpen (some "/")) _ := .refused (some "/") rfl
    exact ⟨hs.routed hi.server trivial, hi.ids, hi.conn, hi.owner⟩
  | accepted i hc =>
    refine ⟨hi.server.registered _, hi.ids, fun j w hw => ?_, fun w hw => ?_⟩
    · by_cases hj : j = i
      · subst hj
        obtain rfl : s.server.opened = w := by simpa using hw
        simp [DcWsSigServer.registered, hi.ids]
      · obtain ⟨hlt, hk⟩ := hi.conn j w (by simpa [hj] using hw)
        exact ⟨Nat.lt_succ_of_lt hlt, by simpa [DcWsSigServer.registered, Nat.ne_of_lt hlt] using hk⟩
    · rcases Nat.lt_succ_iff_lt_or_eq.mp hw with hlt | rfl
      · obtain ⟨j, hj⟩ := hi.owner w hlt
        have hne : j ≠ i := fun h => by simp [h, hc] at hj
        exact ⟨j, by simpa [hne] using hj⟩
      · exact ⟨i, by simp⟩
  | client i b c hn hs =>
    have := hi.client_step hs
    exact ⟨this.server, this.ids, this.conn, this.owner⟩
  | write i text => exact ⟨hi.server, hi.ids, hi.conn, hi.owner⟩
  | handled i w text rest server hc hu hs =>
    have := hi.server_step hid hs (by simp)
    exact ⟨this.server, this.ids, this.conn, this.owner⟩
  | given i w text c hc ht hs =>
    have := hi.client_step hs
    exact ⟨this.server, this.ids, this.conn, this.owner⟩
  | server b server hb hs =>
    exact hi.server_step hid hs (by rintro path rfl; simp [ServerAction.closes] at hb)

end Connected

/-! ## From the server to the connection -/

/-- The frames sent on the connection of a peer are those of the messages for it: the first
of them, and all of them while the connection is open. -/
structure Forwarded (parse : Parse) (id : ι → PeerId) (s : WsSignaling ι) : Prop where
  unsent : ∀ w, s.server.opened ≤ w → s.server.sentOn w = []
  first : ∀ b w, s.conn b = some w →
    (s.server.sentOn w).filterMap (decode parse) <+: s.addressedTo parse id b
  all : ∀ b w, s.conn b = some w → s.server.socket w = .opened →
    (s.server.sentOn w).filterMap (decode parse) = s.addressedTo parse id b

section Forwarded

variable {parse : Parse} {dump : Dump} {id : ι → PeerId} {s s' : WsSignaling ι} {a : SigNetAction ι}

theorem readFrame_envelope (hcodec : Codec parse dump) (id : PeerId) (payload : String) :
    readFrame parse (dump (envelope id payload)) = .fields id payload := by
  rw [readFrame, hcodec id payload]
  rfl

theorem decode_envelope (hcodec : Codec parse dump) (m : SigMessage) :
    decode parse (dump (envelope m.src m.payload)) = some m := by
  simp [decode, readFrame_envelope hcodec]

/-- A step that closes connections sends no frame. -/
theorem ServerStep.closes_eq {s s' : DcWsSigServer} {b : ServerAction} (h : ServerStep parse dump s b s')
    (hb : b.closes = true) : s'.opened = s.opened ∧ s'.log = s.log ∧
      ∀ w, s'.socket w = .opened → s.socket w = .opened := by
  cases h with
  | closing w | left w | disconnected _ w =>
    refine ⟨rfl, rfl, fun k => ?_⟩
    by_cases hk : k = w <;> simp [DcWsSigServer.left, hk]
  | notConnected => exact ⟨rfl, rfl, fun _ h => h⟩
  | refused | registered | ignored | threw | frame | dispatched => cases hb

theorem forwarded_accepted (i : ι) (hi : Forwarded parse id s) (hcon : Connected id s) :
    Forwarded parse id { s with
      server := s.server.registered (s.clients i).id
      conn := update s.conn i (some s.server.opened)
      history := .accepted i :: s.history } := by
  have hsent : ∀ w, (s.server.registered (s.clients i).id).sentOn w = s.server.sentOn w := fun _ => rfl
  refine ⟨fun w hw => ?_, fun b w hw => ?_, fun b w hw ho => ?_⟩
  · exact hi.unsent w (Nat.le_of_succ_le hw)
  · simp only [WsSignaling.addressedTo, addressedIn_accepted, hsent]
    by_cases hb : b = i
    · obtain rfl : s.server.opened = w := by simpa [hb] using hw
      simp [hi.unsent]
    · simpa [Ne.symm hb, WsSignaling.addressedTo] using hi.first b w (by simpa [hb] using hw)
  · simp only [WsSignaling.addressedTo, addressedIn_accepted, hsent]
    by_cases hb : b = i
    · obtain rfl : s.server.opened = w := by simpa [hb] using hw
      simp [hi.unsent, hb]
    · have hw' : s.conn b = some w := by simpa [hb] using hw
      have hne : w ≠ s.server.opened := Nat.ne_of_lt (hcon.conn b w hw').1
      have ho' : s.server.socket w = .opened := by simpa [DcWsSigServer.registered, hne] using ho
      simpa [Ne.symm hb, WsSignaling.addressedTo] using hi.all b w hw' ho'

/-- A frame was handled: what it has for a peer was sent on the peer's connection, or that
is not open. -/
theorem Forwarded.handled {i : ι} {text : String} {up : ι → List String} {server : DcWsSigServer}
    (hi : Forwarded parse id s) (hun : ∀ w, server.opened ≤ w → server.sentOn w = [])
    (hsock : server.socket = s.server.socket)
    (h : ∀ b w, s.conn b = some w →
      (server.sentOn w).filterMap (decode parse) = (s.server.sentOn w).filterMap (decode parse) ++
        (if s.server.socket w = .opened then (SigEvent.addressed parse id b (.handled i text)).toList
          else [])) :
    Forwarded parse id { s with server, up, history := .handled i text :: s.history } := by
  refine ⟨hun, fun b w hw => ?_, fun b w hw ho => ?_⟩ <;>
    simp only [WsSignaling.addressedTo, addressedIn_handled, h b w hw]
  · by_cases ho : s.server.socket w = .opened
    · simp [ho, hi.all b w hw ho, WsSignaling.addressedTo]
    · simpa [ho, WsSignaling.addressedTo] using (hi.first b w hw).trans (List.prefix_append _ _)
  · rw [hsock] at ho
    simp [ho, hi.all b w hw ho, WsSignaling.addressedTo]

omit [DecidableEq ι] in
/-- The hub forwards a message to the connection of the peer it is for. -/
theorem sentOn_forwarded {dst : PeerId} {m : SigMessage} {b : ι} {w : ℕ} (hcodec : Codec parse dump)
    (hid : Function.Injective id) (hcon : Connected id s) (hw : s.conn b = some w) :
    ((s.server.dispatched dump dst m).sentOn w).filterMap (decode parse) =
      (s.server.sentOn w).filterMap (decode parse) ++
        if s.server.socket w = .opened ∧ dst = id b then [m] else [] := by
  obtain ⟨hlt, hk⟩ := hcon.conn b w hw
  have hiff : s.server.hub.peers dst = some w ∧ s.server.socket w = .opened ↔
      s.server.socket w = .opened ∧ dst = id b := by
    constructor
    · rintro ⟨hp, ho⟩
      exact ⟨ho, by rw [← hk, (hcon.server.base.peers dst w hp).2]⟩
    · rintro ⟨ho, rfl⟩
      exact ⟨hk ▸ (hcon.server.newest (hcon.newest hid hlt) (by simp [ho])).1, ho⟩
  rw [sentOn_dispatched, List.filterMap_append]
  simp only [hiff]
  split <;> simp [decode_envelope hcodec]

theorem forwarded_handled {i : ι} {w : ℕ} {text : String} {up : ι → List String} {server : DcWsSigServer}
    (hcodec : Codec parse dump) (hid : Function.Injective id) (hcon : Connected id s)
    (hi : Forwarded parse id s) (hc : s.conn i = some w)
    (hs : ServerStep parse dump s.server (.onMessage w (.text text)) server) :
    Forwarded parse id { s with server, up, history := .handled i text :: s.history } := by
  cases hs with
  | ignored _ _ hw hr =>
    refine hi.handled hi.unsent rfl fun b k hb => ?_
    simp [SigEvent.addressed, hr text rfl]
  | threw _ _ hw hr =>
    refine hi.handled hi.unsent rfl fun b k hb => ?_
    have hsent : DcWsSigServer.sentOn { s.server with log := .threw w :: s.server.log } k =
      s.server.sentOn k := rfl
    simp [SigEvent.addressed, hr, hsent]
  | frame _ _ dst payload hw hr =>
    obtain ⟨log, hlog, he⟩ := dispatched_spec dump s.server dst ⟨s.server.connId w, payload⟩
    refine hi.handled (fun k hk => ?_) (by rw [he]) fun b k hb => ?_
    · have hk' : s.server.opened ≤ k := by rwa [he] at hk
      have hp : s.server.hub.peers dst ≠ some k := fun h =>
        absurd (hcon.server.base.peers dst k h).1 (Nat.not_lt.mpr hk')
      simp [sentOn_dispatched, hi.unsent k hk', hp]
    · rw [sentOn_forwarded hcodec hid hcon hb, (hcon.conn i w hc).2]
      by_cases ho : s.server.socket k = .opened <;> by_cases hd : dst = id b <;>
        simp [SigEvent.addressed, hr, ho, hd]

theorem SigNetStep.forwarded (h : SigNetStep parse dump s a s') (hcodec : Codec parse dump)
    (hid : Function.Injective id) (hcon : Connected id s) (hi : Forwarded parse id s) :
    Forwarded parse id s' := by
  cases h with
  | refused i => exact ⟨hi.unsent, hi.first, hi.all⟩
  | accepted i => exact forwarded_accepted i hi hcon
  | client i b c hn hs =>
    refine ⟨hi.unsent, fun b w hw => ?_, fun b w hw ho => ?_⟩ <;>
      simp only [WsSignaling.addressedTo, WsSignaling.wrote, addressedIn_wrote]
    · exact hi.first b w hw
    · exact hi.all b w hw ho
  | write i text =>
    refine ⟨hi.unsent, fun b w hw => ?_, fun b w hw ho => ?_⟩ <;>
      simp only [WsSignaling.addressedTo, WsSignaling.wrote, addressedIn_wrote]
    · exact hi.first b w hw
    · exact hi.all b w hw ho
  | handled i w text rest server hc hu hs => exact forwarded_handled hcodec hid hcon hi hc hs
  | given i w text c hc ht hs => exact ⟨hi.unsent, hi.first, hi.all⟩
  | server b server hb hs =>
    obtain ⟨ho, hl, hsock⟩ := hs.closes_eq hb
    have hsent : ∀ w, server.sentOn w = s.server.sentOn w := fun w => by simp [DcWsSigServer.sentOn, hl]
    refine ⟨fun w hw => ?_, fun b w hw => ?_, fun b w hw hopen => ?_⟩ <;> simp only [hsent]
    · exact hi.unsent w (ho ▸ hw)
    · exact hi.first b w hw
    · exact hi.all b w hw (hsock w hopen)

end Forwarded

/-! ## From the connection to the client -/

/-- The messages passed to `Deliver` are among those of the frames the client was given. -/
structure Received (parse : Parse) (s : WsSignaling ι) : Prop where
  clients : ∀ i, WsConserved (s.clients i)
  waiting : ∀ i, s.conn i = none → (s.clients i).passed = [] ∧ s.received i = 0
  bound : ∀ i w, s.conn i = some w → s.received i ≤ (s.server.sentOn w).length
  passed : ∀ i w, s.conn i = some w →
    (s.clients i).passed.Sublist (((s.server.sentOn w).take (s.received i)).filterMap (decode parse))

/-- A client is given a frame only while its user is alive. -/
def UserKept (b : ι) (s : WsSignaling ι) : SigNetAction ι → Prop
  | .clientFrame i => i = b → (s.clients b).userAlive = true
  | _ => True

instance (b : ι) (s : WsSignaling ι) (a : SigNetAction ι) : Decidable (UserKept b s a) :=
  match a with
  | .clientFrame i => inferInstanceAs (Decidable (i = b → (s.clients b).userAlive = true))
  | .accept _ | .client _ _ | .write _ _ | .serverFrame _ | .closing _ | .onClosed _
  | .disconnectPeer _ => .isTrue trivial

/-- The client of the peer passed every frame it was given to `Deliver`. -/
def Complete (parse : Parse) (b : ι) (s : WsSignaling ι) : Prop :=
  ∀ w, s.conn b = some w →
    (s.clients b).passed = ((s.server.sentOn w).take (s.received b)).filterMap (decode parse)

section Received

variable {parse : Parse} {dump : Dump} {s s' : WsSignaling ι} {a : SigNetAction ι}

theorem ServerStep.sentOn_append {s s' : DcWsSigServer} {b : ServerAction} (h : ServerStep parse dump s b s')
    (w : ℕ) : ∃ texts, s'.sentOn w = s.sentOn w ++ texts := by
  cases h with
  | frame v text dst payload => exact ⟨_, sentOn_dispatched s dst _ w⟩
  | dispatched src dst payload => exact ⟨_, sentOn_dispatched s dst _ w⟩
  | _ => exact ⟨[], (List.append_nil _).symm⟩

/-- Only a frame is passed to `Deliver`. -/
theorem WsStep.passed_eq {c c' : DcWsSigClient} {b : WsAction} (h : WsStep parse c b c')
    (hn : ∀ text, b ≠ .onMessage text) : c'.passed = c.passed := by
  cases h with
  | passed text => exact absurd rfl (hn text)
  | _ => rfl

theorem WsStep.passed_frame {c c' : DcWsSigClient} {text : String} (h : WsStep parse c (.onMessage text) c') :
    c'.passed.Sublist (c.passed ++ (decode parse text).toList) := by
  cases h with
  | ignored => exact List.sublist_append_left _ _
  | threw => exact List.sublist_append_left _ _
  | passed _ m hs hd hu hr => simp [DcWsSigClient.passed, WsEvent.passedOf, decode, hr]

/-- One more frame is given to a client. -/
theorem take_given {texts : List String} {n : ℕ} {text : String} (ht : texts[n]? = some text) :
    (texts.take (n + 1)).filterMap (decode parse) =
      (texts.take n).filterMap (decode parse) ++ (decode parse text).toList := by
  rw [List.take_add_one, ht, List.filterMap_append]
  cases h : decode parse text <;> simp [h]

omit [DecidableEq ι] in
theorem Received.server_step (hi : Received parse s) {b : ServerAction} {server : DcWsSigServer}
    (hs : ServerStep parse dump s.server b server) : Received parse { s with server } := by
  refine ⟨hi.clients, hi.waiting, fun i w hw => ?_, fun i w hw => ?_⟩
  · obtain ⟨texts, he⟩ := hs.sentOn_append w
    simpa [he] using Nat.le_add_right_of_le (hi.bound i w hw)
  · obtain ⟨texts, he⟩ := hs.sentOn_append w
    simpa [he, List.take_append_of_le_length (hi.bound i w hw)] using hi.passed i w hw

theorem Received.client_step (hi : Received parse s) {i : ι} {b : WsAction} {c : DcWsSigClient}
    (hs : WsStep parse (s.clients i) b c) (hn : ∀ text, b ≠ .onMessage text) :
    Received parse { s with clients := update s.clients i c } := by
  have hp : ∀ j, (update s.clients i c j).passed = (s.clients j).passed := fun j => by
    by_cases hj : j = i
    · subst hj
      simp [hs.passed_eq hn]
    · simp [hj]
  refine ⟨fun j => ?_, fun j hj => ?_, hi.bound, fun j w hw => ?_⟩
  · by_cases hj : j = i
    · subst hj
      simpa using hs.conserved (hi.clients j)
    · simpa [hj] using hi.clients j
  · simpa [hp] using hi.waiting j hj
  · simpa [hp] using hi.passed j w hw

theorem Received.accepted (i : ι) (hi : Received parse s) (hc : s.conn i = none) (server : DcWsSigServer)
    (hl : server.log = s.server.log) : Received parse { s with
      server
      conn := update s.conn i (some s.server.opened)
      history := .accepted i :: s.history } := by
  have hsent : ∀ w, server.sentOn w = s.server.sentOn w := fun w => by simp [DcWsSigServer.sentOn, hl]
  obtain ⟨hp, hr⟩ := hi.waiting i hc
  refine ⟨hi.clients, fun j hj => ?_, fun j w hw => ?_, fun j w hw => ?_⟩ <;> simp only [hsent]
  · exact hi.waiting j (by grind -linarith -order)
  · by_cases hji : j = i
    · simp [hji, hr]
    · exact hi.bound j w (by simpa [hji] using hw)
  · by_cases hji : j = i
    · simp [hji, hp]
    · exact hi.passed j w (by simpa [hji] using hw)

theorem Received.given (hi : Received parse s) {i : ι} {w : ℕ} {text : String} {c : DcWsSigClient}
    (hc : s.conn i = some w) (ht : (s.server.sentOn w)[s.received i]? = some text)
    (hs : WsStep parse (s.clients i) (.onMessage text) c) : Received parse { s with
      clients := update s.clients i c
      received := update s.received i (s.received i + 1) } := by
  have hlt : s.received i < (s.server.sentOn w).length := (List.getElem?_eq_some_iff.mp ht).1
  refine ⟨fun j => ?_, fun j hj => ?_, fun j k hk => ?_, fun j k hk => ?_⟩ <;> by_cases hji : j = i
  · subst hji
    simpa using hs.conserved (hi.clients j)
  · simpa [hji] using hi.clients j
  · simp [hji, hc] at hj
  · simpa [hji] using hi.waiting j hj
  · subst hji
    obtain rfl : w = k := Option.some.inj (hc.symm.trans hk)
    simpa using Nat.succ_le_of_lt hlt
  · simpa [hji] using hi.bound j k hk
  · subst hji
    obtain rfl : w = k := Option.some.inj (hc.symm.trans hk)
    have hsub := hs.passed_frame.trans ((hi.passed j w hc).append_right (decode parse text).toList)
    simpa [take_given ht] using hsub
  · simpa [hji] using hi.passed j k hk

theorem SigNetStep.received (h : SigNetStep parse dump s a s') (hi : Received parse s) :
    Received parse s' := by
  cases h with
  | refused i => exact ⟨hi.clients, hi.waiting, hi.bound, hi.passed⟩
  | accepted i hc => exact hi.accepted i hc _ rfl
  | client i b c hn hs =>
    have := hi.client_step hs hn
    exact ⟨this.clients, this.waiting, this.bound, this.passed⟩
  | write i text => exact ⟨hi.clients, hi.waiting, hi.bound, hi.passed⟩
  | handled i w text rest server hc hu hs =>
    have := hi.server_step hs
    exact ⟨this.clients, this.waiting, this.bound, this.passed⟩
  | given i w text c hc ht hs => exact hi.given hc ht hs
  | server b server hb hs => exact hi.server_step hs

theorem SigNetStep.complete {b : ι} (h : SigNetStep parse dump s a s') (hi : Received parse s)
    (hk : UserKept b s a) (hc : Complete parse b s) : Complete parse b s' := by
  cases h with
  | refused i => exact hc
  | accepted i hn =>
    intro w hw
    by_cases hb : b = i
    · obtain ⟨hp, hr⟩ := hi.waiting i hn
      simp [hb, hp, hr]
    · exact hc w (by simpa [hb] using hw)
  | client i b' c hn hs =>
    intro w hw
    by_cases hb : b = i
    · subst hb
      simpa [WsSignaling.wrote, hs.passed_eq hn] using hc w hw
    · simpa [WsSignaling.wrote, hb] using hc w hw
  | write i text => exact hc
  | handled i v text rest server hv hu hs =>
    intro w hw
    obtain ⟨texts, he⟩ := hs.sentOn_append w
    simpa [he, List.take_append_of_le_length (hi.bound b w hw)] using hc w hw
  | given i v text c hv ht hs hp =>
    intro w hw
    by_cases hb : b = i
    · subst hb
      obtain rfl : v = w := Option.some.inj (hv.symm.trans hw)
      simp [hp (hk rfl), hc v hw, take_given ht]
    · simpa [hb] using hc w hw
  | server b' server hb hs =>
    intro w hw
    obtain ⟨texts, he⟩ := hs.sentOn_append w
    simpa [he, List.take_append_of_le_length (hi.bound b w hw)] using hc w hw

end Received

end TX.Rtt
