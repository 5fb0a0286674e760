import TxPkgAux.Proof.Rtt.WsSignalingStep

/-!
# Signaling over WebSocket: from `Send` to `OnMessage`

`SigNetInv` holds in every run, and while a peer keeps its connection, its user and its
handler, all that was handled for it is with its handler or in flight to it. `drained` brings
the latter there. `signaling_exactly_once` says that the handler of a peer is given each
message once, and nothing else.
-/

namespace TX.Rtt

open Function (update)

variable {ι : Type} [DecidableEq ι]

/-! ## Runs -/

/-- What holds in every run. -/
structure SigNetInv (parse : Parse) (id : ι → PeerId) (s : WsSignaling ι) : Prop where
  connected : Connected id s
  forwarded : Forwarded parse id s
  received : Received parse s
  fifo : ∀ i, s.handledBy i ++ s.up i = s.writtenBy i

section Runs

variable {parse : Parse} {dump : Dump} {id : ι → PeerId} {s s' : WsSignaling ι} {a : SigNetAction ι}

theorem filterMap_wrote (i : ι) (texts : List String) :
    (texts.map (SigEvent.wrote i)).filterMap (SigEvent.wroteBy i) = texts := by
  induction texts with
  | nil => rfl
  | cons text texts ih =>
    have hown : SigEvent.wroteBy i (.wrote i text) = some text := if_pos rfl
    rw [List.map_cons, List.filterMap_cons_some hown, ih]

theorem writtenBy_wrote (s : WsSignaling ι) (i : ι) (texts : List String) (j : ι) :
    (s.wrote i texts).writtenBy j = s.writtenBy j ++ if i = j then texts else [] := by
  by_cases hij : i = j
  · subst hij
    rw [if_pos rfl, WsSignaling.writtenBy, WsSignaling.writtenBy, WsSignaling.wrote,
      List.filterMap_append, List.filterMap_reverse, filterMap_wrote, List.reverse_append,
      List.reverse_reverse]
  · simp [WsSignaling.writtenBy, WsSignaling.wrote, List.filterMap_append, SigEvent.wroteBy, hij]

theorem wrote_fifo {i : ι} {texts : List String} (hi : ∀ j, s.handledBy j ++ s.up j = s.writtenBy j) (j : ι) :
    (s.wrote i texts).handledBy j ++ (s.wrote i texts).up j = (s.wrote i texts).writtenBy j := by
  have hh : (s.wrote i texts).handledBy j = s.handledBy j := by
    simp [WsSignaling.handledBy, WsSignaling.wrote, List.filterMap_append, SigEvent.handledBy]
  rw [hh, writtenBy_wrote, ← hi j]
  by_cases hij : j = i
  · simp [WsSignaling.wrote, hij]
  · simp [WsSignaling.wrote, hij, Ne.symm hij]

theorem SigNetStep.fifo (h : SigNetStep parse dump s a s')
    (hi : ∀ i, s.handledBy i ++ s.up i = s.writtenBy i) (i : ι) :
    s'.handledBy i ++ s'.up i = s'.writtenBy i := by
  cases h with
  | refused | given | server => exact hi i
  | accepted j => exact hi i
  | client j b c => exact wrote_fifo hi i
  | write j text => exact wrote_fifo hi i
  | handled j w text rest server hc hu hs =>
    have hold := hi i
    by_cases hij : i = j
    · subst hij
      simpa [WsSignaling.handledBy, WsSignaling.writtenBy, List.filterMap_cons, SigEvent.handledBy,
        SigEvent.wroteBy, hu] using hold
    · simpa [WsSignaling.handledBy, WsSignaling.writtenBy, List.filterMap_cons, SigEvent.handledBy,
        SigEvent.wroteBy, hij, Ne.symm hij] using hold

theorem SigNetInv.init (parse : Parse) (dump : Dump) (id : ι → PeerId) :
    SigNetInv parse id (WsSignaling.lts parse dump id).init := by
  refine ⟨⟨.init parse dump, fun _ => rfl, ?_, ?_⟩, ⟨fun _ _ => rfl, ?_, ?_⟩,
    ⟨fun i => .init parse (id i), fun _ _ => ⟨rfl, rfl⟩, ?_, ?_⟩, fun _ => rfl⟩ <;>
    simp [WsSignaling.lts, DcWsSigServer.lts]

theorem SigNetStep.inv (h : SigNetStep parse dump s a s') (hcodec : Codec parse dump)
    (hid : Function.Injective id) (hi : SigNetInv parse id s) : SigNetInv parse id s' :=
  ⟨h.connected hid hi.connected, h.forwarded hcodec hid hi.connected hi.forwarded,
    h.received hi.received, h.fifo hi.fifo⟩

theorem SigNetInv.reach {ok : WsSignaling ι → SigNetAction ι → Prop} (hcodec : Codec parse dump)
    (hid : Function.Injective id) (h : (WsSignaling.lts parse dump id).Reach ok s) :
    SigNetInv parse id s :=
  h.invariant (.init parse dump id) fun hI _ he =>
    (SigNetStep.of_step hI.connected.server.base he).inv hcodec hid hI

theorem Complete.reach {b : ι} (hcodec : Codec parse dump) (hid : Function.Injective id)
    (h : (WsSignaling.lts parse dump id).Reach (UserKept b) s) : Complete parse b s := by
  have hinv : SigNetInv parse id s ∧ Complete parse b s :=
    h.invariant (I := fun s => SigNetInv parse id s ∧ Complete parse b s)
      ⟨.init parse dump id, fun _ hw => by cases hw⟩ fun hI hk he =>
        have hs := SigNetStep.of_step hI.1.connected.server.base he
        ⟨hs.inv hcodec hid hI.1, hs.complete hI.1.received hk hI.2⟩
  exact hinv.2

/-- Nothing is handed to a handler that was not handled for its peer, and nothing twice. -/
theorem SigNetInv.atMost (hi : SigNetInv parse id s) (b : ι) (m : SigMessage) :
    (s.clients b).messages.count m ≤ (s.addressedTo parse id b).count m := by
  have hle := (hi.received.clients b).atMost m
  cases hc : s.conn b with
  | none =>
    rw [(hi.received.waiting b hc).1] at hle
    simp only [List.count_nil, Nat.le_zero] at hle
    omega
  | some w =>
    have h₁ := (hi.received.passed b w hc).count_le m
    have h₂ := (((s.server.sentOn w).take_sublist (s.received b)).filterMap (decode parse)).count_le m
    have h₃ := (hi.forwarded.first b w hc).sublist.count_le m
    omega

/-- While the connection of a peer is open and its user and handler are kept, every message
for it is with its handler or on its way. -/
theorem SigNetInv.exact {b : ι} {w : ℕ} (hi : SigNetInv parse id s) (hcomp : Complete parse b s)
    (hc : s.conn b = some w) (ho : s.server.socket w = .opened) (hk : (s.clients b).Kept) :
    ((s.clients b).messages ++ s.inFlight parse b w).Perm (s.addressedTo parse id b) := by
  rw [List.perm_iff_count]
  intro m
  have heq := (hi.received.clients b).exact hk m
  rw [hcomp w hc] at heq
  rw [← hi.forwarded.all b w hc ho, WsSignaling.inFlight, ← List.append_assoc, List.count_append,
    List.count_append, heq, ← List.count_append, ← List.filterMap_append, List.take_append_drop]

/-- A message is addressed to a peer by a frame of the peer it is from. -/
theorem mem_addressedTo {b : ι} {m : SigMessage} (hm : m ∈ s.addressedTo parse id b) :
    ∃ a text, text ∈ s.handledBy a ∧ m.src = id a ∧ readFrame parse text = .fields (id b) m.payload := by
  simp only [WsSignaling.addressedTo, SigEvent.addressedIn, List.mem_reverse, List.mem_filterMap] at hm
  obtain ⟨e, he, hm⟩ := hm
  have he := (List.takeWhile_sublist _).subset he
  cases e with
  | accepted | wrote => cases hm
  | handled a text =>
    refine ⟨a, text, ?_, ?_⟩
    · simp only [WsSignaling.handledBy, List.mem_reverse, List.mem_filterMap]
      exact ⟨_, he, if_pos rfl⟩
    · simp only [SigEvent.addressed] at hm
      split at hm <;> [skip; cases hm; cases hm]
      split at hm <;> cases hm
      rename_i hr hd
      exact ⟨rfl, hd ▸ hr⟩

/-! ## Progress -/

/-- The peer is given a frame, or its client brings a message to the handler. -/
def Drains (b : ι) (s : WsSignaling ι) : SigNetAction ι → Prop
  | .clientFrame i => i = b ∧ (s.clients b).userAlive = true
  | .client i a => i = b ∧ Delivering (s.clients b) a
  | _ => False

omit [DecidableEq ι] in
theorem Drains.userKept {b : ι} (h : Drains b s a) : UserKept b s a := by
  cases a with
  | clientFrame i => exact fun _ => h.2
  | _ => trivial

theorem wrote_nil (s : WsSignaling ι) (i : ι) : s.wrote i [] = s := by
  simp [WsSignaling.wrote]

/-- The steps of a client are steps of the network. -/
theorem lift_client {b : ι} {c : DcWsSigClient}
    (h : (DcWsSigClient.lts parse (id b)).Path Delivering (s.clients b) c) :
    (WsSignaling.lts parse dump id).Path (Drains b) s { s with clients := update s.clients b c } := by
  induction h with
  | refl =>
    rw [Function.update_eq_self]
    exact .refl s
  | @tail c₁ c₂ a₁ _ hd he ih =>
    refine .tail (a := .client b a₁) ih ⟨rfl, by simpa using hd⟩ ?_
    have hn : ∀ text, a₁ ≠ .onMessage text := by
      rintro text rfl
      exact hd
    have hf : WsSignaling.frames dump c₁ a₁ = [] := by
      cases a₁ with
      | send => exact False.elim hd
      | _ => rfl
    have he' : c₁.step parse a₁ = some c₂ := he
    show WsSignaling.step parse dump _ _ = _
    rw [client_step hn]
    simp [he', hf, wrote_nil]

/-- `onMessage` leaves the user and the handler as they are. -/
theorem Receiving.onMessage {c : DcWsSigClient} (h : Receiving c) (parse : Parse) (text : String) :
    Receiving (c.onMessage parse text) ∧ (c.onMessage parse text).socket = c.socket := by
  simp only [DcWsSigClient.onMessage]
  split
  · split
    · exact ⟨h, rfl⟩
    · exact ⟨⟨h.user, h.held, h.alive, h.bound⟩, rfl⟩
    · exact ⟨⟨h.user, h.held, h.alive, h.bound⟩, rfl⟩
  · exact ⟨h, rfl⟩

theorem Receiving.userAlive {c : DcWsSigClient} (h : Receiving c) : c.userAlive = true := by
  simp [DcWsSigClient.userAlive, h.user, h.held]

theorem Receiving.kept {c : DcWsSigClient} (h : Receiving c) : c.Kept := by
  refine ⟨h.alive, ?_⟩
  rcases h.bound with hb | hb | hb
  · exact .inl hb
  · exact .inr (.inr (.inl hb))
  · exact .inr (.inr (.inr ⟨true, hb⟩))

/-- The state after a client was given its next frame. -/
def WsSignaling.given (parse : Parse) (s : WsSignaling ι) (b : ι) (text : String) : WsSignaling ι :=
  { s with
    clients := update s.clients b ((s.clients b).onMessage parse text)
    received := update s.received b (s.received b + 1) }

theorem clientFrame_eq {b : ι} {w : ℕ} {text : String} (hc : s.conn b = some w)
    (ht : (s.server.sentOn w)[s.received b]? = some text) (hd : (s.clients b).deliver = none)
    (ho : (s.clients b).socket = .opened) :
    (WsSignaling.lts parse dump id).step s (.clientFrame b) = some (s.given parse b text) := by
  show s.clientFrame parse b = _
  simp [WsSignaling.clientFrame, hc, ht, DcWsSigClient.step, hd, ho, WsSignaling.given]

/-- A peer that keeps its user and its handler can be given all that is in flight to it. -/
theorem drained {b : ι} {w n : ℕ} (hn : (s.server.sentOn w).length - s.received b = n)
    (hc : s.conn b = some w) (hr : Receiving (s.clients b)) (hi : WsConserved (s.clients b))
    (ho : (s.clients b).socket = .opened) :
    ∃ s', (WsSignaling.lts parse dump id).Path (Drains b) s s' ∧ s'.inFlight parse b w = [] ∧
      s'.server = s.server ∧ s'.conn = s.conn ∧ s'.history = s.history ∧ Receiving (s'.clients b) := by
  induction n generalizing s with
  | zero =>
    obtain ⟨c, hadv, -, hun⟩ : ∃ c, Advances parse (id b) (s.clients b) c ∧ Settled c ∧
      c.undelivered = [] := delivered_all hr hi
    refine ⟨_, lift_client hadv.path, ?_, rfl, rfl, rfl, by simpa using hadv.receiving⟩
    have hd : (s.server.sentOn w).drop (s.received b) = [] := List.drop_eq_nil_of_le (by omega)
    simp [WsSignaling.inFlight, hun, hd]
  | succ n ih =>
    -- the client settles before it is given the next frame, as one is handled at a time
    obtain ⟨c, hadv, hset, -⟩ : ∃ c, Advances parse (id b) (s.clients b) c ∧ Settled c ∧
      c.undelivered = [] := delivered_all hr hi
    have hlt : s.received b < (s.server.sentOn w).length := by omega
    have ht := List.getElem?_eq_getElem hlt
    set text := (s.server.sentOn w)[s.received b]
    set s₁ : WsSignaling ι := { s with clients := update s.clients b c }
    have hc₁ : s₁.clients b = c := by simp [s₁]
    have hc₂ : (s₁.given parse b text).clients b = c.onMessage parse text := by
      simp [WsSignaling.given, hc₁]
    have hopen : c.socket = .opened := hadv.socket.trans ho
    have hstep : (WsSignaling.lts parse dump id).step s₁ (.clientFrame b) = some (s₁.given parse b text) :=
      clientFrame_eq hc ht (by rw [hc₁]; exact hset.1) (by rw [hc₁]; exact hopen)
    have hcs : c.step parse (.onMessage text) = some (c.onMessage parse text) := by
      simp [DcWsSigClient.step, hopen, hset.1]
    obtain ⟨hr₂, hso⟩ := hadv.receiving.onMessage parse text
    obtain ⟨s', hp, hs'⟩ := ih (s := s₁.given parse b text) (by simp [WsSignaling.given, s₁]; omega) hc
      (hc₂ ▸ hr₂) (hc₂ ▸ (WsStep.of_step hcs).conserved (hadv.conserved hi)) (by rw [hc₂, hso, hopen])
    have hdr : Drains b s₁ (.clientFrame b) := ⟨rfl, by rw [hc₁]; exact hadv.receiving.userAlive⟩
    exact ⟨s', .trans (.tail (lift_client hadv.path) hdr hstep) hp, hs'⟩

/-- `Send` on an open connection writes one frame: the envelope. -/
theorem send_writes {i : ι} {dst : PeerId} {payload : String}
    (he : s.step parse dump (.client i (.send dst payload)) = some s')
    (ho : (s.clients i).socket = .opened) :
    s'.writtenBy i = s.writtenBy i ++ [dump (envelope dst payload)] := by
  rw [client_step (by simp)] at he
  obtain ⟨c, -, rfl⟩ := Option.map_eq_some_iff.mp he
  rw [writtenBy_wrote, if_pos rfl, WsSignaling.frames, if_pos ho]
  rfl

end Runs

/-- For peers with distinct ids: `a.Send(b, payload)` writes one frame, which is a message for
`b` from `a`. In every run the server handles the frames of a client in the order they were
written, each message that a handler was given is from the peer that wrote its frame, and none
was given more often than it was handled. While the connection of `b` is open at the server, and `b`
has kept its user and its handler, every message handled for `b` is with its handler once, or
on its way; and where it is open at the client too, the steps of that client bring all of
them there. -/
theorem signaling_exactly_once {parse : Parse} {dump : Dump} {id : ι → PeerId}
    (hcodec : Codec parse dump) (hid : Function.Injective id) :
    (∀ a b payload s s', (WsSignaling.lts parse dump id).step s (.client a (.send (id b) payload)) = some s' →
      (s.clients a).socket = .opened → ∃ text, s'.writtenBy a = s.writtenBy a ++ [text] ∧
        SigEvent.addressed parse id b (.handled a text) = some ⟨id a, payload⟩) ∧
    (∀ s, (WsSignaling.lts parse dump id).Reach Lts.Any s →
      (∀ a, s.handledBy a ++ s.up a = s.writtenBy a) ∧
      ∀ b, (∀ m, (s.clients b).messages.count m ≤ (s.addressedTo parse id b).count m) ∧
        ∀ m ∈ (s.clients b).messages, ∃ a text, text ∈ s.handledBy a ∧ m.src = id a ∧
          readFrame parse text = .fields (id b) m.payload) ∧
    ∀ b s w, (WsSignaling.lts parse dump id).Reach (UserKept b) s → s.conn b = some w →
      s.server.socket w = .opened →
      ((s.clients b).Kept →
        ((s.clients b).messages ++ s.inFlight parse b w).Perm (s.addressedTo parse id b)) ∧
      (Receiving (s.clients b) → (s.clients b).socket = .opened →
        ∃ s', (WsSignaling.lts parse dump id).Path (Drains b) s s' ∧
          (s'.clients b).messages.Perm (s.addressedTo parse id b)) := by
  refine ⟨fun a b payload s s' he ho => ⟨_, send_writes he ho, ?_⟩, fun s hs => ?_,
    fun b s w hs hc ho => ⟨fun hk => ?_, fun hr hso => ?_⟩⟩
  · simp [SigEvent.addressed, readFrame_envelope hcodec]
  · have hi := SigNetInv.reach hcodec hid hs
    refine ⟨hi.fifo, fun b => ⟨hi.atMost b, fun m hm => ?_⟩⟩
    have hpos := Nat.lt_of_lt_of_le (List.count_pos_iff.mpr hm) (hi.atMost b m)
    exact mem_addressedTo (List.count_pos_iff.mp hpos)
  · exact (SigNetInv.reach hcodec hid hs).exact (.reach hcodec hid hs) hc ho hk
  · have hi := SigNetInv.reach hcodec hid hs
    obtain ⟨s', hp, hfl, hse, hco, hhi, hre⟩ : ∃ s', (WsSignaling.lts parse dump id).Path (Drains b) s s' ∧
        s'.inFlight parse b w = [] ∧ s'.server = s.server ∧ s'.conn = s.conn ∧
        s'.history = s.history ∧ Receiving (s'.clients b) :=
      drained rfl hc hr (hi.received.clients b) hso
    have hs' : (WsSignaling.lts parse dump id).Reach (UserKept b) s' :=
      hs.trans (hp.mono fun _ _ h => h.userKept)
    have hperm := (SigNetInv.reach hcodec hid hs').exact (.reach hcodec hid hs') (hco ▸ hc)
      (hse ▸ ho) hre.kept
    refine ⟨s', hp, ?_⟩
    simpa [hfl, WsSignaling.addressedTo, hhi] using hperm

/-! ## A run -/

namespace WsSignaling

/-- The quote and the backslash, which a JSON string escapes. -/
def quote : Char := Char.ofNat 34

def backslash : Char := Char.ofNat 92

def escape : List Char → List Char
  | [] => []
  | c :: cs => if c = quote ∨ c = backslash then backslash :: c :: escape cs else c :: escape cs

/-- The string up to the closing quote, and what follows it; `escaped` is after a
backslash. -/
def unescape (escaped : Bool) : List Char → Option (List Char × List Char)
  | [] => none
  | c :: cs =>
    if escaped = false ∧ c = quote then some ([], cs)
    else if escaped = false ∧ c = backslash then unescape true cs
    else (unescape false cs).map fun r => (c :: r.1, r.2)

/-- What follows a text. -/
def skip : List Char → List Char → Option (List Char)
  | [], cs => some cs
  | _ :: _, [] => none
  | p :: ps, c :: cs => if p = c then skip ps cs else none

/-- The texts around the two strings of an envelope. -/
def head : List Char := "\x7b\"id\":\"".toList

def middle : List Char := ",\"payload\":\"".toList

def tail : List Char := "\x7d".toList

/-- `json::dump` of an envelope. -/
def envelopeDump : Dump
  | .object [(_, .string id), (_, .string payload)] =>
    String.ofList (head ++ (escape id.toList ++ quote :: (middle ++
      (escape payload.toList ++ quote :: tail))))
  | _ => ""

/-- `json::parse` of such a text. -/
def envelopeParse (text : String) : Option Json :=
  (skip head text.toList).bind fun cs => (unescape false cs).bind fun r =>
    (skip middle r.2).bind fun cs => (unescape false cs).bind fun p =>
      if p.2 = tail then some (envelope ⟨String.ofList r.1⟩ (String.ofList p.1)) else none

theorem skip_append (ps cs : List Char) : skip ps (ps ++ cs) = some cs := by
  induction ps with
  | nil => rfl
  | cons p ps ih => simpa [skip] using ih

theorem unescape_escape (cs rest : List Char) :
    unescape false (escape cs ++ quote :: rest) = some (cs, rest) := by
  induction cs with
  | nil => simp [escape, unescape]
  | cons c cs ih =>
    by_cases hc : c = quote ∨ c = backslash
    · have hne : backslash ≠ quote := by decide
      simp [escape, hc, unescape, hne, ih]
    · have hc' := not_or.mp hc
      simp [escape, hc', unescape, ih]

theorem envelope_codec : Codec envelopeParse envelopeDump := fun id payload => by
  simp [envelopeParse, envelopeDump, envelope, skip_append, unescape_escape]

/-- The identities of two peers. -/
def pairId (i : Bool) : PeerId := if i then ⟨"b"⟩ else ⟨"a"⟩

theorem pairId_injective : Function.Injective pairId := by
  intro i j h
  cases i <;> cases j <;> simp_all [pairId]

/-- Two peers. -/
abbrev pair : Lts (WsSignaling Bool) (SigNetAction Bool) :=
  lts envelopeParse envelopeDump pairId

/-- The join of a peer. -/
def joining (i : Bool) : List (SigNetAction Bool) :=
  [.accept i, .client i .opened, .client i .onOpen, .client i (.joined true), .client i .onOpenNext,
    .client i .onOpenNext, .client i .onOpenNext]

end WsSignaling

open WsSignaling (pair pairId joining envelopeParse)

/-- What is left to do once `a` has written a frame to `b`. -/
def WsSignaling.carrying : List (SigNetAction Bool) :=
  [.serverFrame false, .clientFrame true, .client true .deliverNext, .client true .deliverNext,
    .client true .deliverNext]

/-- `a` sends a message with a quote in it to `b`: the frame that it writes is the one that
`b` is given. -/
theorem signaling_exactly_once_pair : ∃ s₀ s₁ s, pair.Reach (UserKept true) s₀ ∧
    pair.step s₀ (.client false (.send (pairId true) "say \"hi\"")) = some s₁ ∧
    (∃ text, s₁.writtenBy false = s₀.writtenBy false ++ [text] ∧
      SigEvent.addressed envelopeParse pairId true (.handled false text) =
        some ⟨pairId false, "say \"hi\""⟩) ∧
    pair.Path (UserKept true) s₁ s ∧ (s.clients true).messages = [⟨⟨"a"⟩, "say \"hi\""⟩] ∧
    (s.clients true).messages.Perm (s.addressedTo envelopeParse pairId true) := by
  obtain ⟨s₀, hs₀, hq⟩ := Lts.Reach.of_run pair (UserKept true) (joining false ++ joining true)
    (fun s₀ => (s₀.clients false).socket = .opened ∧
      ((pair.step s₀ (.client false (.send (pairId true) "say \"hi\""))).any fun s₁ =>
        ((pair.restrict fun s a => UserKept true s a).run s₁ WsSignaling.carrying).any fun s =>
          s.conn true = some 1 ∧ s.server.socket 1 = .opened ∧ (s.clients true).handlerAlive = true ∧
            (s.clients true).handler = true ∧ s.inFlight envelopeParse true 1 = [] ∧
            (s.clients true).messages = [⟨⟨"a"⟩, "say \"hi\""⟩]) = true) (by decide +kernel)
  obtain ⟨ha, hq⟩ := of_decide_eq_true hq
  obtain ⟨s₁, hsend, hq⟩ := (Option.any_eq_true _ _).mp hq
  obtain ⟨s, hr, hq⟩ := (Option.any_eq_true _ _).mp hq
  obtain ⟨hc, ho, hal, hh, hf, hm⟩ := of_decide_eq_true hq
  have hp : pair.Path (UserKept true) s₁ s := Lts.Path.of_run (fun _ _ => of_decide_eq_true) hr
  have hkept : UserKept true s₀ (.client false (.send (pairId true) "say \"hi\"")) := trivial
  have hs : pair.Reach (UserKept true) s := .trans (.tail hs₀ hkept hsend) hp
  obtain ⟨hwrites, -, hex⟩ := signaling_exactly_once WsSignaling.envelope_codec WsSignaling.pairId_injective
  have hperm := (hex true s 1 hs hc ho).1 ⟨hal, .inl hh⟩
  rw [hf, List.append_nil] at hperm
  exact ⟨s₀, s₁, s, hs₀, hsend, hwrites false true _ s₀ s₁ hsend ha, hp, hm, hperm⟩

end TX.Rtt
