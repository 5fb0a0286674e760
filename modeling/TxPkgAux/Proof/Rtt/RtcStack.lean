import TxPkgAux.Impl.Rtt.RtcStack
import TxPkgAux.Proof.Rtt.RtcPairs
import TxPkgAux.Proof.Rtt.WsSignaling

/-!
# Transports that signal over WebSocket: the network they make

The transports of the stack run as those of `RtcNetwork` do, over a wire that neither loses nor
copies (`stack_refines`): a message that a client hands to its transport is matched with a
packet in flight, of which there is one since no message is handed over more often than it was
written (`SigNetInv.atMost`). So links are paired end to end (`stack_pairs`).

`StackEffect` is what a step of the stack does to the transports and to what was written.
-/

namespace TX.Rtt

open Function (update update_self update_of_ne update_eq_self)

section

variable {ι τ : Type} [DecidableEq ι] [DecidableEq τ] {parse : Parse} {dump : Dump} {ids remote : ι → PeerId}

/-! ## The steps of the signaling -/

section Signaling

variable {g g₁ g₂ : WsSignaling ι} {a : SigNetAction ι} {c c' : DcWsSigClient} {b : WsAction}

omit [DecidableEq τ] in
/-- A step hands nothing to the handler, or the message of the call that it makes. -/
theorem WsStep.calls (h : WsStep parse c b c') (t : τ) :
    c'.messages = c.messages ∧ (∀ t' m, c.calls c' t ≠ some (.onMessage t' m)) ∨
      ∃ m, c.calls c' t = some (.onMessage t m) ∧ c'.messages = c.messages ++ [m] := by
  cases h with
  | @replay m rest ho => exact .inr ⟨m, by simp [DcWsSigClient.calls, WsEvent.call],
      by simp [DcWsSigClient.messages, WsEvent.onMessageOf]⟩
  | @call m hd hh => exact .inr ⟨m, by simp [DcWsSigClient.calls, WsEvent.call],
      by simp [DcWsSigClient.messages, WsEvent.onMessageOf]⟩
  | onOpen hs hf =>
    refine .inl ⟨rfl, fun t' m => ?_⟩
    simp only [DcWsSigClient.calls]
    split <;> simp
  | onError hf | threw | passed | closedNotify | leaveNotify | sent =>
    exact .inl ⟨rfl, by simp [DcWsSigClient.calls, WsEvent.call]⟩
  | _ => exact .inl ⟨rfl, by simp [DcWsSigClient.calls]⟩

theorem WsStep.messages_prefix (h : WsStep parse c b c') : c.messages <+: c'.messages := by
  rcases h.calls () with ⟨hm, -⟩ | ⟨m, -, hm⟩
  · exact hm ▸ List.prefix_refl _
  · exact hm ▸ List.prefix_append _ _

/-- What a step writes on the connection of a client. -/
def SigNetAction.texts (dump : Dump) (g : WsSignaling ι) (j : ι) : SigNetAction ι → List String
  | .client i b => if i = j then WsSignaling.frames dump (g.clients i) b else []
  | .write i text => if i = j then [text] else []
  | _ => []

/-- What a step does to the frames that were written and to the messages that were handed over. -/
structure SigMoves (parse : Parse) (ids : ι → PeerId) (g : WsSignaling ι) (texts : ι → List String)
    (g' : WsSignaling ι) : Prop where
  inv : SigNetInv parse ids g'
  written : ∀ j, g'.writtenBy j = g.writtenBy j ++ texts j
  messages : ∀ j, (g.clients j).messages <+: (g'.clients j).messages

theorem writtenBy_step (hi : SigNetInv parse ids g) (he : g.step parse dump a = some g₁) (j : ι) :
    g₁.writtenBy j = g.writtenBy j ++ a.texts dump g j := by
  cases a with
  | client i b =>
    have hn : ∀ text, b ≠ .onMessage text := fun text hb => by
      subst hb
      cases he
    rw [client_step hn] at he
    obtain ⟨c, -, rfl⟩ := Option.map_eq_some_iff.mp he
    exact writtenBy_wrote { g with clients := update g.clients i c } i _ j
  | write i text =>
    simp only [WsSignaling.step] at he
    split at he <;> cases he
    exact writtenBy_wrote g i [text] j
  | _ =>
    cases SigNetStep.of_step hi.connected.server.base he <;>
      exact (List.append_nil _).symm

theorem SigNetStep.messages_prefix (h : SigNetStep parse dump g a g₁) (j : ι) :
    (g.clients j).messages <+: (g₁.clients j).messages := by
  have hset : ∀ {i : ι} {b : WsAction} {c : DcWsSigClient}, WsStep parse (g.clients i) b c →
      (g.clients j).messages <+: (update g.clients i c j).messages := fun {i b c} hs => by
    by_cases hij : j = i
    · subst hij
      rw [update_self]
      exact hs.messages_prefix
    · exact (update_of_ne hij c g.clients).symm ▸ List.prefix_refl _
  cases h with
  | client i b c hn hs => exact hset hs
  | given i w text c hc ht hs hp => exact hset hs
  | _ => exact List.prefix_refl _

theorem SigMoves.of_step (hcodec : Codec parse dump) (hids : Function.Injective ids)
    (hi : SigNetInv parse ids g) (he : g.step parse dump a = some g₁) :
    SigMoves parse ids g (fun j => a.texts dump g j) g₁ :=
  have hs := SigNetStep.of_step hi.connected.server.base he
  ⟨hs.inv hcodec hids hi, writtenBy_step hi he, hs.messages_prefix⟩

/-- Nothing is written. -/
theorem SigMoves.trans {texts : ι → List String} (h : SigMoves parse ids g texts g₁)
    (h' : SigMoves parse ids g₁ (fun _ => []) g₂) : SigMoves parse ids g texts g₂ :=
  ⟨h'.inv, fun j => by rw [h'.written, List.append_nil, h.written],
    fun j => (h.messages j).trans (h'.messages j)⟩

theorem SigMoves.refl (hi : SigNetInv parse ids g) : SigMoves parse ids g (fun _ => []) g :=
  ⟨hi, fun _ => (List.append_nil _).symm, fun _ => List.prefix_refl _⟩

theorem abandon_moves (hcodec : Codec parse dump) (hids : Function.Injective ids) {i : ι}
    (hi : SigNetInv parse ids g) (he : RtcStack.abandon parse dump g i = some g₂) :
    SigMoves parse ids g (fun _ => []) g₂ := by
  obtain ⟨g₁, h₁, h₂⟩ := Option.bind_eq_some_iff.mp he
  have hm₁ : SigMoves parse ids g (fun _ => []) g₁ := by
    simpa [SigNetAction.texts, WsSignaling.frames] using SigMoves.of_step hcodec hids hi h₁
  split at h₂
  · refine hm₁.trans ?_
    simpa [SigNetAction.texts, WsSignaling.frames] using SigMoves.of_step hcodec hids hm₁.inv h₂
  · cases h₂
    exact hm₁

theorem client_wsStep {i : ι} (he : g.step parse dump (.client i b) = some g₁) :
    WsStep parse (g.clients i) b (g₁.clients i) := by
  have hn : ∀ text, b ≠ .onMessage text := fun text hb => by
    subst hb
    cases he
  rw [client_step hn] at he
  obtain ⟨c, hc, rfl⟩ := Option.map_eq_some_iff.mp he
  have hc' : update g.clients i c i = c := update_self i c g.clients
  simp only [WsSignaling.wrote, hc']
  exact .of_step hc

/-- The message for `j` in a frame of `i`. -/
def messageIn (parse : Parse) (ids : ι → PeerId) (i j : ι) (text : String) : Option SigMessage :=
  SigEvent.addressed parse ids j (.handled i text)

omit [DecidableEq ι] in
theorem src_of_messageIn {i j : ι} {text : String} {m : SigMessage}
    (h : messageIn parse ids i j text = some m) : m.src = ids i := by
  simp only [messageIn, SigEvent.addressed] at h
  split at h <;> [skip; cases h; cases h]
  split at h <;> cases h
  rfl

/-- A message for `j` was handled as often as it is in a frame of its sender. -/
theorem count_addressed (hids : Function.Injective ids) {i j : ι} {m : SigMessage} (hm : m.src = ids i)
    (history : List (SigEvent ι)) : (history.filterMap (SigEvent.addressed parse ids j)).count m =
      ((history.filterMap (SigEvent.handledBy i)).filterMap (messageIn parse ids i j)).count m := by
  induction history with
  | nil => rfl
  | cons e history ih =>
    cases e with
    | accepted k => exact ih
    | wrote k text => exact ih
    | handled k text =>
      have hin : SigEvent.addressed parse ids j (.handled k text) = messageIn parse ids k j text := rfl
      by_cases hk : k = i
      · subst hk
        have hby : SigEvent.handledBy k (.handled k text) = some text := if_pos rfl
        rw [List.filterMap_cons_some hby]
        cases ha : messageIn parse ids k j text with
        | none => rw [List.filterMap_cons_none (hin.trans ha), List.filterMap_cons_none ha, ih]
        | some m' => rw [List.filterMap_cons_some (hin.trans ha), List.filterMap_cons_some ha, List.count_cons,
            List.count_cons, ih]
      · have hby : SigEvent.handledBy i (.handled k text) = none := if_neg hk
        rw [List.filterMap_cons_none hby, ← ih]
        cases ha : messageIn parse ids k j text with
        | none => rw [List.filterMap_cons_none (hin.trans ha)]
        | some m' =>
          have hne : m' ≠ m := fun he => hk (hids ((src_of_messageIn ha).symm.trans (he ▸ hm)))
          rw [List.filterMap_cons_some (hin.trans ha), List.count_cons_of_ne hne]

/-- A message is handed over no more often than its sender wrote it. -/
theorem SigNetInv.count_le (hi : SigNetInv parse ids g) (hids : Function.Injective ids) {i j : ι}
    {m : SigMessage} (hm : m.src = ids i) : (g.clients j).messages.count m ≤
      ((g.writtenBy i).filterMap (messageIn parse ids i j)).count m := by
  have hsub : g.handledBy i <+: g.writtenBy i := hi.fifo i ▸ List.prefix_append _ _
  calc (g.clients j).messages.count m
      ≤ (g.addressedTo parse ids j).count m := hi.atMost j m
    _ = ((g.history.takeWhile (· ≠ .accepted j)).filterMap (SigEvent.addressed parse ids j)).count m :=
      List.count_reverse
    _ ≤ (g.history.filterMap (SigEvent.addressed parse ids j)).count m :=
      ((List.takeWhile_sublist _).filterMap _).count_le m
    _ = ((g.handledBy i).filterMap (messageIn parse ids i j)).count m := by
      rw [count_addressed hids hm, WsSignaling.handledBy, List.filterMap_reverse, List.count_reverse]
    _ ≤ _ := (hsub.sublist.filterMap _).count_le m

end Signaling

/-! ## The steps of the stack -/

/-- The frame that `Send` writes for a packet. -/
def Packet.frame (dump : Dump) (p : Packet ι) : String := dump (envelope p.dst (dump p.event.payload))

inductive StackEffect (parse : Parse) (dump : Dump) (ids : ι → PeerId) (s : RtcStack ι τ) :
    StackAction ι τ → RtcStack ι τ → Prop where
  | aside {a : StackAction ι τ} {g : WsSignaling ι} (hg : SigMoves parse ids s.signaling (fun _ => []) g) :
    StackEffect parse dump ids s a { s with signaling := g }
  | node {a : StackAction ι τ} {g : WsSignaling ι} (i : ι) (b : DcAction τ) {n : DcRtcTransport τ}
      (hb : ∀ t m, b ≠ .onMessage t m) (he : (s.nodes i).step parse b = some n)
      (hg : SigMoves parse ids s.signaling (fun _ => []) g) :
    StackEffect parse dump ids s a { s with signaling := g, nodes := update s.nodes i n }
  | delivered {a : StackAction ι τ} {g : WsSignaling ι} (i : ι) (t : τ) (m : SigMessage)
      {n : DcRtcTransport τ} (he : (s.nodes i).step parse (.onMessage t m) = some n)
      (hg : SigMoves parse ids s.signaling (fun _ => []) g)
      (hm : (s.signaling.clients i).messages ++ [m] <+: (g.clients i).messages) :
    StackEffect parse dump ids s a { s with signaling := g, nodes := update s.nodes i n }
  | sent {g : WsSignaling ι} (i : ι) (l : ℕ) (e : LocalEvent) (hl : l < (s.nodes i).created) (p : Packet ι)
      (hp : p = ⟨i, l, ((s.nodes i).links l).remoteId, e⟩)
      (hg : SigMoves parse ids s.signaling (fun j => if i = j then [p.frame dump] else []) g) :
    StackEffect parse dump ids s (.report i l e) { s with signaling := g, sent := p :: s.sent }

section Cases

variable {s s' : RtcStack ι τ} {a : StackAction ι τ}

omit [DecidableEq τ] in
theorem setNode_moves (hcodec : Codec parse dump) (hids : Function.Injective ids) {i : ι}
    {n : DcRtcTransport τ} (hi : SigNetInv parse ids s.signaling)
    (he : s.setNode parse dump i n = some s') : ∃ g, SigMoves parse ids s.signaling (fun _ => []) g ∧
      s' = { s with signaling := g, nodes := update s.nodes i n } := by
  simp only [RtcStack.setNode] at he
  split at he
  · cases he
    exact ⟨s.signaling, .refl hi, rfl⟩
  · obtain ⟨g, hg, rfl⟩ := Option.map_eq_some_iff.mp he
    exact ⟨g, abandon_moves hcodec hids hi hg, rfl⟩

omit [DecidableEq τ] in
theorem frames_of_lets {n : DcRtcTransport τ} {b : WsAction} (h : n.lets b = true) (c : DcWsSigClient) :
    WsSignaling.frames dump c b = [] := by
  cases b <;> first | rfl | cases h

theorem StackEffect.client {t : τ} {i : ι} {b : WsAction} (hcodec : Codec parse dump)
    (hids : Function.Injective ids) (hi : SigNetInv parse ids s.signaling)
    (he : s.step parse dump (.client t i b) = some s') : StackEffect parse dump ids s (.client t i b) s' := by
  simp only [RtcStack.step] at he
  split at he <;> [skip; cases he]
  rename_i hl
  obtain ⟨g, hg, he⟩ := Option.bind_eq_some_iff.mp he
  obtain ⟨n, hn, he⟩ := Option.bind_eq_some_iff.mp he
  have hmoves : SigMoves parse ids s.signaling (fun _ => []) g := by
    simpa [SigNetAction.texts, frames_of_lets hl] using SigMoves.of_step hcodec hids hi hg
  obtain ⟨g', hg', rfl⟩ := setNode_moves (s := { s with signaling := g }) hcodec hids hmoves.inv he
  have haside : s.nodes i = n → StackEffect parse dump ids s (.client t i b)
      { s with signaling := g', nodes := update s.nodes i n } := fun hn => by
    rw [← hn, update_eq_self]
    exact .aside (hmoves.trans hg')
  have hws := client_wsStep hg
  simp only [DcRtcTransport.called] at hn
  split at hn
  · exact haside (Option.some.inj hn)
  · rename_i b' hcall
    split at hn
    · rcases hws.calls t with ⟨-, hne⟩ | ⟨m, heq, hm⟩
      · exact .node i b' (fun t' m hb => hne t' m (hb ▸ hcall)) hn (hmoves.trans hg')
      · obtain rfl := Option.some.inj (hcall.symm.trans heq)
        exact .delivered i t m hn (hmoves.trans hg') (hm ▸ hg'.messages i)
    · exact haside (Option.some.inj hn)

theorem StackEffect.of_node {i : ι} {b : DcAction τ} (hcodec : Codec parse dump) (hids : Function.Injective ids)
    (hi : SigNetInv parse ids s.signaling) (hb : ∀ t m, b ≠ .onMessage t m)
    (he : (((s.nodes i).step parse b).bind fun n => s.setNode parse dump i n) = some s') :
    StackEffect parse dump ids s a s' := by
  obtain ⟨n, hn, he⟩ := Option.bind_eq_some_iff.mp he
  obtain ⟨g, hg, rfl⟩ := setNode_moves hcodec hids hi he
  exact .node i b hb hn hg

omit [DecidableEq τ] in
theorem send_moves (hcodec : Codec parse dump) (hids : Function.Injective ids) {p : Packet ι}
    (hi : SigNetInv parse ids s.signaling) (ho : (s.signaling.clients p.node).socket = .opened)
    (he : s.send parse dump p = some s') : ∃ g, SigMoves parse ids s.signaling
      (fun j => if p.node = j then [p.frame dump] else []) g ∧
      s' = { s with signaling := g, sent := p :: s.sent } := by
  obtain ⟨g, hg, rfl⟩ := Option.map_eq_some_iff.mp he
  have ht : ∀ j, SigNetAction.texts dump s.signaling j (if (s.signaling.clients p.node).held
      then .client p.node (.send p.dst (dump p.event.payload))
      else .write p.node (dump (envelope p.dst (dump p.event.payload)))) =
      if p.node = j then [p.frame dump] else [] := fun j => by
    split <;> simp [SigNetAction.texts, WsSignaling.frames, ho, Packet.frame]
  refine ⟨g, ?_, rfl⟩
  simpa only [ht] using SigMoves.of_step hcodec hids hi hg

theorem StackEffect.of_step (hcodec : Codec parse dump) (hids : Function.Injective ids)
    (hi : SigNetInv parse ids s.signaling) (he : s.step parse dump a = some s') :
    StackEffect parse dump ids s a s' := by
  cases a with
  | signaling b =>
    have hmoves : ∀ {g}, s.signaling.step parse dump b = some g → (∀ j, b.texts dump s.signaling j = []) →
        SigMoves parse ids s.signaling (fun _ => []) g := fun hg ht => by
      simpa only [ht] using SigMoves.of_step hcodec hids hi hg
    cases b with
    | client | write => cases he
    | _ =>
      simp only [RtcStack.step] at he
      obtain ⟨g, hg, rfl⟩ := Option.map_eq_some_iff.mp he
      exact .aside (hmoves hg fun _ => rfl)
  | client t i b => exact .client hcodec hids hi he
  | node i b =>
    cases b with
    | joined | onMessage | onLeft => cases he
    | destroy =>
      simp only [RtcStack.step] at he
      split at he <;> [cases he; skip]
      exact .of_node hcodec hids hi (by simp) he
    | _ =>
      simp only [RtcStack.step] at he
      exact .of_node hcodec hids hi (by simp) he
  | report i l e =>
    simp only [RtcStack.step] at he
    split at he <;> [skip; cases he]
    split at he
    · rename_i hl ho
      obtain ⟨g, hg, rfl⟩ := send_moves hcodec hids hi ho.2 he
      exact .sent i l e hl _ rfl hg
    · cases he
      exact .aside (.refl hi)

end Cases

/-! ## The network of a stack -/

/-- What is asked of the reports of the peer connections, of the transports and the packets
that were sent. -/
abbrev ReportCond (ι τ : Type) := (ι → DcRtcTransport τ) → List (Packet ι) → ι → ℕ → LocalEvent → Prop

/-- The reports of a stack meet the condition. -/
def StackReports (P : ReportCond ι τ) (s : RtcStack ι τ) : StackAction ι τ → Prop
  | .report i l e => P s.nodes s.sent i l e
  | _ => True

/-- The reports of a network meet the condition, and its wire neither loses nor copies. -/
def NetReports (P : ReportCond ι τ) (n : RtcNetwork ι τ) : RtcAction ι τ → Prop
  | .report i l e => P n.nodes n.wire.sent i l e
  | .lose _ | .duplicate _ => False
  | _ => True

/-- The message that the transport `j` makes of a packet. -/
def Packet.messageFor (dump : Dump) (ids : ι → PeerId) (j : ι) (p : Packet ι) : Option SigMessage :=
  if p.dst = ids j then some (RtcNetwork.message dump ids p) else none

structure Simulates (parse : Parse) (dump : Dump) (ids : ι → PeerId) (s : RtcStack ι τ)
    (n : RtcNetwork ι τ) : Prop where
  inv : SigNetInv parse ids s.signaling
  written : ∀ i, s.signaling.writtenBy i = ((s.sent.filter (·.node = i)).map (Packet.frame dump)).reverse
  nodes : n.nodes = s.nodes
  sent : n.wire.sent = s.sent
  exact : n.wire.Exact
  arrived : ∀ j m, (n.wire.arrived.filterMap (Packet.messageFor dump ids j)).count m ≤
    (s.signaling.clients j).messages.count m

section Simulation

variable {s s' : RtcStack ι τ} {a : StackAction ι τ} {n : RtcNetwork ι τ} {P : ReportCond ι τ}

omit [DecidableEq ι] in
theorem messageIn_frame (hcodec : Codec parse dump) {i j : ι} {p : Packet ι} (hp : p.node = i) :
    messageIn parse ids i j (p.frame dump) = p.messageFor dump ids j := by
  subst hp
  simp [messageIn, SigEvent.addressed, Packet.frame, readFrame_envelope hcodec, Packet.messageFor,
    RtcNetwork.message]

omit [DecidableEq τ] in
/-- What is handed to a transport was sent, as often. -/
theorem Simulates.count_le (hs : Simulates parse dump ids s n) (hcodec : Codec parse dump)
    (hids : Function.Injective ids) (j : ι) (m : SigMessage) : (s.signaling.clients j).messages.count m ≤
      (n.wire.sent.filterMap (Packet.messageFor dump ids j)).count m := by
  by_cases hm : ∃ i, m.src = ids i
  · obtain ⟨i, hm⟩ := hm
    have hframes : ∀ l : List (Packet ι), ((l.filter (·.node = i)).map (Packet.frame dump)).filterMap
        (messageIn parse ids i j) = (l.filter (·.node = i)).filterMap (Packet.messageFor dump ids j) := fun l => by
      rw [List.filterMap_map]
      refine List.filterMap_congr fun p hp => messageIn_frame hcodec ?_
      exact of_decide_eq_true (List.mem_filter.mp hp).2
    calc (s.signaling.clients j).messages.count m
        ≤ ((s.signaling.writtenBy i).filterMap (messageIn parse ids i j)).count m := hs.inv.count_le hids hm
      _ = ((s.sent.filter (·.node = i)).filterMap (Packet.messageFor dump ids j)).count m := by
        rw [hs.written, List.filterMap_reverse, List.count_reverse, hframes]
      _ ≤ (n.wire.sent.filterMap (Packet.messageFor dump ids j)).count m := by
        rw [hs.sent]
        exact ((List.filter_sublist).filterMap _).count_le m
  · have hzero : m ∉ (s.signaling.clients j).messages := fun hmem => hm ?_
    · rw [List.count_eq_zero.mpr hzero]
      exact Nat.zero_le _
    · have hpos := Nat.lt_of_lt_of_le (List.count_pos_iff.mpr hmem) (hs.inv.atMost j m)
      obtain ⟨i, -, -, hsrc, -⟩ := mem_addressedTo (List.count_pos_iff.mp hpos)
      exact ⟨i, hsrc⟩

omit [DecidableEq τ] in
theorem Simulates.aside {g : WsSignaling ι} (hs : Simulates parse dump ids s n)
    (hg : SigMoves parse ids s.signaling (fun _ => []) g) :
    Simulates parse dump ids { s with signaling := g } n :=
  ⟨hg.inv, fun j => by rw [hg.written, List.append_nil, hs.written], hs.nodes, hs.sent, hs.exact,
    fun j m => (hs.arrived j m).trans ((hg.messages j).sublist.count_le m)⟩

omit [DecidableEq τ] in
theorem Simulates.setNode (hs : Simulates parse dump ids s n) (i : ι) (v : DcRtcTransport τ) :
    Simulates parse dump ids { s with nodes := update s.nodes i v } (n.setNode i v) :=
  { hs with nodes := by rw [RtcNetwork.setNode, hs.nodes] }

omit [DecidableEq τ] in
/-- A message that was handed over once more is in flight. -/
theorem Simulates.in_flight {g : WsSignaling ι} (hs : Simulates parse dump ids s n) (hcodec : Codec parse dump)
    (hids : Function.Injective ids) {i : ι} {m : SigMessage}
    (hg : SigMoves parse ids s.signaling (fun _ => []) g)
    (hm : (s.signaling.clients i).messages ++ [m] <+: (g.clients i).messages) :
    ∃ (k : ℕ) (p : Packet ι), n.wire.flight[k]? = some p ∧ p.dst = ids i ∧
      RtcNetwork.message dump ids p = m := by
  have hlt : (n.wire.arrived.filterMap (Packet.messageFor dump ids i)).count m <
      (n.wire.sent.filterMap (Packet.messageFor dump ids i)).count m := by
    have hle := hm.sublist.count_le m
    rw [List.count_append, List.count_singleton_self] at hle
    have hsent := (hs.aside hg).count_le hcodec hids i m
    have harrived := hs.arrived i m
    dsimp only at hsent
    omega
  obtain ⟨k, p, hk, hp⟩ := hs.exact.exists_flight hlt
  simp only [Packet.messageFor] at hp
  split at hp <;> cases hp
  exact ⟨k, p, hk, ‹_›, rfl⟩

omit [DecidableEq τ] in
theorem Simulates.arrive {g : WsSignaling ι} (hs : Simulates parse dump ids s n) (hids : Function.Injective ids)
    {i : ι} {k : ℕ} {p : Packet ι} (hk : n.wire.flight[k]? = some p) (hd : p.dst = ids i)
    (hg : SigMoves parse ids s.signaling (fun _ => []) g)
    (hm : (s.signaling.clients i).messages ++ [RtcNetwork.message dump ids p] <+: (g.clients i).messages) :
    Simulates parse dump ids { s with signaling := g } { n with wire := n.wire.take k p } := by
  refine { hs.aside hg with exact := hs.exact.take hk, arrived := fun j m => ?_ }
  by_cases hj : j = i
  · subst hj
    have hfor : p.messageFor dump ids j = some (RtcNetwork.message dump ids p) := if_pos hd
    have hle := hm.sublist.count_le m
    rw [List.count_append, List.count_singleton] at hle
    have harrived := hs.arrived j m
    simp only [Wire.take, List.filterMap_cons_some hfor, List.count_cons]
    omega
  · have hfor : p.messageFor dump ids j = none := if_neg fun he => hj (hids (he.symm.trans hd))
    simp only [Wire.take, List.filterMap_cons_none hfor]
    exact (hs.aside hg).arrived j m

omit [DecidableEq τ] in
theorem Simulates.send {g : WsSignaling ι} (hs : Simulates parse dump ids s n) {p : Packet ι}
    (hg : SigMoves parse ids s.signaling (fun j => if p.node = j then [p.frame dump] else []) g) :
    Simulates parse dump ids { s with signaling := g, sent := p :: s.sent }
      { n with wire := n.wire.send p } := by
  refine ⟨hg.inv, fun j => ?_, hs.nodes, congrArg (p :: ·) hs.sent, hs.exact.send p, fun j m => ?_⟩
  · rw [hg.written, hs.written, List.filter_cons]
    by_cases hj : p.node = j
    · simp [hj]
    · simp [hj]
  · exact (hs.arrived j m).trans ((hg.messages j).sublist.count_le m)

theorem StackEffect.simulates {max : ι → ℕ} (h : StackEffect parse dump ids s a s')
    (hs : Simulates parse dump ids s n) (hcodec : Codec parse dump) (hids : Function.Injective ids)
    (hP : StackReports P s a) : ∃ n', (RtcNetwork.lts τ parse dump ids remote max).Path (NetReports P) n n' ∧
      Simulates parse dump ids s' n' := by
  have hone : ∀ {n' : RtcNetwork ι τ} (b : RtcAction ι τ), NetReports P n b →
      n.step parse dump ids b = some n' →
      (RtcNetwork.lts τ parse dump ids remote max).Path (NetReports P) n n' :=
    fun b hb he => .tail (.refl n) hb he
  cases h with
  | aside hg => exact ⟨n, .refl n, hs.aside hg⟩
  | node i b hb he hg =>
    refine ⟨_, hone (.node i b) trivial ?_, (hs.aside hg).setNode i _⟩
    rw [RtcNetwork.step_node hb, hs.nodes, he]
    rfl
  | delivered i t m he hg hm =>
    obtain ⟨k, p, hk, hd, rfl⟩ := hs.in_flight hcodec hids hg hm
    refine ⟨_, hone (.arrive i t k) trivial ?_, (hs.arrive hids hk hd hg hm).setNode i _⟩
    have hnode : (n.nodes i).step parse (.onMessage t (RtcNetwork.message dump ids p)) = some _ := hs.nodes ▸ he
    simp only [RtcNetwork.step, hk, hd, if_true, hnode]
    rfl
  | sent i l e hl p hp hg =>
    subst hp
    refine ⟨_, hone (.report i l e) ?_ ?_, hs.send hg⟩
    · simp only [NetReports, hs.nodes, hs.sent]
      exact hP
    · simp only [RtcNetwork.step, hs.nodes, hl, if_true]

theorem Simulates.init (parse : Parse) (dump : Dump) (ids remote : ι → PeerId) (max : ι → ℕ) :
    Simulates parse dump ids (RtcStack.lts τ parse dump ids remote max).init
      (RtcNetwork.lts τ parse dump ids remote max).init :=
  ⟨.init parse dump ids, fun _ => rfl, rfl, rfl, Wire.exact_empty, fun _ _ => Nat.zero_le _⟩

/-- The transports of a stack run as those of a network do. -/
theorem Simulates.reach {max : ι → ℕ} (hcodec : Codec parse dump) (hids : Function.Injective ids)
    (h : (RtcStack.lts τ parse dump ids remote max).Reach (StackReports P) s) :
    ∃ n, (RtcNetwork.lts τ parse dump ids remote max).Reach (NetReports P) n ∧
      Simulates parse dump ids s n :=
  h.simulate (fun hs hP he => (StackEffect.of_step hcodec hids hs.inv he).simulates hs hcodec hids hP)
    (.init parse dump ids remote max)

/-- The transports of a stack, with what they sent, are those of a network that neither loses nor
copies a message, in a run in which the peer connections report as they do in the stack. -/
theorem stack_refines {max : ι → ℕ} (hcodec : Codec parse dump) (hids : Function.Injective ids)
    (h : (RtcStack.lts τ parse dump ids remote max).Reach (StackReports P) s) :
    ∃ n, (RtcNetwork.lts τ parse dump ids remote max).Reach (NetReports P) n ∧ n.nodes = s.nodes ∧
      n.wire.sent = s.sent ∧ (n.wire.flight ++ n.wire.arrived).Perm s.sent := by
  obtain ⟨n, hn, hs⟩ := Simulates.reach hcodec hids h
  exact ⟨n, hn, hs.nodes, hs.sent, hs.sent ▸ hs.exact⟩

end Simulation

/-! ## Links end to end -/

/-- A peer connection describes itself once, as `Negotiates` says. -/
def Describes : ReportCond ι τ := fun nodes sent i l e =>
  let s : RtcNetwork ι τ := { nodes, wire := { sent } }
  Negotiates s (.report i l e) ∧ DescribesOnce s (.report i l e)

omit [DecidableEq ι] [DecidableEq τ] in
theorem negotiates_of_describes {n : RtcNetwork ι τ} {b : RtcAction ι τ} (h : NetReports Describes n b) :
    Negotiates n b ∧ DescribesOnce n b := by
  cases b with
  | report i l e =>
    obtain ⟨hn, hd⟩ := h
    cases e with
    | description type sdp => exact ⟨hn, hd⟩
    | candidate c => exact ⟨trivial, trivial⟩
  | duplicate k => cases h
  | lose k => cases h
  | node | arrive => exact ⟨trivial, trivial⟩

/-- The transports, and all that they sent. -/
def RtcStack.network (s : RtcStack ι τ) : RtcNetwork ι τ := { nodes := s.nodes, wire := { sent := s.sent } }

omit [DecidableEq ι] [DecidableEq τ] in
theorem facing_congr {s s' : RtcNetwork ι τ} (h : s.nodes = s'.nodes) {i j : ι} {l l' : ℕ} :
    s.Facing ids i l j l' ↔ s'.Facing ids i l j l' := by
  constructor
  · rintro ⟨h₁, h₂, h₃, h₄, h₅⟩
    rw [h] at h₁ h₂ h₃ h₄ h₅
    exact ⟨h₁, h₂, h₃, h₄, h₅⟩
  · rintro ⟨h₁, h₂, h₃, h₄, h₅⟩
    rw [← h] at h₁ h₂ h₃ h₄ h₅
    exact ⟨h₁, h₂, h₃, h₄, h₅⟩

/-- In every run of a stack without glare, two links that face a third are one, and all that a
peer connection is given was reported by one link, which faces it. -/
theorem stack_pairs {max : ι → ℕ} {s : RtcStack ι τ} (hcodec : Codec parse dump) (hread : Reads parse dump)
    (hids : Function.Injective ids) (hg : NoGlare ids remote)
    (h : (RtcStack.lts τ parse dump ids remote max).Reach (StackReports Describes) s) (i : ι) (l : ℕ) :
    (∀ j j' l₁ l₂, s.network.Facing ids i l j l₁ → s.network.Facing ids i l j' l₂ → j = j' ∧ l₁ = l₂) ∧
    ∃ j l', (∀ d, .described l d ∈ (s.nodes i).log → s.network.Facing ids i l j l' ∧
        ⟨j, l', ids i, .description d.type d.sdp⟩ ∈ s.sent) ∧
      ∀ c, .candidate l c ∈ (s.nodes i).log → s.network.Facing ids i l j l' ∧
        ⟨j, l', ids i, .candidate c⟩ ∈ s.sent := by
  obtain ⟨n, hn, hs⟩ := Simulates.reach hcodec hids h
  obtain ⟨hr, hi⟩ := PairInv.reach hread hids hg (hn.mono fun _ _ => negotiates_of_describes)
  have hface : ∀ {j l'}, n.Facing ids i l j l' ↔ s.network.Facing ids i l j l' := facing_congr hs.nodes
  obtain ⟨j, l', hdesc, hcand⟩ := hi.paired hr hids hg i l
  rw [hs.nodes] at hdesc hcand
  rw [hs.sent] at hdesc hcand
  refine ⟨fun _ _ _ _ h₁ h₂ => hi.unique hr hids (hface.mpr h₁) (hface.mpr h₂), j, l', fun d hd => ?_, fun c hc => ?_⟩
  · exact ⟨hface.mp (hdesc d hd).1, (hdesc d hd).2⟩
  · exact ⟨hface.mp (hcand c hc).1, (hcand c hc).2⟩

end

/-! ## A run -/

namespace RtcStack

open RtcNetwork (fieldsParse fieldsDump fieldsParse_dump)
open WsSignaling (pairId)

theorem fields_codec : Codec fieldsParse fieldsDump := fun id payload =>
  fieldsParse_dump ("id", id.value) [("payload", payload)]

/-- Two transports with one thread each, of which `a` makes an offer to `b`. -/
abbrev pair : Lts (RtcStack Bool Unit) (StackAction Bool Unit) :=
  lts Unit fieldsParse fieldsDump pairId RtcNetwork.toB fun _ => 2

/-- The steps of a client. -/
def steps (i : Bool) (as : List WsAction) : List (StackAction Bool Unit) := as.map (.client () i)

/-- The thread of a transport goes on. -/
def going (i : Bool) (n : Nat) : List (StackAction Bool Unit) := List.replicate n (.node i (.next () true))

/-- A client joins; `n` steps of its transport are those of `onJoined`. -/
def joining (i : Bool) (n : Nat) : List (StackAction Bool Unit) :=
  .signaling (.accept i) :: (steps i [.opened, .onOpen] ++ going i n ++
    steps i [.joined true, .onOpenNext, .onOpenNext, .onOpenNext])

/-- A frame of `i` is handed to the transport on the other side, which takes `n` steps. -/
def passing (i : Bool) (n : Nat) : List (StackAction Bool Unit) :=
  [.signaling (.serverFrame i), .signaling (.clientFrame !i)] ++
    steps (!i) [.deliverNext, .deliverNext, .deliverNext] ++ going (!i) n

end RtcStack

instance {ι τ : Type} [DecidableEq ι] (s : RtcStack ι τ) (a : StackAction ι τ) :
    Decidable (StackReports Describes s a) :=
  match a with
  | .report _ _ _ => inferInstanceAs (Decidable (Negotiates _ _ ∧ DescribesOnce _ _))
  | .signaling _ | .client _ _ _ | .node _ _ => .isTrue trivial

open RtcStack (pair joining passing)
open WsSignaling (pairId pairId_injective)

/-- `a` makes an offer, and `b` answers it and sends a candidate. -/
theorem RtcStack.answered : ∃ s, pair.Reach (StackReports Describes) s ∧
    .described 0 ⟨"v=1", .answer, ⟨"b"⟩⟩ ∈ (s.nodes false).log ∧
    .candidate 0 ⟨"udp", "0"⟩ ∈ (s.nodes false).log := by
  obtain ⟨s, hs, hq⟩ := Lts.Reach.of_run pair (StackReports Describes)
    (joining true 0 ++ joining false 2 ++ [StackAction.report false 0 (.description .offer "v=0")] ++
      passing false 6 ++ [StackAction.report true 0 (.description .answer "v=1"),
        StackAction.report true 0 (.candidate ⟨"udp", "0"⟩)] ++ passing true 4 ++ passing true 3)
    (fun s => .described 0 ⟨"v=1", .answer, ⟨"b"⟩⟩ ∈ (s.nodes false).log ∧
      .candidate 0 ⟨"udp", "0"⟩ ∈ (s.nodes false).log) (by decide +kernel)
  exact ⟨s, hs, of_decide_eq_true hq⟩

theorem stack_refines_answered : ∃ s n, pair.Reach (StackReports Describes) s ∧
    (RtcNetwork.pair RtcNetwork.toB).Reach (NetReports Describes) n ∧ n.nodes = s.nodes ∧
    .described 0 ⟨"v=1", .answer, ⟨"b"⟩⟩ ∈ (n.nodes false).log := by
  obtain ⟨s, hs, hd, -⟩ := RtcStack.answered
  obtain ⟨n, hn, hnodes, -⟩ := stack_refines RtcStack.fields_codec pairId_injective hs
  exact ⟨s, n, hs, hn, hnodes, hnodes ▸ hd⟩

theorem stack_pairs_answered : ∃ s, pair.Reach (StackReports Describes) s ∧
    .described 0 ⟨"v=1", .answer, ⟨"b"⟩⟩ ∈ (s.nodes false).log ∧
    .candidate 0 ⟨"udp", "0"⟩ ∈ (s.nodes false).log ∧
    ∃ j l', s.network.Facing pairId false 0 j l' ∧ ⟨j, l', ⟨"a"⟩, .description .answer "v=1"⟩ ∈ s.sent ∧
      ⟨j, l', ⟨"a"⟩, .candidate ⟨"udp", "0"⟩⟩ ∈ s.sent := by
  obtain ⟨s, hs, hd, hc⟩ := RtcStack.answered
  obtain ⟨-, j, l', hdesc, hcand⟩ := stack_pairs RtcStack.fields_codec RtcNetwork.fields_reads pairId_injective
    RtcNetwork.toB_noGlare hs false 0
  obtain ⟨hf, hm⟩ := hdesc _ hd
  exact ⟨s, hs, hd, hc, j, l', hf, hm, (hcand _ hc).2⟩

end TX.Rtt
