import TxPkgAux.Impl.Log.StartupSink
import Mathlib.Data.List.Perm.Subperm

/-!
# What a sink receives that is added while other threads log

A message that is logged waits until its call has passed the startup sink and, where the call
reads the sinks after `AddSink` has added the new one, the new sink too (`Waits`). Then the new
sink has it, or will have it by the replay (`carried`), or it was missed: its call passed the
startup sink after the replay, and does not know the new sink (`missed`). `Books` says that
every message is in one of the three places; it is kept by every step (`step_inv`), so that what
was delivered is known in every run (`delivered_iff_missed`).
-/

namespace TX.Log

/-- `AddSink` has replayed the buffer. -/
def AddSinkPc.replayed : AddSinkPc → Bool
  | .idle | .replayTo => false
  | .clearBuffer | .emplaceBack | .done => true

/-- The call has a sink to pass by which its message comes to the sink `k`. -/
def LogCall.Pending {M : Type} (k : ℕ) (c : LogCall M) : Prop := .startup ∈ c.rest ∨ .target k ∈ c.rest

/-- The sinks of a logger to which `k` is added: `b` may stand somewhere after `a`. -/
def Follows (k : ℕ) (a b : Sink) : Prop :=
  (b = .startup → a ≠ .startup ∧ a ≠ .target k) ∧ (b = .target k → a ≠ .target k)

/-- Every message that was logged waits, was missed or is carried to the new sink. -/
structure Books {α : Type*} (begun : List α) (waits : α → Prop) (missed carried : List α) : Prop where
  begun : ∀ e, e ∈ begun ↔ waits e ∨ e ∈ missed ∨ e ∈ carried
  nodup : carried.Nodup
  waits : ∀ e, waits e → e ∉ missed ∧ e ∉ carried
  missed : ∀ e ∈ missed, e ∉ carried

namespace Books

variable {α : Type*} {begun missed carried : List α} {waits waits' : α → Prop} {e : α}

theorem congr (h : Books begun waits missed carried) (hw : ∀ f, waits' f ↔ waits f) :
    Books begun waits' missed carried := by
  obtain rfl : waits' = waits := funext fun f => propext (hw f)
  exact h

/-- A message is logged. -/
theorem log (h : Books begun waits missed carried) (he : e ∉ begun)
    (hw : ∀ f, waits' f ↔ waits f ∨ f = e) : Books (begun ++ [e]) waits' missed carried := by
  have hne : e ∉ missed ∧ e ∉ carried := by
    refine ⟨fun hm => he ?_, fun hc => he ?_⟩
    · exact (h.begun e).mpr (.inr (.inl hm))
    · exact (h.begun e).mpr (.inr (.inr hc))
  refine ⟨fun f => ?_, h.nodup, fun f hf => ?_, h.missed⟩
  · rw [List.mem_append, List.mem_singleton, h.begun, hw]
    tauto
  · obtain hf | rfl := (hw f).mp hf
    · exact h.waits f hf
    · exact hne

/-- A message that waits comes to the new sink, or will come to it by the replay. -/
theorem carry (h : Books begun waits missed carried) (he : waits e)
    (hw : ∀ f, waits' f ↔ f ≠ e ∧ waits f) : Books begun waits' missed (carried ++ [e]) := by
  obtain ⟨hm, hc⟩ := h.waits e he
  refine ⟨fun f => ?_, ?_, fun f hf => ?_, fun f hf => ?_⟩
  · rw [h.begun, hw, List.mem_append, List.mem_singleton]
    by_cases hfe : f = e
    · simp [hfe, he]
    · simp [hfe]
  · refine List.nodup_append.mpr ⟨h.nodup, List.nodup_singleton _, ?_⟩
    rintro f hf g hg rfl
    exact hc (List.mem_singleton.mp hg ▸ hf)
  · obtain ⟨hfe, hf⟩ := (hw f).mp hf
    exact ⟨(h.waits f hf).1, by simp [(h.waits f hf).2, hfe]⟩
  · have hfe : f ≠ e := fun heq => hm (heq ▸ hf)
    simp [h.missed f hf, hfe]

/-- A message that waits is missed. -/
theorem miss (h : Books begun waits missed carried) (he : waits e)
    (hw : ∀ f, waits' f ↔ f ≠ e ∧ waits f) : Books begun waits' (e :: missed) carried := by
  obtain ⟨-, hc⟩ := h.waits e he
  refine ⟨fun f => ?_, h.nodup, fun f hf => ?_, fun f hf => ?_⟩
  · rw [h.begun, hw, List.mem_cons]
    by_cases hfe : f = e
    · simp [hfe, he]
    · simp [hfe]
  · obtain ⟨hfe, hf⟩ := (hw f).mp hf
    exact ⟨by simp [(h.waits f hf).1, hfe], (h.waits f hf).2⟩
  · obtain rfl | hf := List.mem_cons.mp hf
    · exact hc
    · exact h.missed f hf

end Books

namespace Logger

variable {M : Type} {k cap : ℕ} {s s' : Logger M} {t : ℕ} {c : LogCall M} {e f : Stamped M}
  {calls : ℕ → Option (LogCall M)}

/-- The messages that the sink `k` has received, or will receive by the replay. -/
def carried (k : ℕ) (s : Logger M) : List (Stamped M) :=
  if s.pc.replayed then s.received k else s.buffer

/-- The message of a call that has yet to pass a sink by which it comes to the sink `k`. -/
def Waits (k : ℕ) (calls : ℕ → Option (LogCall M)) (e : Stamped M) : Prop :=
  ∃ t c, calls t = some c ∧ c.msg = e ∧ c.Pending k

/-- The message with which a call passes the startup sink too late for the replay, and which
the call does not bring to the sink `k` either. -/
def missed (k : ℕ) (s : Logger M) : LogAction M → List (Stamped M)
  | .pass t =>
    match s.calls t with
    | some ⟨msg, .startup :: rest⟩ => if s.pc.replayed ∧ .target k ∉ rest then [msg] else []
    | _ => []
  | _ => []

/-- The sink `k` received every message that was buffered when `AddSink` began, and every message
whose call has returned, each once, and in an order in which no message comes before one that was
logged before it. -/
structure Delivered (k : ℕ) (s : Logger M) : Prop where
  once : (s.received k).Nodup
  buffered : s.buffered ⊆ s.received k
  every : ∀ e, s.history.Returned e → e ∈ s.received k
  only : s.received k ⊆ s.history.begun
  order : s.history.InOrder (s.received k)

/-! ## The calls -/

theorem update_eq_some {o : Option (LogCall M)} {t' : ℕ} :
    Function.update calls t o t' = some c ↔ t' = t ∧ o = some c ∨ t' ≠ t ∧ calls t' = some c := by
  by_cases ht : t' = t
  · subst ht
    simp
  · simp [ht]

structure CallsInv (h : CallHistory M) (calls : ℕ → Option (LogCall M)) : Prop where
  valid : h.Valid
  begun : ∀ t c, calls t = some c → c.msg ∈ h.begun ∧ ¬ h.Returned c.msg
  unique : ∀ t t' c c', calls t = some c → calls t' = some c' → c.msg = c'.msg → t = t'

theorem CallsInv.log {h : CallHistory M} (hi : CallsInv h calls) (t : ℕ) (msg : M) (rest : List Sink) :
    CallsInv (h.call msg) (Function.update calls t (some ⟨h.next msg, rest⟩)) := by
  have hnew : h.next msg ∉ h.begun := hi.valid.next_notMem msg
  refine ⟨hi.valid.call msg, fun t' c' hc => ?_, fun t₁ t₂ c₁ c₂ h₁ h₂ he => ?_⟩
  · rw [CallHistory.mem_call, CallHistory.returned_call]
    obtain ⟨-, heq⟩ | ⟨-, hc⟩ := update_eq_some.mp hc
    · obtain rfl := Option.some.inj heq
      exact ⟨.inr rfl, fun hr => hnew (hi.valid.returned _ hr)⟩
    · exact ⟨.inl (hi.begun t' c' hc).1, (hi.begun t' c' hc).2⟩
  · obtain ⟨rfl, heq₁⟩ | ⟨-, hc₁⟩ := update_eq_some.mp h₁
    · obtain rfl := Option.some.inj heq₁
      obtain ⟨rfl, -⟩ | ⟨-, hc₂⟩ := update_eq_some.mp h₂
      · rfl
      · exact absurd (hi.begun _ _ hc₂).1 (he ▸ hnew)
    · obtain ⟨rfl, heq₂⟩ | ⟨-, hc₂⟩ := update_eq_some.mp h₂
      · obtain rfl := Option.some.inj heq₂
        exact absurd (hi.begun _ _ hc₁).1 (he ▸ hnew)
      · exact hi.unique _ _ _ _ hc₁ hc₂ he

theorem CallsInv.advance {h : CallHistory M} (hi : CallsInv h calls) (hc : calls t = some c)
    (rest : List Sink) : CallsInv h (Function.update calls t (some { c with rest })) := by
  have hcase : ∀ t' c', Function.update calls t (some { c with rest }) t' = some c' →
      ∃ c₁, calls t' = some c₁ ∧ c₁.msg = c'.msg := by
    intro t' c' hc'
    obtain ⟨rfl, heq⟩ | ⟨-, hc'⟩ := update_eq_some.mp hc'
    · exact ⟨c, hc, Option.some.inj heq ▸ rfl⟩
    · exact ⟨c', hc', rfl⟩
  refine ⟨hi.valid, fun t' c' hc' => ?_, fun t₁ t₂ c₁ c₂ h₁ h₂ he => ?_⟩
  · obtain ⟨c₁, hc₁, hm⟩ := hcase t' c' hc'
    exact hm ▸ hi.begun t' c₁ hc₁
  · obtain ⟨d₁, hd₁, hm₁⟩ := hcase t₁ c₁ h₁
    obtain ⟨d₂, hd₂, hm₂⟩ := hcase t₂ c₂ h₂
    exact hi.unique _ _ _ _ hd₁ hd₂ (hm₁.trans (he.trans hm₂.symm))

theorem CallsInv.ret {h : CallHistory M} (hi : CallsInv h calls) (hc : calls t = some c) :
    CallsInv (h.ret c.msg) (Function.update calls t none) := by
  have hcase : ∀ t' c', Function.update calls t none t' = some c' → t' ≠ t ∧ calls t' = some c' := by
    intro t' c' hc'
    obtain ⟨-, heq⟩ | hc' := update_eq_some.mp hc'
    · cases heq
    · exact hc'
  refine ⟨hi.valid.ret (hi.begun t c hc).1, fun t' c' hc' => ?_, fun t₁ t₂ c₁ c₂ h₁ h₂ he => ?_⟩
  · obtain ⟨ht, hc'⟩ := hcase t' c' hc'
    refine ⟨(hi.begun t' c' hc').1, fun hr => ?_⟩
    obtain hr | he := CallHistory.returned_ret.mp hr
    · exact (hi.begun t' c' hc').2 hr
    · exact ht (hi.unique _ _ _ _ hc' hc he)
  · exact hi.unique _ _ _ _ (hcase _ _ h₁).2 (hcase _ _ h₂).2 he

/-- A call is replaced, or ends: what waits besides it. -/
theorem CallsInv.waits_update {h : CallHistory M} (hi : CallsInv h calls) (hc : calls t = some c)
    (c' : Option (LogCall M)) :
    Waits k (Function.update calls t c') f ↔
      (f ≠ c.msg ∧ Waits k calls f) ∨ ∃ c₁, c' = some c₁ ∧ c₁.msg = f ∧ c₁.Pending k := by
  constructor
  · rintro ⟨t', c₁, hc₁, hm, hp⟩
    obtain ⟨-, heq⟩ | ⟨ht, hc₁⟩ := update_eq_some.mp hc₁
    · exact .inr ⟨c₁, heq, hm, hp⟩
    · exact .inl ⟨fun he => ht (hi.unique _ _ _ _ hc₁ hc (hm.trans he)), t', c₁, hc₁, hm, hp⟩
  · rintro (⟨hne, t', c₁, hc₁, hm, hp⟩ | ⟨c₁, heq, hm, hp⟩)
    · have ht : t' ≠ t := by
        rintro rfl
        exact hne (by rw [← hm, Option.some.inj (hc₁.symm.trans hc)])
      exact ⟨t', c₁, update_eq_some.mpr (.inr ⟨ht, hc₁⟩), hm, hp⟩
    · exact ⟨t, c₁, update_eq_some.mpr (.inl ⟨rfl, heq⟩), hm, hp⟩

/-- A call whose message does not wait any more. -/
theorem CallsInv.waits_settled {h : CallHistory M} (hi : CallsInv h calls) (hc : calls t = some c)
    {c' : Option (LogCall M)} (hp : ∀ c₁, c' = some c₁ → ¬ c₁.Pending k) :
    Waits k (Function.update calls t c') f ↔ f ≠ c.msg ∧ Waits k calls f := by
  rw [hi.waits_update hc]
  refine or_iff_left ?_
  rintro ⟨c₁, he, -, hp₁⟩
  exact hp c₁ he hp₁

/-- Only a call that is pending waits. -/
theorem CallsInv.waits_iff {h : CallHistory M} (hi : CallsInv h calls) (hc : calls t = some c) :
    Waits k calls c.msg ↔ c.Pending k := by
  constructor
  · rintro ⟨t', c₁, hc₁, hm, hp⟩
    obtain rfl := hi.unique _ _ _ _ hc₁ hc hm
    exact Option.some.inj (hc₁.symm.trans hc) ▸ hp
  · exact fun hp => ⟨t, c, hc, rfl, hp⟩

/-- A step of a call after which its message waits as it did. -/
theorem CallsInv.waits_same {h : CallHistory M} (hi : CallsInv h calls) (hc : calls t = some c)
    {rest : List Sink} (hp : LogCall.Pending k { c with rest } ↔ c.Pending k) :
    Waits k (Function.update calls t (some { c with rest })) f ↔ Waits k calls f := by
  rw [hi.waits_update hc]
  by_cases hf : f = c.msg
  · subst hf
    simp [hi.waits_iff hc, hp]
  · simp [hf, Ne.symm hf]

/-! ## The sinks -/

/-- `startup` and `k` each stand once among the sinks, `k` at the end. -/
structure SinksInv (k : ℕ) (s : Logger M) : Prop where
  follows : s.sinks.Pairwise (Follows k)
  startup : .startup ∈ s.sinks
  added : .target k ∈ s.sinks ↔ s.pc = .done
  rest : ∀ t c, s.calls t = some c → c.rest.Pairwise (Follows k) ∧ (.target k ∈ c.rest → s.pc = .done)

theorem startup_notMem {rest : List Sink} (h : (.startup :: rest).Pairwise (Follows k)) :
    .startup ∉ rest :=
  fun hm => (((List.pairwise_cons.mp h).1 _ hm).1 rfl).1 rfl

theorem target_notMem {rest : List Sink} (h : (.target k :: rest).Pairwise (Follows k)) :
    .startup ∉ rest ∧ .target k ∉ rest := by
  have hf := (List.pairwise_cons.mp h).1
  exact ⟨fun hm => ((hf _ hm).1 rfl).2 rfl, fun hm => (hf _ hm).2 rfl rfl⟩

theorem sinksInv_init {before after : List ℕ} (hb : k ∉ before) (ha : k ∉ after) :
    SinksInv k (lts M cap k before after).init := by
  have hnot : ∀ ids : List ℕ, .startup ∉ ids.map Sink.target := fun ids => by simp
  have hids : ∀ ids : List ℕ, k ∉ ids → .target k ∉ ids.map Sink.target := fun ids hi => by simpa using hi
  refine ⟨?_, List.mem_append_right _ (List.mem_cons_self ..), ?_, fun t c hc => by cases hc⟩
  · refine List.pairwise_append.mpr ⟨?_, List.pairwise_cons.mpr ⟨?_, ?_⟩, ?_⟩
    · exact List.pairwise_of_forall_mem_list fun a ha' b hb' =>
        ⟨fun he => absurd (he ▸ hb') (hnot _), fun he => absurd (he ▸ hb') (hids _ hb)⟩
    · exact fun b hb' => ⟨fun he => absurd (he ▸ hb') (hnot _), fun he => absurd (he ▸ hb') (hids _ ha)⟩
    · exact List.pairwise_of_forall_mem_list fun a ha' b hb' =>
        ⟨fun he => absurd (he ▸ hb') (hnot _), fun he => absurd (he ▸ hb') (hids _ ha)⟩
    · intro a ha' b _
      exact ⟨fun _ => ⟨fun he => hnot _ (he ▸ ha'), fun he => hids _ hb (he ▸ ha')⟩,
        fun _ he => hids _ hb (he ▸ ha')⟩
  · refine iff_of_false (fun hm => ?_) AddSinkPc.noConfusion
    obtain hm | hm := List.mem_append.mp hm
    · exact hids _ hb hm
    · obtain hm | hm := List.mem_cons.mp hm
      · cases hm
      · exact hids _ ha hm

/-- `emplaceBack`: the new sink stands behind the others. -/
theorem SinksInv.emplaceBack (h : SinksInv k s) (hpc : s.pc = .emplaceBack) :
    SinksInv k { s with sinks := s.sinks ++ [.target k], pc := .done } := by
  have hk : .target k ∉ s.sinks := fun hm => absurd (h.added.mp hm) (by simp [hpc])
  refine ⟨?_, List.mem_append_left _ h.startup, ?_, fun t c hc => ⟨(h.rest t c hc).1, fun _ => rfl⟩⟩
  · refine List.pairwise_append.mpr ⟨h.follows, List.pairwise_singleton _ _, fun a ha b hb => ?_⟩
    obtain rfl := List.mem_singleton.mp hb
    exact ⟨fun he => (Sink.noConfusion he), fun _ he => hk (he ▸ ha)⟩
  · simp

/-! ## Steps -/

structure Inv (k : ℕ) (s : Logger M) (missed : List (Stamped M)) : Prop where
  calls : CallsInv s.history s.calls
  sinks : SinksInv k s
  early : s.pc ≠ .done → s.early = s.history.begun.length
  received : s.pc.replayed = false → s.received k = []
  buffered : s.buffered ⊆ s.carried k
  order : s.history.InOrder (s.carried k)
  books : Books s.history.begun (Waits k s.calls) missed (s.carried k)

variable {m : List (Stamped M)}

theorem Inv.carried_subset (h : Inv k s m) : s.carried k ⊆ s.history.begun :=
  fun e he => (h.books.begun e).mpr (.inr (.inr he))

theorem inv_init {before after : List ℕ} (hb : k ∉ before) (ha : k ∉ after) :
    Inv k (lts M cap k before after).init [] := by
  refine ⟨⟨CallHistory.valid_empty, ?_, ?_⟩, sinksInv_init hb ha, fun _ => rfl, fun _ => rfl,
    List.nil_subset _, List.Pairwise.nil, ⟨fun e => ?_, List.nodup_nil, ?_, ?_⟩⟩
  · exact fun t c hc => by cases hc
  · exact fun t t' c c' hc => by cases hc
  · refine iff_of_false List.not_mem_nil ?_
    rintro (⟨t, c, hc, -⟩ | hm | hm)
    · cases hc
    · exact List.not_mem_nil hm
    · exact List.not_mem_nil hm
  · rintro e ⟨t, c, hc, -⟩
    cases hc
  · exact fun e he => absurd he List.not_mem_nil

/-- A message is logged. -/
theorem Inv.log (h : Inv k s m) (hc : s.calls t = none) (msg : M) : Inv k (s.log t msg) m := by
  have hwaits : ∀ f, Waits k (s.log t msg).calls f ↔ Waits k s.calls f ∨ f = s.history.next msg := by
    intro f
    constructor
    · rintro ⟨t', c, hc', hm, hp⟩
      obtain ⟨-, heq⟩ | ⟨-, hc'⟩ := update_eq_some.mp hc'
      · obtain rfl := Option.some.inj heq
        exact .inr hm.symm
      · exact .inl ⟨t', c, hc', hm, hp⟩
    · rintro (⟨t', c, hc', hm, hp⟩ | rfl)
      · have ht : t' ≠ t := by
          rintro rfl
          cases hc.symm.trans hc'
        exact ⟨t', c, update_eq_some.mpr (.inr ⟨ht, hc'⟩), hm, hp⟩
      · exact ⟨t, _, update_eq_some.mpr (.inl ⟨rfl, rfl⟩), rfl, .inl h.sinks.startup⟩
  refine ⟨h.calls.log t msg s.sinks, ⟨h.sinks.follows, h.sinks.startup, h.sinks.added, ?_⟩, fun hpc => ?_,
    h.received, h.buffered, h.order, h.books.log (h.calls.valid.next_notMem msg) hwaits⟩
  · intro t' c hc'
    obtain ⟨-, heq⟩ | ⟨-, hc'⟩ := update_eq_some.mp hc'
    · obtain rfl := Option.some.inj heq
      exact ⟨h.sinks.follows, h.sinks.added.mp⟩
    · exact h.sinks.rest t' c hc'
  · have hpc' : s.pc ≠ .done := hpc
    simp [Logger.log, setCall, CallHistory.call, hpc', h.early hpc']

/-- A call goes on to its next sink: what is left to pass is in order too. -/
theorem SinksInv.advance (h : SinksInv k s) (hc : s.calls t = some c) {x : Sink} {rest : List Sink}
    (hr : c.rest = x :: rest) (hsinks : s'.sinks = s.sinks) (hpc : s'.pc = s.pc)
    (hcalls : s'.calls = Function.update s.calls t (some { c with rest })) : SinksInv k s' := by
  refine ⟨hsinks ▸ h.follows, hsinks ▸ h.startup, by rw [hsinks, hpc]; exact h.added, fun t' c' hc' => ?_⟩
  rw [hcalls] at hc'
  rw [hpc]
  obtain ⟨-, heq⟩ | ⟨-, hc'⟩ := update_eq_some.mp hc'
  · obtain rfl := Option.some.inj heq
    obtain ⟨hp, hd⟩ := h.rest _ c hc
    rw [hr] at hp hd
    exact ⟨(List.pairwise_cons.mp hp).2, fun hm => hd (List.mem_cons_of_mem _ hm)⟩
  · exact h.rest t' c' hc'

/-- A call returns. -/
theorem Inv.ret (h : Inv k s m) (hc : s.calls t = some c) (hr : c.rest = []) :
    Inv k ({ s with history := s.history.ret c.msg }.setCall t none) m := by
  have hnot : ¬ c.Pending k := by simp [LogCall.Pending, hr]
  refine ⟨h.calls.ret hc, ⟨h.sinks.follows, h.sinks.startup, h.sinks.added, fun t' c' hc' => ?_⟩,
    h.early, h.received, h.buffered, CallHistory.InOrder.ret h.order h.calls.valid h.carried_subset,
    h.books.congr fun f => ?_⟩
  · obtain ⟨-, heq⟩ | ⟨-, hc'⟩ := update_eq_some.mp hc'
    · cases heq
    · exact h.sinks.rest t' c' hc'
  · change Waits k (Function.update s.calls t none) f ↔ _
    rw [h.calls.waits_settled hc (by simp)]
    refine and_iff_right_of_imp fun hw he => hnot ?_
    subst he
    exact (h.calls.waits_iff hc).mp hw

/-- The messages that were logged before `AddSink` returns fit into the buffer. -/
theorem Inv.sinkIt (h : Inv k s m) (hcap : s.early < cap) (hc : s.calls t = some c) (hp : c.Pending k)
    (hpc : s.pc.replayed = false) :
    StartupSink.sinkIt cap s.buffer c.msg = s.carried k ++ [c.msg] := by
  have hcarried : s.carried k = s.buffer := by simp [carried, hpc]
  have hnot : c.msg ∉ s.buffer := hcarried ▸ (h.books.waits _ ((h.calls.waits_iff hc).mpr hp)).2
  have hnodup : (c.msg :: s.buffer).Nodup := List.nodup_cons.mpr ⟨hnot, hcarried ▸ h.books.nodup⟩
  have hsub : c.msg :: s.buffer ⊆ s.history.begun :=
    List.cons_subset.mpr ⟨(h.calls.begun t c hc).1, hcarried ▸ h.carried_subset⟩
  have hle := (hnodup.subperm hsub).length_le
  have hearly := h.early (by rintro he; rw [he] at hpc; cases hpc)
  rw [List.length_cons] at hle
  rw [StartupSink.sinkIt, if_neg (by omega), hcarried]

/-- A call passes the startup sink. -/
theorem Inv.passStartup (h : Inv k s m) (hcap : s.early < cap) (hc : s.calls t = some c)
    {rest : List Sink} (hr : c.rest = .startup :: rest) :
    Inv k ({ s with buffer := StartupSink.sinkIt cap s.buffer c.msg }.setCall t (some { c with rest }))
      (missed k s (.pass t) ++ m) := by
  obtain ⟨msg, sinks⟩ := c
  obtain rfl : sinks = .startup :: rest := hr
  have hpending : LogCall.Pending k ⟨msg, .startup :: rest⟩ := .inl (List.mem_cons_self ..)
  have hno := startup_notMem (h.sinks.rest t _ hc).1
  have hwait := (h.calls.waits_iff hc).mpr hpending
  have hsettled (hk : .target k ∉ rest) (f : Stamped M) :
      Waits k (Function.update s.calls t (some ⟨msg, rest⟩)) f ↔ f ≠ msg ∧ Waits k s.calls f :=
    h.calls.waits_settled hc (by simp [LogCall.Pending, hno, hk])
  have hsinks : SinksInv k ({ s with buffer := StartupSink.sinkIt cap s.buffer msg }.setCall t
    (some ⟨msg, rest⟩)) := h.sinks.advance hc rfl rfl rfl rfl
  cases hpc : s.pc.replayed with
  | true =>
    have hcarried : carried k ({ s with buffer := StartupSink.sinkIt cap s.buffer msg }.setCall t
        (some ⟨msg, rest⟩)) = s.carried k := by simp [carried, setCall, hpc]
    refine ⟨h.calls.advance hc rest, hsinks, h.early, h.received, hcarried ▸ h.buffered,
      hcarried ▸ h.order, ?_⟩
    rw [hcarried]
    by_cases hk : .target k ∈ rest
    · have hm : missed k s (.pass t) = [] := by simp [missed, hc, hk]
      rw [hm]
      exact h.books.congr fun f => h.calls.waits_same hc ⟨fun _ => hpending, fun _ => .inr hk⟩
    · have hm : missed k s (.pass t) = [msg] := by simp [missed, hc, hk, hpc]
      rw [hm]
      exact h.books.miss hwait (hsettled hk)
  | false =>
    have hk : .target k ∉ rest := by
      intro hk
      have hdone := (h.sinks.rest t _ hc).2 (List.mem_cons_of_mem _ hk)
      rw [hdone] at hpc
      cases hpc
    have hm : missed k s (.pass t) = [] := by simp [missed, hc, hpc]
    have hcarried : carried k ({ s with buffer := StartupSink.sinkIt cap s.buffer msg }.setCall t
        (some ⟨msg, rest⟩)) = s.carried k ++ [msg] := by
      rw [← h.sinkIt hcap hc hpending hpc]
      simp [carried, setCall, hpc]
    refine ⟨h.calls.advance hc rest, hsinks, h.early, h.received, ?_, ?_, ?_⟩
    · rw [hcarried]
      exact List.subset_append_of_subset_left _ h.buffered
    · rw [hcarried]
      exact CallHistory.InOrder.append h.order (h.calls.begun t _ hc).2
    · rw [hcarried, hm]
      exact h.books.carry hwait (hsettled hk)

/-- A call passes another sink. -/
theorem Inv.passTarget (h : Inv k s m) (hc : s.calls t = some c) {id : ℕ} {rest : List Sink}
    (hr : c.rest = .target id :: rest) :
    Inv k ((s.receive id (s.received id ++ [c.msg])).setCall t (some { c with rest })) m := by
  obtain ⟨msg, sinks⟩ := c
  obtain rfl : sinks = .target id :: rest := hr
  have hsinks : SinksInv k ((s.receive id (s.received id ++ [msg])).setCall t (some ⟨msg, rest⟩)) :=
    h.sinks.advance hc rfl rfl rfl rfl
  by_cases hid : id = k
  · subst hid
    have hpending : LogCall.Pending id ⟨msg, .target id :: rest⟩ := .inr (List.mem_cons_self ..)
    have hdone := (h.sinks.rest t _ hc).2 (List.mem_cons_self ..)
    have hno := target_notMem (h.sinks.rest t _ hc).1
    have hwait := (h.calls.waits_iff hc).mpr hpending
    have hcarried : carried id ((s.receive id (s.received id ++ [msg])).setCall t (some ⟨msg, rest⟩)) =
        s.carried id ++ [msg] := by simp [carried, setCall, receive, hdone, AddSinkPc.replayed]
    refine ⟨h.calls.advance hc rest, hsinks, h.early, fun hpc => ?_, ?_, ?_, ?_⟩
    · have hpc' : s.pc.replayed = false := hpc
      rw [hdone] at hpc'
      cases hpc'
    · rw [hcarried]
      exact List.subset_append_of_subset_left _ h.buffered
    · rw [hcarried]
      exact CallHistory.InOrder.append h.order (h.calls.begun t _ hc).2
    · rw [hcarried]
      exact h.books.carry hwait fun f => h.calls.waits_settled hc (by simp [LogCall.Pending, hno])
  · have hreceived : Function.update s.received id (s.received id ++ [msg]) k = s.received k :=
      Function.update_of_ne (Ne.symm hid) ..
    have hcarried : carried k ((s.receive id (s.received id ++ [msg])).setCall t (some ⟨msg, rest⟩)) =
        s.carried k := by simp only [carried, setCall, receive, hreceived]
    have hsame : LogCall.Pending k ⟨msg, rest⟩ ↔ LogCall.Pending k ⟨msg, .target id :: rest⟩ := by
      simp [LogCall.Pending, Ne.symm hid]
    refine ⟨h.calls.advance hc rest, hsinks, h.early, fun hpc => hreceived.trans (h.received hpc),
      hcarried ▸ h.buffered, ?_, ?_⟩
    · rw [hcarried]
      exact h.order
    · rw [hcarried]
      exact h.books.congr fun f => h.calls.waits_same hc hsame

/-- A step of `AddSink` before the last: the replay brings what is buffered, and nothing is
buffered for the new sink after it. -/
theorem Inv.addSinkStep (h : Inv k s m) {pc : AddSinkPc} {buffer buffered : List (Stamped M)}
    {received : ℕ → List (Stamped M)} (hpc : s.pc ≠ .done) (hpc' : pc ≠ .done)
    (hr : pc.replayed = false → received k = []) (hb : buffered ⊆ s.carried k)
    (hcarried : ({ s with pc, buffer, received, buffered } : Logger M).carried k = s.carried k) :
    Inv k { s with pc, buffer, received, buffered } m := by
  refine ⟨h.calls, ⟨h.sinks.follows, h.sinks.startup, ?_, fun t c hc => ?_⟩, fun _ => h.early hpc, hr,
    hcarried ▸ hb, ?_, ?_⟩
  · exact iff_of_false (fun hm => hpc (h.sinks.added.mp hm)) hpc'
  · exact ⟨(h.sinks.rest t c hc).1, fun hm => absurd ((h.sinks.rest t c hc).2 hm) hpc⟩
  · rw [hcarried]
    exact h.order
  · rw [hcarried]
    exact h.books

theorem Inv.addSink (h : Inv k s m) (he : s.addSink k = some s') : Inv k s' m := by
  simp only [Logger.addSink] at he
  split at he <;> rename_i hpc <;> cases he
  · have hr : s.received k = [] := h.received (by rw [hpc]; rfl)
    have hc : s.buffer = s.carried k := by simp [carried, hpc, AddSinkPc.replayed]
    exact h.addSinkStep (by simp [hpc]) (by simp) (fun _ => hr) (hc ▸ List.Subset.refl _)
      (by simp [carried, hpc, AddSinkPc.replayed])
  · have hr : s.received k = [] := h.received (by rw [hpc]; rfl)
    exact h.addSinkStep (by simp [hpc]) (by simp) (by simp [AddSinkPc.replayed]) h.buffered
      (by simp [carried, hpc, AddSinkPc.replayed, StartupSink.replayTo, hr, receive])
  · exact h.addSinkStep (by simp [hpc]) (by simp) (by simp [AddSinkPc.replayed]) h.buffered
      (by simp [carried, hpc, AddSinkPc.replayed])
  · have hcarried : ({ s with sinks := s.sinks ++ [.target k], pc := .done } : Logger M).carried k =
        s.carried k := by simp [carried, hpc, AddSinkPc.replayed]
    refine ⟨h.calls, h.sinks.emplaceBack hpc, fun hd => absurd rfl hd, by simp [AddSinkPc.replayed],
      hcarried ▸ h.buffered, ?_, ?_⟩
    · rw [hcarried]
      exact h.order
    · rw [hcarried]
      exact h.books

theorem early_le {a : LogAction M} (he : s.step cap k a = some s') : s.early ≤ s'.early := by
  cases a with
  | log t msg =>
    simp only [step] at he
    split at he <;> cases he
    simp only [Logger.log, setCall]
    split <;> omega
  | pass t =>
    obtain ⟨c, -, rfl⟩ := Option.map_eq_some_iff.mp he
    simp only [pass]
    split <;> exact Nat.le_refl _
  | addSink =>
    simp only [step, Logger.addSink] at he
    split at he <;> cases he <;> exact Nat.le_refl _

theorem Inv.step (h : Inv k s m) {a : LogAction M} (hcap : s'.early < cap)
    (he : s.step cap k a = some s') : Inv k s' (missed k s a ++ m) := by
  have hcap' : s.early < cap := Nat.lt_of_le_of_lt (early_le he) hcap
  cases a with
  | log t msg =>
    simp only [Logger.step] at he
    split at he <;> cases he
    exact h.log ‹_› msg
  | pass t =>
    obtain ⟨c, hc, rfl⟩ := Option.map_eq_some_iff.mp he
    have hother (hr : ∀ rest, c.rest ≠ .startup :: rest) : missed k s (.pass t) = [] := by
      simp only [missed, hc]
      split
      · rename_i msg rest heq
        cases heq
        exact absurd rfl (hr rest)
      · rfl
    simp only [pass]
    split
    · rename_i hr
      rw [hother (by simp [hr])]
      exact h.ret hc hr
    · rename_i rest hr
      exact h.passStartup hcap' hc hr
    · rename_i id rest hr
      rw [hother (by simp [hr])]
      exact h.passTarget hc hr
  | addSink => exact h.addSink he

theorem step_inv {before after : List ℕ} (hb : k ∉ before) (ha : k ∉ after) {os : List (Stamped M)}
    (hr : ((lts M cap k before after).observe (missed k)).Reach Lts.Any (s, os)) (hcap : s.early < cap) :
    Inv k s os := by
  have hI : (s, os).1.early < cap → Inv k (s, os).1 (s, os).2 := by
    refine Lts.Path.invariant (I := fun p => p.1.early < cap → Inv k p.1 p.2) hr
      (fun _ => (inv_init hb ha : Inv k (lts M cap k before after).init [])) ?_
    intro p p' a hp _ he hlt
    obtain ⟨hs, ho⟩ := Lts.observe_step.mp he
    rw [ho]
    exact (hp (Nat.lt_of_le_of_lt (early_le hs) hlt)).step hlt hs
  exact hI hcap

/-! ## What the new sink receives -/

/-- In every run in which the messages logged before `AddSink` returns fit into the buffer of the
startup sink: the new sink receives every message as it should exactly if no logging call that
has returned passed the startup sink after the replay with the sinks from before the new one. -/
theorem delivered_iff_missed {before after : List ℕ} (hb : k ∉ before) (ha : k ∉ after)
    {os : List (Stamped M)}
    (hr : ((lts M cap k before after).observe (missed k)).Reach Lts.Any (s, os))
    (hcap : s.early < cap) (hdone : s.pc = .done) :
    s.Delivered k ↔ ∀ e ∈ os, ¬ s.history.Returned e := by
  have h := step_inv hb ha hr hcap
  have hcarried : s.carried k = s.received k := by simp [carried, hdone, AddSinkPc.replayed]
  have hbooks := h.books
  rw [hcarried] at hbooks
  constructor
  · exact fun hd e he hret => hbooks.missed e he (hd.every e hret)
  · intro hm
    refine ⟨hbooks.nodup, hcarried ▸ h.buffered, fun e hret => ?_, hcarried ▸ h.carried_subset,
      hcarried ▸ h.order⟩
    obtain ⟨t, c, hc, rfl, -⟩ | he | he := (hbooks.begun e).mp (h.calls.valid.returned e hret)
    · exact absurd hret (h.calls.begun t c hc).2
    · exact absurd hret (hm e he)
    · exact he

/-- Two messages, one before the replay and one after `AddSink`: the new sink receives both. -/
theorem delivered_iff_missed_two : ∃ p,
    ((lts String DefaultMaxBufferSize 1 [0] []).observe (missed 1)).Reach Lts.Any p ∧ p.1.pc = .done ∧
      (p.1.received 1).map Stamped.value = ["one", "two"] ∧ p.1.Delivered 1 := by
  obtain ⟨⟨s, os⟩, hr, hq⟩ := Lts.Reach.of_run
    ((lts String DefaultMaxBufferSize 1 [0] []).observe (missed 1)) Lts.Any
    [.log 5 "one", .pass 5, .pass 5, .pass 5, .addSink, .addSink, .addSink, .addSink,
      .log 7 "two", .pass 7, .pass 7, .pass 7, .pass 7]
    (fun p => p.1.pc = .done ∧ p.1.early < DefaultMaxBufferSize ∧ p.2 = [] ∧
      (p.1.received 1).map Stamped.value = ["one", "two"]) (by decide +kernel)
  obtain ⟨hdone, hcap, hos, hreceived⟩ := of_decide_eq_true hq
  refine ⟨(s, os), hr, hdone, hreceived, ?_⟩
  refine (delivered_iff_missed (by decide) (by decide) hr hcap hdone).mpr fun e he => ?_
  simp only at hos
  subst hos
  cases he

/-- A message that is logged between the replay and `ClearBuffer` never reaches the new sink. -/
theorem not_always_delivered : ¬ ∀ (M : Type) (cap k : ℕ) (before after : List ℕ) (s : Logger M),
    k ∉ before → k ∉ after → (lts M cap k before after).Reach Lts.Any s → s.early < cap →
      s.pc = .done → s.Delivered k := by
  intro h
  obtain ⟨s, hr, hq⟩ := Lts.Reach.of_run (lts String DefaultMaxBufferSize 1 [0] []) Lts.Any
    [.addSink, .addSink, .log 5 "lost", .pass 5, .pass 5, .pass 5, .addSink, .addSink]
    (fun s => s.pc = .done ∧ s.early < DefaultMaxBufferSize ∧ s.history.Returned ⟨"lost", 0⟩ ∧
      s.received 1 = []) (by decide +kernel)
  obtain ⟨hdone, hcap, hret, hnone⟩ := of_decide_eq_true hq
  have hd := h String _ 1 [0] [] s (by decide) (by decide) hr hcap hdone
  have hmem := hd.every _ hret
  rw [hnone] at hmem
  cases hmem

end Logger

end TX.Log
