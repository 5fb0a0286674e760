import Mathlib.Data.List.Perm.Subperm
import Mathlib.Data.List.Nodup

/-!
# Packets in flight

A network that reorders packets, and may lose or copy them. Only what was sent arrives, as
often at most as it was sent and copied (`Wire.Valid`). Where it does neither, all that was sent
is in flight or has arrived (`Wire.Exact`).
-/

namespace TX

theorem subperm_filterMap {α β : Type*} (f : α → Option β) {l l' : List α} (h : l.Subperm l') :
    (l.filterMap f).Subperm (l'.filterMap f) := by
  obtain ⟨l₀, hp, hs⟩ := h
  exact ⟨l₀.filterMap f, hp.filterMap f, hs.filterMap f⟩

theorem subperm_map {α β : Type*} (f : α → β) {l l' : List α} (h : l.Subperm l') :
    (l.map f).Subperm (l'.map f) := by
  obtain ⟨l₀, hp, hs⟩ := h
  exact ⟨l₀.map f, hp.map f, hs.map f⟩

/-- The packets in flight, and all that were sent, copied on the way, and that arrived, newest
first. -/
structure Wire (α : Type*) where
  flight : List α := []
  sent : List α := []
  copied : List α := []
  arrived : List α := []

namespace Wire

variable {α : Type*}

def send (w : Wire α) (a : α) : Wire α := { w with flight := a :: w.flight, sent := a :: w.sent }

/-- The packet at the place `k` arrives. -/
def take (w : Wire α) (k : ℕ) (a : α) : Wire α :=
  { w with flight := w.flight.eraseIdx k, arrived := a :: w.arrived }

def lose (w : Wire α) (k : ℕ) : Wire α := { w with flight := w.flight.eraseIdx k }

def duplicate (w : Wire α) (k : ℕ) : Wire α :=
  { w with flight := w.flight[k]?.toList ++ w.flight, copied := w.flight[k]?.toList ++ w.copied }

structure Valid (w : Wire α) : Prop where
  copied : w.copied ⊆ w.sent
  counted : (w.flight ++ w.arrived).Subperm (w.sent ++ w.copied)

variable {w : Wire α} {a : α} {k : ℕ}

theorem Valid.sent (h : w.Valid) : w.flight ++ w.arrived ⊆ w.sent := fun b hb => by
  rcases List.mem_append.mp (h.counted.subset hb) with hb | hb
  · exact hb
  · exact h.copied hb

theorem Valid.flight_sent (h : w.Valid) : w.flight ⊆ w.sent := (List.append_subset.mp h.sent).1

/-- What arrived was sent, or is a copy. -/
theorem Valid.arrived_subperm (h : w.Valid) : w.arrived.Subperm (w.sent ++ w.copied) :=
  (List.sublist_append_right w.flight w.arrived).subperm.trans h.counted

theorem valid_empty : ({} : Wire α).Valid := ⟨List.Subset.refl [], List.Subperm.refl []⟩

theorem Valid.send (h : w.Valid) (a : α) : (w.send a).Valid :=
  ⟨fun _ hb => List.mem_cons_of_mem a (h.copied hb), (List.subperm_cons a).mpr h.counted⟩

/-- A packet that arrives was one in flight. -/
theorem perm_take (hk : w.flight[k]? = some a) :
    ((w.take k a).flight ++ (w.take k a).arrived).Perm (w.flight ++ w.arrived) := by
  obtain ⟨hlt, rfl⟩ := List.getElem?_eq_some_iff.mp hk
  exact List.perm_middle.trans ((List.getElem_cons_eraseIdx_perm hlt).append_right w.arrived)

theorem Valid.take (h : w.Valid) (hk : w.flight[k]? = some a) : (w.take k a).Valid :=
  ⟨h.copied, (perm_take hk).subperm.trans h.counted⟩

theorem Valid.lose (h : w.Valid) (k : ℕ) : (w.lose k).Valid :=
  ⟨h.copied, ((List.eraseIdx_sublist w.flight k).append_right w.arrived).subperm.trans h.counted⟩

theorem Valid.duplicate (h : w.Valid) (k : ℕ) : (w.duplicate k).Valid := by
  refine ⟨List.append_subset.mpr ⟨fun b hb => ?_, h.copied⟩, ?_⟩
  · exact h.flight_sent (List.mem_of_getElem? (Option.mem_toList.mp hb))
  · have hc : (w.flight[k]?.toList ++ (w.flight ++ w.arrived)).Subperm
        (w.flight[k]?.toList ++ (w.sent ++ w.copied)) := (List.subperm_append_left _).mpr h.counted
    simp only [Wire.duplicate, List.append_assoc]
    refine hc.trans (List.Perm.subperm ?_)
    rw [← List.append_assoc, ← List.append_assoc]
    exact List.perm_append_comm.append_right w.copied

/-- Of packets that are sent once at most, and not copied, none has arrived while one is in
flight. -/
theorem Valid.not_arrived (h : w.Valid) (hc : w.copied = []) {p : α → Bool} (hp : w.sent.countP p ≤ 1)
    (ha : a ∈ w.flight) (hpa : p a = true) : ∀ b ∈ w.arrived, p b = false := by
  have hle : w.flight.countP p + w.arrived.countP p ≤ w.sent.countP p := by
    have hcount := h.counted.countP_le p
    rwa [List.countP_append, hc, List.append_nil] at hcount
  have hpos : 0 < w.flight.countP p := List.countP_pos_iff.mpr ⟨a, ha, hpa⟩
  intro b hb
  by_contra hpb
  have : 0 < w.arrived.countP p := List.countP_pos_iff.mpr ⟨b, hb, by simpa using hpb⟩
  omega

/-! ## Without loss -/

/-- Every packet that was sent is in flight or has arrived. -/
def Exact (w : Wire α) : Prop := (w.flight ++ w.arrived).Perm w.sent

theorem exact_empty : ({} : Wire α).Exact := .refl []

theorem Exact.send (h : w.Exact) (a : α) : (w.send a).Exact := h.cons a

theorem Exact.take (h : w.Exact) (hk : w.flight[k]? = some a) : (w.take k a).Exact := (perm_take hk).trans h

/-- A packet of which more were sent than have arrived is in flight. -/
theorem Exact.exists_flight {β : Type*} [BEq β] [LawfulBEq β] (h : w.Exact) {f : α → Option β} {b : β}
    (hlt : (w.arrived.filterMap f).count b < (w.sent.filterMap f).count b) :
    ∃ (k : ℕ) (a : α), w.flight[k]? = some a ∧ f a = some b := by
  have hcount := (h.filterMap f).count_eq b
  rw [List.filterMap_append, List.count_append] at hcount
  have hpos : 0 < (w.flight.filterMap f).count b := by omega
  obtain ⟨a, ha, hf⟩ := List.mem_filterMap.mp (List.count_pos_iff.mp hpos)
  obtain ⟨k, hk⟩ := List.mem_iff_getElem?.mp ha
  exact ⟨k, a, hk, hf⟩

end Wire

end TX
