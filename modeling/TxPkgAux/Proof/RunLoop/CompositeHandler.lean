import TxPkgAux.Impl.RunLoop.CompositeHandler
import Mathlib.Data.List.Forall2

/-!
# `CompositeHandler`

`Runs h is`: a handler whose leaves are `is` starts them in order, or starts those before one
that fails and stops them again, the last one first; and it stops its leaves, the last one
first. The loops of a composite make such a handler of such handlers
(`runs_startAll`), so a tree is one (`tree_start_stop`).

For a composite in use, `live` tells from the calls that a handler got whether it is to get
`Update` and `Stop`. Where `Add` succeeds in starting the handler, these are the members of a
running composite (`children_live`).
-/

namespace TX.RunLoop

variable {ι σ : Type}

/-! ## Starting and stopping in order -/

/-- Leaves are started, in order; the record is newest first. -/
def startsOf (is : List ι) : List (HandlerEvent ι) := (is.map (.start · true)).reverse

/-- Leaves are stopped, the last one first. -/
def stopsOf (is : List ι) : List (HandlerEvent ι) := is.map .stop

@[simp] theorem startsOf_append (is js : List ι) : startsOf (is ++ js) = startsOf js ++ startsOf is := by
  simp [startsOf]

@[simp] theorem stopsOf_append (is js : List ι) : stopsOf (is ++ js) = stopsOf is ++ stopsOf js := by
  simp [stopsOf]

/-- The handler has the leaves `is`. -/
structure Runs (h : Handler (σ × List (HandlerEvent ι))) (is : List ι) : Prop where
  started : ∀ w, (h.start w).1 = true → (h.start w).2.2 = startsOf is ++ w.2
  failed : ∀ w, (h.start w).1 = false → ∃ pre i post, is = pre ++ i :: post ∧
    (h.start w).2.2 = stopsOf pre ++ .start i false :: (startsOf pre ++ w.2)
  stopped : ∀ w, (h.stop w).2 = stopsOf is ++ w.2

theorem runs_leaf (b : Leaves ι σ) (i : ι) : Runs (b.handler i) [i] where
  started w h := by
    show .start i (b.start i w.1).1 :: w.2 = _
    rw [show (b.start i w.1).1 = true from h]
    rfl
  failed w h := by
    refine ⟨[], i, [], rfl, ?_⟩
    show .start i (b.start i w.1).1 :: w.2 = _
    rw [show (b.start i w.1).1 = false from h]
    rfl
  stopped w := rfl

section Loops

variable {hs started : List (Handler (σ × List (HandlerEvent ι)))} {iss sss : List (List ι)}

theorem runs_stopEach (h : List.Forall₂ Runs hs iss) (w : σ × List (HandlerEvent ι)) :
    (stopEach hs w).2 = stopsOf iss.reverse.flatten ++ w.2 := by
  induction h generalizing w with
  | nil => rfl
  | @cons h is hs iss hr _ ih =>
    show (stopEach hs (h.stop w)).2 = _
    rw [ih, hr.stopped, List.reverse_cons, List.flatten_append, stopsOf_append]
    simp

theorem runs_startAll (hst : List.Forall₂ Runs started sss) (h : List.Forall₂ Runs hs iss)
    (w : σ × List (HandlerEvent ι)) :
    ((startAll started hs w).1 = true → (startAll started hs w).2.2 = startsOf iss.flatten ++ w.2) ∧
    ((startAll started hs w).1 = false → ∃ pre i post, iss.flatten = pre ++ i :: post ∧
      (startAll started hs w).2.2 =
        stopsOf (sss.reverse.flatten ++ pre) ++ .start i false :: (startsOf pre ++ w.2)) := by
  induction h generalizing started sss w with
  | nil => exact ⟨fun _ => rfl, fun h => Bool.noConfusion h⟩
  | @cons h is hs iss hr _ ih =>
    rcases hw : h.start w with ⟨ok, w₁⟩
    cases ok with
    | true =>
      have hlog : w₁.2 = startsOf is ++ w.2 := by simpa [hw] using hr.started w (by rw [hw])
      have heq : startAll started (h :: hs) w = startAll (h :: started) hs w₁ := by simp [startAll, hw]
      obtain ⟨htrue, hfalse⟩ := ih (.cons hr hst) w₁
      rw [heq]
      refine ⟨fun hok => ?_, fun hok => ?_⟩
      · simp [htrue hok, hlog]
      · obtain ⟨pre, i, post, hpre, hl⟩ := hfalse hok
        exact ⟨is ++ pre, i, post, by simp [hpre], by simp [hl, hlog]⟩
    | false =>
      obtain ⟨pre, i, post, hpre, hl⟩ := hr.failed w (by rw [hw])
      have heq : startAll started (h :: hs) w = (false, stopEach started w₁) := by simp [startAll, hw]
      rw [heq]
      refine ⟨fun hok => Bool.noConfusion hok, fun _ => ⟨pre, i, post ++ iss.flatten, by simp [hpre], ?_⟩⟩
      rw [hw] at hl
      simp [runs_stopEach hst, show w₁.2 = _ from hl]

/-- The loops of a composite make a handler of its handlers. -/
theorem runs_composite (h : List.Forall₂ Runs hs iss) :
    Runs (composite hs) iss.flatten := by
  have hnil : List.Forall₂ Runs ([] : List (Handler (σ × List (HandlerEvent ι)))) [] := .nil
  refine ⟨fun w => (runs_startAll hnil h w).1, fun w => ?_, fun w => ?_⟩
  · simpa [composite] using (runs_startAll hnil h w).2
  · simpa [composite, stopAll] using runs_stopEach (List.forall₂_reverse_iff.mpr h) w

end Loops

/-! ## Trees -/

mutual

theorem HandlerTree.runs (b : Leaves ι σ) : (t : HandlerTree ι) → Runs (t.handler b.handler) t.leaves
  | .leaf i => runs_leaf b i
  | .composite ts => by
    obtain ⟨iss, hflat, h⟩ := HandlerTree.runs_handlers b ts
    rw [HandlerTree.handler, HandlerTree.leaves, ← hflat]
    exact runs_composite h

theorem HandlerTree.runs_handlers (b : Leaves ι σ) : (ts : List (HandlerTree ι)) →
    ∃ iss, iss.flatten = HandlerTree.leavesOf ts ∧ List.Forall₂ Runs (HandlerTree.handlers b.handler ts) iss
  | [] => ⟨[], rfl, .nil⟩
  | t :: ts => by
    obtain ⟨iss, hflat, h⟩ := HandlerTree.runs_handlers b ts
    exact ⟨t.leaves :: iss, by simp [HandlerTree.leavesOf, hflat], .cons (t.runs b) h⟩

end

/-- If `Start` of a tree returns `true`, its leaves were started in order, and a later `Stop`
stops them in the reverse order. If it returns `false`, a leaf failed to start, and the leaves
before it were started in order and stopped in the reverse order. -/
theorem tree_start_stop (b : Leaves ι σ) (t : HandlerTree ι) (w : σ × List (HandlerEvent ι)) :
    (((t.handler b.handler).start w).1 = true →
      ((t.handler b.handler).start w).2.2.reverse = w.2.reverse ++ t.leaves.map (.start · true) ∧
      ∀ w', ((t.handler b.handler).stop w').2.reverse = w'.2.reverse ++ t.leaves.reverse.map .stop) ∧
    (((t.handler b.handler).start w).1 = false → ∃ pre i post, t.leaves = pre ++ i :: post ∧
      ((t.handler b.handler).start w).2.2.reverse =
        w.2.reverse ++ pre.map (.start · true) ++ .start i false :: pre.reverse.map .stop) := by
  have hr := t.runs b
  refine ⟨fun hok => ⟨?_, fun w' => ?_⟩, fun hok => ?_⟩
  · simp [hr.started w hok, startsOf]
  · simp [hr.stopped w', stopsOf]
  · obtain ⟨pre, i, post, hpre, hlog⟩ := hr.failed w hok
    exact ⟨pre, i, post, hpre, by simp [hlog, startsOf, stopsOf]⟩

/-! ## Calls that a handler is to get -/

section Live

variable [DecidableEq ι]

/-- The last `Start` of the handler returned `true`, and it was not stopped since. -/
def live (i : ι) : List (HandlerEvent ι) → Bool
  | [] => false
  | .start j ok :: log => if j = i then ok else live i log
  | .stop j :: log => if j = i then false else live i log
  | .update _ :: log => live i log

/-- `Update` and `Stop` are for handlers that are live, and `Start` for those that are not. -/
def Sound : List (HandlerEvent ι) → Prop
  | [] => True
  | .start i _ :: log => live i log = false ∧ Sound log
  | .update i :: log => live i log = true ∧ Sound log
  | .stop i :: log => live i log = true ∧ Sound log

variable {log : List (HandlerEvent ι)} {is : List ι} {i : ι}

theorem live_startsOf : live i (startsOf is ++ log) = (decide (i ∈ is) || live i log) := by
  induction is generalizing log with
  | nil => simp [startsOf]
  | cons j is ih =>
    have happ : startsOf (j :: is) ++ log = startsOf is ++ (.start j true :: log) := by simp [startsOf]
    rw [happ, ih]
    by_cases hj : j = i
    · simp [live, hj]
    · simp [live, hj, Ne.symm hj]

theorem live_stopsOf : live i (stopsOf is ++ log) = (!decide (i ∈ is) && live i log) := by
  induction is with
  | nil => simp [stopsOf]
  | cons j is ih =>
    show live i (.stop j :: (stopsOf is ++ log)) = _
    rw [live, ih]
    by_cases hj : j = i
    · simp [hj]
    · simp [hj, Ne.symm hj]

theorem sound_startsOf (hn : is.Nodup) (hl : ∀ i ∈ is, live i log = false) (hs : Sound log) :
    Sound (startsOf is ++ log) := by
  induction is generalizing log with
  | nil => exact hs
  | cons j is ih =>
    have happ : startsOf (j :: is) ++ log = startsOf is ++ (.start j true :: log) := by simp [startsOf]
    rw [happ]
    rw [List.nodup_cons] at hn
    refine ih hn.2 (fun i hi => ?_) ⟨hl j List.mem_cons_self, hs⟩
    have hne : j ≠ i := fun h => hn.1 (h ▸ hi)
    rw [live, if_neg hne]
    exact hl i (List.mem_cons_of_mem _ hi)

theorem sound_stopsOf (hn : is.Nodup) (hl : ∀ i ∈ is, live i log = true) (hs : Sound log) :
    Sound (stopsOf is ++ log) := by
  induction is with
  | nil => exact hs
  | cons j is ih =>
    rw [List.nodup_cons] at hn
    have hlive : live j (stopsOf is ++ log) = true := by
      rw [live_stopsOf, hl j List.mem_cons_self]
      simp [hn.1]
    exact ⟨hlive, ih hn.2 fun i hi => hl i (List.mem_cons_of_mem _ hi)⟩

theorem live_updates : live i ((is.map .update).reverse ++ log) = live i log := by
  induction is generalizing log with
  | nil => rfl
  | cons j is ih =>
    have happ : ((j :: is).map HandlerEvent.update).reverse ++ log =
        (is.map .update).reverse ++ (.update j :: log) := by simp
    rw [happ, ih, live]

theorem sound_updates (hl : ∀ i ∈ is, live i log = true) (hs : Sound log) :
    Sound ((is.map .update).reverse ++ log) := by
  induction is generalizing log with
  | nil => exact hs
  | cons j is ih =>
    have happ : ((j :: is).map HandlerEvent.update).reverse ++ log =
        (is.map .update).reverse ++ (.update j :: log) := by simp
    rw [happ]
    exact ih (fun i hi => hl i (List.mem_cons_of_mem _ hi)) ⟨hl j List.mem_cons_self, hs⟩

/-- A handler was stopped as often as it was started, or is live. -/
theorem count_stop_of_sound (hs : Sound log) :
    log.count (.start i true) = log.count (.stop i) + if live i log then 1 else 0 := by
  induction log with
  | nil => rfl
  | cons e log ih =>
    cases e with
    | start j ok =>
      have hold := ih hs.2
      by_cases hj : j = i
      · subst hj
        have hl : live j log = false := hs.1
        cases ok <;> simp_all [live]
      · simpa [live, hj] using hold
    | update j =>
      rw [List.count_cons_of_ne (by simp), List.count_cons_of_ne (by simp)]
      exact ih hs.2
    | stop j =>
      have hold := ih hs.2
      by_cases hj : j = i
      · subst hj
        have hl : live j log = true := hs.1
        simp_all [live]
      · simpa [live, hj] using hold

/-- A call in the record of a sound one. -/
theorem live_of_sound {later : List (HandlerEvent ι)} {e : HandlerEvent ι} (hs : Sound (later ++ e :: log))
    (he : e = .update i ∨ e = .stop i) : live i log = true := by
  induction later with
  | nil =>
    rcases he with rfl | rfl
    · exact hs.1
    · exact hs.1
  | cons e' later ih => cases e' <;> exact ih hs.2

end Live

/-! ## A composite in use -/

section Composite

variable [DecidableEq ι] {b : Leaves ι σ} {c c' : CompositeHandler ι σ} {a : CompositeAction ι}

/-- A handler that is added to a running composite returns `true` from `Start`. -/
def AddsStart (b : Leaves ι σ) (c : CompositeHandler ι σ) : CompositeAction ι → Prop
  | .add i => c.running = true → (b.start i c.world.1).1 = true
  | _ => True

/-- The members of a running composite are live. -/
structure CompositeInv (c : CompositeHandler ι σ) : Prop where
  nodup : c.handlers.Nodup
  started : c.started = c.running
  live_iff : ∀ i, live i c.world.2 = true ↔ c.running = true ∧ i ∈ c.handlers
  sound : Sound c.world.2

theorem CompositeInv.not_live (hi : CompositeInv c) (hr : c.running = false) (i : ι) :
    live i c.world.2 = false := by
  rw [← Bool.not_eq_true, hi.live_iff]
  simp [hr]

omit [DecidableEq ι] in
theorem runs_leaves (b : Leaves ι σ) (is : List ι) :
    Runs (composite (is.map b.handler)) is := by
  have h : ∃ iss, iss.flatten = is ∧ List.Forall₂ Runs (is.map b.handler) iss := by
    induction is with
    | nil => exact ⟨[], rfl, .nil⟩
    | cons i is ih =>
      obtain ⟨iss, rfl, h⟩ := ih
      exact ⟨[i] :: iss, rfl, .cons (runs_leaf b i) h⟩
  obtain ⟨iss, hflat, h⟩ := h
  have hr := runs_composite h
  rwa [hflat] at hr

omit [DecidableEq ι] in
theorem updateAll_leaves (b : Leaves ι σ) (is : List ι) (w : σ × List (HandlerEvent ι)) :
    (updateAll (is.map b.handler) w).2 = (is.map .update).reverse ++ w.2 := by
  induction is generalizing w with
  | nil => rfl
  | cons i is ih =>
    show (updateAll (is.map b.handler) ((b.handler i).update w)).2 = _
    rw [ih]
    simp [Leaves.handler]

theorem CompositeInv.start (hi : CompositeInv c) (hs : c.started = false) : CompositeInv (c.start b) := by
  have hr : c.running = false := hi.started ▸ hs
  have hnot := hi.not_live hr
  have htrue := (runs_leaves b c.handlers).started c.world
  have hfalse := (runs_leaves b c.handlers).failed c.world
  unfold CompositeHandler.start
  split <;> rename_i w heq <;> rw [heq] at htrue hfalse
  · have hlog : w.2 = startsOf c.handlers ++ c.world.2 := htrue rfl
    refine ⟨hi.nodup, rfl, fun i => ?_, ?_⟩
    · simp [hlog, live_startsOf, hnot]
    · rw [hlog]
      exact sound_startsOf hi.nodup (fun i _ => hnot i) hi.sound
  · obtain ⟨pre, i, post, hpre, hlog⟩ := hfalse rfl
    obtain ⟨hnpre, -, hdisj⟩ := List.nodup_append.mp (hpre ▸ hi.nodup)
    have hipre : i ∉ pre := fun hmem => hdisj i hmem i List.mem_cons_self rfl
    have hlive : ∀ j, live j (.start i false :: (startsOf pre ++ c.world.2)) = decide (j ∈ pre) := by
      intro j
      rw [live, live_startsOf, hnot]
      by_cases hj : i = j
      · subst hj
        simp [hipre]
      · simp [hj]
    refine ⟨hi.nodup, hi.started, fun j => ?_, ?_⟩
    · -- All that were started are stopped again.
      rw [hlog, live_stopsOf, hlive, hr]
      simp
    · rw [hlog]
      refine sound_stopsOf hnpre (fun j hj => ?_) ⟨?_, ?_⟩
      · simp [hlive, hj]
      · simp [live_startsOf, hnot, hipre]
      · exact sound_startsOf hnpre (fun j _ => hnot j) hi.sound

theorem CompositeInv.update (hi : CompositeInv c) (hs : c.started = true) : CompositeInv (c.update b) := by
  have hr : c.running = true := hi.started ▸ hs
  have hlog : (c.update b).world.2 = (c.handlers.map .update).reverse ++ c.world.2 :=
    updateAll_leaves b c.handlers c.world
  refine ⟨hi.nodup, hi.started, fun i => ?_, ?_⟩
  · rw [hlog, live_updates]
    exact hi.live_iff i
  · rw [hlog]
    exact sound_updates (fun i hmem => (hi.live_iff i).mpr ⟨hr, hmem⟩) hi.sound

theorem CompositeInv.add (hi : CompositeInv c) {i : ι} (hn : i ∉ c.handlers)
    (hok : c.running = true → (b.start i c.world.1).1 = true) : CompositeInv (c.add b i) := by
  have hnodup : (c.handlers ++ [i]).Nodup := by
    rw [List.nodup_append]
    refine ⟨hi.nodup, by simp, fun j hj k hk heq => hn ?_⟩
    rw [List.mem_singleton] at hk
    rwa [heq, hk] at hj
  cases hr : c.running with
  | false =>
    refine ⟨hnodup, hi.started, fun j => ?_, ?_⟩
    · simp [CompositeHandler.add, hr, hi.not_live hr]
    · simpa [CompositeHandler.add, hr] using hi.sound
  | true =>
    have hlog : (c.add b i).world.2 = .start i true :: c.world.2 := by
      simp [CompositeHandler.add, hr, Leaves.handler, hok hr]
    have hnl : live i c.world.2 = false := by
      rw [← Bool.not_eq_true, hi.live_iff]
      simp [hn]
    refine ⟨hnodup, hi.started, fun j => ?_, ?_⟩
    · rw [hlog, live]
      by_cases hj : i = j
      · simp [hj, CompositeHandler.add, hr]
      · rw [if_neg hj, hi.live_iff]
        simp [CompositeHandler.add, Ne.symm hj]
    · rw [hlog]
      exact ⟨hnl, hi.sound⟩

theorem CompositeInv.remove (hi : CompositeInv c) {i : ι} (hmem : i ∈ c.handlers) :
    CompositeInv (c.remove b i) := by
  have hnodup : (c.handlers.erase i).Nodup := hi.nodup.erase i
  cases hr : c.running with
  | false =>
    refine ⟨hnodup, hi.started, fun j => ?_, ?_⟩
    · simp [CompositeHandler.remove, hr, hi.not_live hr]
    · simpa [CompositeHandler.remove, hr] using hi.sound
  | true =>
    have hlog : (c.remove b i).world.2 = .stop i :: c.world.2 := by
      simp [CompositeHandler.remove, hr, Leaves.handler]
    refine ⟨hnodup, hi.started, fun j => ?_, ?_⟩
    · rw [hlog, live]
      by_cases hj : i = j
      · simp [hj, CompositeHandler.remove, hi.nodup.mem_erase_iff]
      · rw [if_neg hj, hi.live_iff]
        simp [CompositeHandler.remove, hi.nodup.mem_erase_iff, Ne.symm hj]
    · rw [hlog]
      exact ⟨(hi.live_iff i).mpr ⟨hr, hmem⟩, hi.sound⟩

theorem CompositeInv.stop (hi : CompositeInv c) (hs : c.started = true) : CompositeInv (c.stop b) := by
  have hr : c.running = true := hi.started ▸ hs
  have hlog : (c.stop b).world.2 = stopsOf c.handlers ++ c.world.2 := (runs_leaves b c.handlers).stopped c.world
  refine ⟨hi.nodup, rfl, fun i => ?_, ?_⟩
  · have hnl : live i (stopsOf c.handlers ++ c.world.2) = false := by
      rw [live_stopsOf]
      by_cases hmem : i ∈ c.handlers
      · simp [hmem]
      · simpa [hmem] using (hi.live_iff i).not.mpr fun h => hmem h.2
    rw [hlog, hnl]
    simp [CompositeHandler.stop]
  · rw [hlog]
    exact sound_stopsOf hi.nodup (fun i hmem => (hi.live_iff i).mpr ⟨hr, hmem⟩) hi.sound

theorem CompositeInv.step (hi : CompositeInv c) (hok : AddsStart b c a) (he : c.step b a = some c') :
    CompositeInv c' := by
  cases a <;> simp only [CompositeHandler.step] at he <;> split at he <;> cases he
  · exact hi.start (by simpa using ‹¬ c.started = true›)
  · exact hi.update ‹_›
  · exact hi.add ‹_› hok
  · exact hi.remove ‹_›
  · exact hi.stop ‹_›

theorem CompositeInv.reach {state : σ} (h : (CompositeHandler.lts b state).Reach (AddsStart b) c) :
    CompositeInv c := by
  refine h.invariant ⟨List.nodup_nil, rfl, fun i => ?_, trivial⟩ fun hi hok he => hi.step hok he
  simp [CompositeHandler.lts, live]

/-- In the runs in which every handler that is added to the running composite returns `true`
from `Start`: a handler gets `Update` and `Stop` only while it is live, and it was stopped
once for each `Start` that returned `true` when it is removed or the composite is stopped. -/
theorem children_live {state : σ} (h : (CompositeHandler.lts b state).Reach (AddsStart b) c) (i : ι) :
    (∀ later earlier e, c.world.2 = later ++ e :: earlier → e = .update i ∨ e = .stop i →
      live i earlier = true) ∧
    (i ∉ c.handlers ∨ c.started = false → c.world.2.count (.start i true) = c.world.2.count (.stop i)) := by
  have hi := CompositeInv.reach h
  refine ⟨fun later earlier e heq he => ?_, fun hnot => ?_⟩
  · exact live_of_sound (heq ▸ hi.sound) he
  · have hl : live i c.world.2 = false := by
      rw [← Bool.not_eq_true, hi.live_iff, ← hi.started]
      rintro ⟨hs, hmem⟩
      rcases hnot with hnot | hnot
      · exact hnot hmem
      · simp [hnot] at hs
    simpa [hl] using count_stop_of_sound (i := i) hi.sound

end Composite

instance [DecidableEq ι] (b : Leaves ι σ) (c : CompositeHandler ι σ) (a : CompositeAction ι) :
    Decidable (AddsStart b c a) :=
  match a with
  | .add i => inferInstanceAs (Decidable (c.running = true → (b.start i c.world.1).1 = true))
  | .start | .update | .remove _ | .stop => .isTrue trivial

/-- Handlers of which `false` fails to start. -/
def startsTrue : Leaves Bool Unit where
  start i _ := (i, ())
  update _ _ := ()
  stop _ _ := ()

/-- A handler is added to a running composite, updated and removed again. -/
theorem children_live_removed : ∃ c, (CompositeHandler.lts startsTrue ()).Reach (AddsStart startsTrue) c ∧
    c.world.2 = [.stop true, .update true, .start true true] ∧
    live true [.start true true] = true ∧
    c.world.2.count (.start true true) = c.world.2.count (.stop true) := by
  obtain ⟨c, hc, hq⟩ := Lts.Reach.of_run (CompositeHandler.lts startsTrue ()) (AddsStart startsTrue)
    [.start, .add true, .update, .remove true]
    (fun c => c.handlers = [] ∧ c.world.2 = [.stop true, .update true, .start true true]) (by decide +kernel)
  obtain ⟨hh, hlog⟩ := of_decide_eq_true hq
  obtain ⟨hlive, hcount⟩ := children_live hc true
  exact ⟨c, hc, hlog, hlive [.stop true] _ _ hlog (.inl rfl), hcount (.inl (by simp [hh]))⟩

/-- A handler fails to start when it is added, and gets `Update` and `Stop`. -/
theorem children_not_live : ∃ c, (CompositeHandler.lts startsTrue ()).Reach Lts.Any c ∧
    c.world.2 = [.stop false, .update false, .start false false] ∧
    live false [.start false false] = false ∧ live false [.update false, .start false false] = false := by
  obtain ⟨c, hc, hq⟩ := Lts.Reach.of_run (CompositeHandler.lts startsTrue ()) Lts.Any
    [.start, .add false, .update, .stop]
    (fun c => c.world.2 = [.stop false, .update false, .start false false]) (by decide +kernel)
  exact ⟨c, hc, of_decide_eq_true hq, rfl, rfl⟩

end TX.RunLoop
