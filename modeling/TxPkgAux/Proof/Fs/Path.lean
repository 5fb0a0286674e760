import TxPkgAux.Impl.Fs.Path

/-!
# The views of a path

Every path is one of three kinds (`shape`): separators only, one component, or a component
after a separator, the last two with separators at the end. The views are computed on each
kind once (`filenameView_single`, `parentPathView_nested` and so on); the results below use
nothing else of them:

* `views_agree_iff`: where the views are those of `std::filesystem::path`;
* `walk_components`: going up by `parent_path_view` shows the components one by one.
-/

namespace TX.Fs

open StringView

namespace Path

/-! ## The kinds of paths -/

/-- Separators only, or nothing. -/
def Separators (s : Path) : Prop := ∀ c ∈ s, c = '/'

/-- A name between separators. -/
structure Name (f : Path) : Prop where
  ne_nil : f ≠ []
  no_separator : '/' ∉ f

inductive Shape : Path → Prop where
  | separators {s : Path} (hs : Separators s) : Shape s
  | single {f s : Path} (hf : Name f) (hs : Separators s) : Shape (f ++ s)
  | nested (d : Path) {f s : Path} (hf : Name f) (hs : Separators s) : Shape (d ++ '/' :: (f ++ s))

theorem shape (p : Path) : Shape p := by
  have hs : Separators (p.rtakeWhile (· = '/')) := by
    intro c hc
    exact of_decide_eq_true (List.mem_rtakeWhile_imp (p := (· = '/')) hc)
  rw [← List.rdropWhile_append_rtakeWhile (p := (· = '/')) (l := p)]
  have hlast := List.rdropWhile_last_not (fun c => decide (c = '/')) p
  obtain hq | ⟨d, f, hf, hq⟩ := cut_last '/' (p.rdropWhile (· = '/'))
  · obtain he | hne := eq_or_ne (p.rdropWhile (· = '/')) []
    · rw [he]
      exact .separators hs
    · exact .single ⟨hne, hq⟩ hs
  · have hne : f ≠ [] := by
      rintro rfl
      have := hlast (by simp [hq])
      simp [hq] at this
    rw [hq, List.append_assoc]
    exact .nested d ⟨hne, hf⟩ hs

theorem Name.getLast_ne {f : Path} (hf : Name f) : f.getLast hf.ne_nil ≠ '/' :=
  fun he => hf.no_separator (he ▸ List.getLast_mem hf.ne_nil)

/-! ## Trailing separators -/

theorem trimEnd_separators {sv : Path} {m k : Nat} (hm : 1 ≤ m)
    (h : ∀ i, m ≤ i → i < m + k → sv[i]? = some '/') : trimEnd sv (m + k) = trimEnd sv m := by
  induction k with
  | zero => rfl
  | succ k ih =>
    obtain ⟨m, rfl⟩ : ∃ n, m = n + 1 := ⟨m - 1, by omega⟩
    rw [show m + 1 + (k + 1) = m + k + 2 by omega, trimEnd, if_pos (h _ (by omega) (by omega)),
      show m + k + 1 = m + 1 + k by omega]
    exact ih fun i hi hlt => h i hi (by omega)

theorem trimEnd_stop {sv : Path} {m : Nat} (h : sv[m]? ≠ some '/') : trimEnd sv (m + 1) = m + 1 := by
  cases m with
  | zero => rfl
  | succ m => rw [trimEnd, if_neg h]

theorem getElem?_separators {q s : Path} (hs : Separators s) {i : Nat} (hi : q.length ≤ i)
    (hlt : i < q.length + s.length) : (q ++ s)[i]? = some '/' := by
  rw [List.getElem?_append_right hi, List.getElem?_eq_getElem (by omega)]
  exact congrArg some (hs _ (List.getElem_mem _))

theorem trimEnd_append {q f s : Path} (hf : Name f) (hs : Separators s) :
    trimEnd (q ++ (f ++ s)) (q ++ (f ++ s)).length = q.length + f.length := by
  have hpos : 0 < f.length := List.length_pos_iff.mpr hf.ne_nil
  rw [← List.append_assoc, List.length_append, trimEnd_separators (by simp; omega)
    (fun i hi hlt => getElem?_separators hs hi hlt), List.length_append]
  obtain ⟨m, hm⟩ : ∃ m, q.length + f.length = m + 1 := ⟨q.length + f.length - 1, by omega⟩
  rw [hm]
  apply trimEnd_stop
  rw [List.append_assoc]
  exact getElem?_middle hf.no_separator (by omega) (by omega)

theorem trimEnd_of_separators {s : Path} (hs : Separators s) (hne : s ≠ []) :
    trimEnd s s.length = 1 := by
  have hpos : 0 < s.length := List.length_pos_iff.mpr hne
  have h : trimEnd s (1 + (s.length - 1)) = trimEnd s 1 := by
    apply trimEnd_separators (Nat.le_refl 1)
    intro i _ hlt
    exact getElem?_separators (q := []) hs (Nat.zero_le i) (by simp only [List.length_nil]; omega)
  rwa [Nat.add_sub_of_le hpos] at h

/-! ## The views of each kind -/

theorem isEmpty_single {f s : Path} (hf : Name f) : (f ++ s).isEmpty = false := by
  simp [hf.ne_nil]

theorem filenameView_separators {s : Path} (hs : Separators s) : filenameView s = some [] := by
  cases s with
  | nil => rfl
  | cons c s =>
    obtain rfl : c = '/' := hs c List.mem_cons_self
    rw [filenameView, trimEnd_of_separators hs (List.cons_ne_nil _ _)]
    simp [rfind, substr]

theorem filenameView_single {f s : Path} (hf : Name f) (hs : Separators s) :
    filenameView (f ++ s) = some f := by
  have hpos : 0 < f.length := List.length_pos_iff.mpr hf.ne_nil
  have ht : trimEnd (f ++ s) (f ++ s).length = f.length := by simpa using trimEnd_append (q := []) hf hs
  simp only [filenameView, isEmpty_single hf, ht]
  rw [rfind_first hf.no_separator (by omega)]
  exact substr_middle [] f s

theorem trimEnd_nested (d : Path) {f s : Path} (hf : Name f) (hs : Separators s) :
    trimEnd (d ++ '/' :: (f ++ s)) (d ++ '/' :: (f ++ s)).length = d.length + f.length + 1 := by
  have h := trimEnd_append (q := d ++ ['/']) hf hs
  rw [List.append_assoc, List.singleton_append] at h
  rw [h, List.length_append, List.length_singleton]
  omega

theorem filenameView_nested (d : Path) {f s : Path} (hf : Name f) (hs : Separators s) :
    filenameView (d ++ '/' :: (f ++ s)) = some f := by
  have hd := substr_middle (d ++ ['/']) f s
  rw [List.append_assoc, List.singleton_append, List.length_append, List.length_singleton] at hd
  simp only [filenameView, trimEnd_nested d hf hs, Nat.add_sub_cancel]
  rw [if_neg (by simp), rfind_last hf.no_separator]
  show substr _ (d.length + 1) (d.length + f.length + 1 - d.length - 1) = some f
  rw [show d.length + f.length + 1 - d.length - 1 = f.length by omega]
  exact hd

theorem parentPathView_separators {s : Path} (hs : Separators s) :
    parentPathView s = some (if s.isEmpty then [] else ['/']) := by
  cases s with
  | nil => rfl
  | cons c s =>
    obtain rfl : c = '/' := hs c List.mem_cons_self
    rw [parentPathView, trimEnd_of_separators hs (List.cons_ne_nil _ _)]
    simp [rfind, substr]

theorem parentPathView_single {f s : Path} (hf : Name f) (hs : Separators s) :
    parentPathView (f ++ s) = some [] := by
  have hpos : 0 < f.length := List.length_pos_iff.mpr hf.ne_nil
  have ht : trimEnd (f ++ s) (f ++ s).length = f.length := by simpa using trimEnd_append (q := []) hf hs
  rw [parentPathView, isEmpty_single hf, ht, rfind_first hf.no_separator (by omega)]
  rfl

theorem parentPathView_nested (d : Path) {f s : Path} (hf : Name f) (hs : Separators s) :
    parentPathView (d ++ '/' :: (f ++ s)) = some (if d.isEmpty then ['/'] else d) := by
  rw [parentPathView, if_neg (by simp), trimEnd_nested d hf hs, Nat.add_sub_cancel, rfind_last hf.no_separator]
  cases d with
  | nil => simp [substr]
  | cons c d => simpa using substr_middle [] (c :: d) ('/' :: (f ++ s))

/-! ## Stem and extension -/

theorem splitsAt_none {fname : Path} (h : '.' ∉ fname) : StdPath.splitsAt fname = none := by
  simp only [StdPath.splitsAt, rdropWhile_none h, List.length_nil]
  exact if_pos (.inr (Nat.zero_le 1))

theorem splitsAt_last {s t : Path} (ht : '.' ∉ t) :
    StdPath.splitsAt (s ++ '.' :: t) =
      if s ++ '.' :: t = ['.', '.'] ∨ s = [] then none else some s.length := by
  have hs : (s ++ ['.']).length ≤ 1 ↔ s = [] := by simp
  simp only [StdPath.splitsAt, rdropWhile_last ht, hs]
  simp

theorem splitsAt_le {fname : Path} {n : Nat} (h : StdPath.splitsAt fname = some n) :
    n ≤ fname.length := by
  obtain hno | ⟨s, t, ht, rfl⟩ := cut_last '.' fname
  · rw [splitsAt_none hno] at h
    cases h
  · rw [splitsAt_last ht] at h
    obtain ⟨-, hn⟩ := (ite_eq_iff.mp h).resolve_left (by simp)
    cases hn
    simp

theorem rfind_dot {s t : Path} (ht : '.' ∉ t) :
    rfind (s ++ '.' :: t) '.' ((s ++ '.' :: t).length - 1) = some s.length := by
  have h := rfind_last (d := s) (r := []) ht
  rwa [List.append_nil, show s.length + t.length = (s ++ '.' :: t).length - 1 by simp] at h

/-- The test that `stem_view` and `extension_view` make finds the dot that starts the
extension. -/
theorem dot_eq (fname : Path) (whole : Option Path) (cut : Nat → Option Path) :
    (if fname.isEmpty ∨ fname = ['.'] ∨ fname = ['.', '.'] then whole
      else match rfind fname '.' (fname.length - 1) with
        | none | some 0 => whole
        | some dot => cut dot) =
      match StdPath.splitsAt fname with
        | none => whole
        | some n => cut n := by
  obtain hno | ⟨s, t, ht, rfl⟩ := cut_last '.' fname
  · rw [splitsAt_none hno, rfind_eq_none fun i _ he => hno (List.mem_of_getElem? he)]
    exact ite_self _
  · rw [splitsAt_last ht, rfind_dot ht]
    cases s with
    | nil => simp
    | cons c s =>
      by_cases hd : c :: s ++ '.' :: t = ['.', '.']
      · rw [if_pos (.inr (.inr hd)), if_pos (.inl hd)]
      · have hne : c :: s ++ '.' :: t ≠ ['.'] := by simp
        rw [if_neg (not_or.mpr ⟨by simp, not_or.mpr ⟨hne, hd⟩⟩),
          if_neg (not_or.mpr ⟨hd, List.cons_ne_nil _ _⟩)]
        rfl

theorem stemView_eq {p fname : Path} (h : filenameView p = some fname) :
    stemView p = some (match StdPath.splitsAt fname with
      | none => fname
      | some n => fname.take n) := by
  simp only [stemView, h, Option.bind_eq_bind, Option.bind_some]
  refine (dot_eq fname (some fname) (substr fname 0)).trans ?_
  cases StdPath.splitsAt fname with
  | none => rfl
  | some n => rfl

theorem extensionView_eq {p fname : Path} (h : filenameView p = some fname) :
    extensionView p = some (match StdPath.splitsAt fname with
      | none => []
      | some n => fname.drop n) := by
  simp only [extensionView, h, Option.bind_eq_bind, Option.bind_some]
  refine (dot_eq fname (some []) (fun dot => substr fname dot fname.length)).trans ?_
  cases hs : StdPath.splitsAt fname with
  | none => rfl
  | some n =>
    show substr fname n fname.length = some (fname.drop n)
    rw [substr, if_pos (splitsAt_le hs), List.take_of_length_le]
    rw [List.length_drop]
    exact Nat.sub_le _ _

/-! ## The components -/

theorem components_separators {s : Path} (hs : Separators s) : StdPath.components s = [] := by
  rw [StdPath.components]
  induction s with
  | nil => rfl
  | cons c s ih =>
    obtain rfl : c = '/' := hs c List.mem_cons_self
    rw [← List.nil_append ('/' :: s), List.splitOn_append_cons_self, List.filter_append,
      ih fun c hc => hs c (List.mem_cons_of_mem _ hc)]
    rfl

theorem components_append (d q : Path) :
    StdPath.components (d ++ '/' :: q) = StdPath.components d ++ StdPath.components q := by
  rw [StdPath.components, List.splitOn_append_cons_self, List.filter_append]
  rfl

theorem components_name {f : Path} (hf : Name f) : StdPath.components f = [f] := by
  rw [StdPath.components, List.splitOn_eq_singleton hf.no_separator]
  exact List.filter_cons_of_pos (decide_eq_true hf.ne_nil)

theorem components_single {f s : Path} (hf : Name f) (hs : Separators s) :
    StdPath.components (f ++ s) = [f] := by
  cases s with
  | nil => rw [List.append_nil, components_name hf]
  | cons c s =>
    obtain rfl : c = '/' := hs c List.mem_cons_self
    rw [components_append, components_name hf, components_separators fun c hc => hs c (List.mem_cons_of_mem _ hc)]
    rfl

theorem components_nested (d : Path) {f s : Path} (hf : Name f) (hs : Separators s) :
    StdPath.components (d ++ '/' :: (f ++ s)) = StdPath.components d ++ [f] := by
  rw [components_append, components_single hf hs]

/-! ## The views and `std::filesystem::path` -/

theorem last_component {p : Path} (hne : p ≠ []) (hlast : p.getLast? ≠ some '/') :
    Name p ∨ ∃ d f, Name f ∧ p = d ++ '/' :: f := by
  obtain hno | ⟨d, f, hf, rfl⟩ := cut_last '/' p
  · exact .inl ⟨hne, hno⟩
  · refine .inr ⟨d, f, ⟨?_, hf⟩, rfl⟩
    rintro rfl
    exact hlast (by simp)

theorem Separators.nil : Separators [] := fun _ hc => absurd hc List.not_mem_nil

theorem Name.not_all {f : Path} (hf : Name f) (d : Path) : (d ++ f).all (· = '/') = false := by
  rw [List.all_eq_false]
  refine ⟨f.getLast hf.ne_nil, List.mem_append_right _ (List.getLast_mem _), ?_⟩
  exact fun he => hf.getLast_ne (of_decide_eq_true he)

theorem parentPath_name {f : Path} (hf : Name f) : StdPath.parentPath f = [] := by
  have hall : f.all (· = '/') = false := hf.not_all []
  simp only [StdPath.parentPath, rdropWhile_none hf.no_separator, hall]
  rfl

theorem parentPath_nested (d : Path) {f : Path} (hf : Name f) :
    StdPath.parentPath (d ++ '/' :: f) =
      if (d.rdropWhile (· = '/')).isEmpty then ['/'] else d.rdropWhile (· = '/') := by
  have hall : (d ++ '/' :: f).all (· = '/') = false := by
    simpa using hf.not_all (d ++ ['/'])
  have hhead : (d ++ ['/']).rdropWhile (· = '/') = d.rdropWhile (· = '/') := by
    rw [List.rdropWhile_concat, if_pos (decide_eq_true rfl)]
  simp only [StdPath.parentPath, rdropWhile_last hf.no_separator, hall, hhead]
  simp

/-- The parent of a nested component is right unless two separators stand before it that are
not all of the path's beginning. -/
theorem parent_right_iff (d : Path) :
    (if d.isEmpty then ['/'] else d) =
        (if (d.rdropWhile (· = '/')).isEmpty then ['/'] else d.rdropWhile (· = '/')) ↔
      ¬ ∃ q, q ≠ [] ∧ d = q ++ ['/'] := by
  induction d using List.reverseRecOn with
  | nil => simp
  | append_singleton d c _ =>
    by_cases hc : c = '/'
    · subst hc
      rw [List.rdropWhile_concat, if_pos (decide_eq_true rfl)]
      have hle : (d.rdropWhile (· = '/')).length ≤ d.length := (List.rdropWhile_prefix _ d).length_le
      constructor
      · rintro he ⟨q, hq, hd⟩
        obtain rfl : d = q := List.append_cancel_right hd
        have hpos : 0 < d.length := List.length_pos_iff.mpr hq
        rw [if_neg (by simp)] at he
        have hlen := congrArg List.length he
        rw [List.length_append, List.length_singleton] at hlen
        split at hlen
        · rw [List.length_singleton] at hlen
          omega
        · omega
      · intro hno
        obtain rfl : d = [] := by_contra fun hd => hno ⟨d, hd, rfl⟩
        rfl
    · have hd : (d ++ [c]).rdropWhile (· = '/') = d ++ [c] := by
        rw [List.rdropWhile_concat, if_neg (by simpa using hc)]
      refine iff_of_true (by rw [hd]) ?_
      rintro ⟨q, -, hq⟩
      exact hc (List.singleton_inj.mp (List.append_inj_right' hq rfl))

/-- On a path that does not end in a separator, the views are those of
`std::filesystem::path` if and only if the path is not some `q//f`, `f` its file name and `q`
not empty. -/
theorem views_agree_iff (p : Path) (hne : p ≠ []) (hlast : p.getLast? ≠ some '/') :
    (filenameView p = some (StdPath.filename p) ∧ stemView p = some (StdPath.stem p) ∧
      extensionView p = some (StdPath.extension p) ∧
      parentPathView p = some (StdPath.parentPath p)) ↔
    ¬ ∃ q f, q ≠ [] ∧ '/' ∉ f ∧ p = q ++ '/' :: '/' :: f := by
  -- the file name is right on every path, and so are the stem and the extension
  have hname : filenameView p = some (StdPath.filename p) → stemView p = some (StdPath.stem p) ∧
      extensionView p = some (StdPath.extension p) := fun h => ⟨stemView_eq h, extensionView_eq h⟩
  obtain hf | ⟨d, f, hf, rfl⟩ := last_component hne hlast
  · have hfile := filenameView_single hf .nil
    have hparent := parentPathView_single hf .nil
    rw [List.append_nil] at hfile hparent
    have hstd : filenameView p = some (StdPath.filename p) := by
      rw [hfile, StdPath.filename, rtakeWhile_none hf.no_separator]
    refine iff_of_true ⟨hstd, (hname hstd).1, (hname hstd).2, ?_⟩ ?_
    · rw [hparent, parentPath_name hf]
    · rintro ⟨q, g, -, -, rfl⟩
      exact hf.no_separator (by simp)
  · have hfile := filenameView_nested d hf .nil
    have hparent := parentPathView_nested d hf .nil
    rw [List.append_nil] at hfile hparent
    have hstd : filenameView (d ++ '/' :: f) = some (StdPath.filename (d ++ '/' :: f)) := by
      rw [hfile, StdPath.filename, rtakeWhile_last hf.no_separator]
    have hcond : (∃ q g, q ≠ [] ∧ '/' ∉ g ∧ d ++ '/' :: f = q ++ '/' :: '/' :: g) ↔
        ∃ q, q ≠ [] ∧ d = q ++ ['/'] := by
      constructor
      · rintro ⟨q, g, hq, hg, he⟩
        refine ⟨q, hq, cut_last_unique hf.no_separator hg ?_⟩
        rw [he, List.append_assoc, List.singleton_append]
      · rintro ⟨q, hq, rfl⟩
        exact ⟨q, f, hq, hf.no_separator, by simp⟩
    rw [hcond, ← parent_right_iff d, hparent, parentPath_nested d hf, Option.some_inj]
    exact ⟨fun h => h.2.2.2, fun h => ⟨hstd, (hname hstd).1, (hname hstd).2, h⟩⟩

/-- Two separators at the root are no exception. -/
theorem views_agree_root :
    parentPathView ['/', '/', 'a', '.', 'b'] = some ['/'] ∧
      stemView ['/', '/', 'a', '.', 'b'] = some ['a'] := by
  have h := (views_agree_iff ['/', '/', 'a', '.', 'b'] (by decide) (by decide)).mpr (by
    rintro ⟨q, f, hq, hf, he⟩
    obtain _ | ⟨c, _ | ⟨c', q⟩⟩ := q
    · exact hq rfl
    · simp at he
    · simp only [List.cons_append, List.cons.injEq] at he
      have hm : '/' ∈ ['a', '.', 'b'] := by rw [he.2.2]; simp
      exact absurd hm (by decide))
  exact ⟨h.2.2.2.trans (by decide), h.2.1.trans (by decide)⟩

/-- `a//b` has the parent `a`, and the view shows `a/`. -/
theorem parentPathView_repeated_separators :
    parentPathView ['a', '/', '/', 'b'] = some ['a', '/'] ∧
      StdPath.parentPath ['a', '/', '/', 'b'] = ['a'] ∧
      ¬ ∀ p : Path, p ≠ [] → p.getLast? ≠ some '/' → parentPathView p = some (StdPath.parentPath p) := by
  refine ⟨by decide, by decide, ?_⟩
  intro h
  exact absurd (h ['a', '/', '/', 'b'] (by decide) (by decide)) (by decide)

/-! ## Going up -/

theorem walk_end {p : Path} (hp : Separators p) {fuel : Nat} (hfuel : 0 < fuel) :
    walk fuel p = some ([], p) := by
  obtain ⟨n, rfl⟩ : ∃ n, fuel = n + 1 := ⟨fuel - 1, by omega⟩
  simp [walk, filenameView_separators hp]

theorem walk_up {p f q last : Path} {recorded : List Path} {fuel : Nat} (hf : Name f)
    (hname : filenameView p = some f) (hparent : parentPathView p = some q) (hlt : q.length < p.length)
    (hq : ∀ n > q.length, walk n q = some (recorded, last)) (hfuel : p.length < fuel) :
    walk fuel p = some (f :: recorded, last) := by
  obtain ⟨n, rfl⟩ : ∃ n, fuel = n + 1 := ⟨fuel - 1, by omega⟩
  simp [walk, hname, hparent, hf.ne_nil, hq n (by omega)]

/-- The loop over a path: the induction is on the length of the path, which falls with every
turn. -/
theorem walk_spec (p : Path) :
    ∃ last, (∀ fuel > p.length, walk fuel p = some ((StdPath.components p).reverse, last)) ∧
      (∀ f ∈ StdPath.components p, '/' ∉ f) ∧ Separators last ∧ (last ≠ [] ↔ p.head? = some '/') := by
  induction hn : p.length using Nat.strong_induction_on generalizing p with
  | _ n ih =>
    subst hn
    cases shape p with
    | separators hs =>
      refine ⟨p, ?_, ?_, hs, ?_⟩
      · intro fuel hfuel
        rw [components_separators hs]
        exact walk_end hs (by omega)
      · rw [components_separators hs]
        exact fun f hf => absurd hf List.not_mem_nil
      · cases p with
        | nil => simp
        | cons c p => simp [hs c List.mem_cons_self]
    | @single f s hf hs =>
      have hpos : 0 < f.length := List.length_pos_iff.mpr hf.ne_nil
      have hnil : Separators [] := fun c hc => absurd hc List.not_mem_nil
      refine ⟨[], ?_, ?_, hnil, ?_⟩
      · intro fuel hfuel
        rw [components_single hf hs]
        refine walk_up hf (filenameView_single hf hs) (parentPathView_single hf hs) ?_
          (fun n hn => walk_end hnil (by simpa using hn)) hfuel
        simp only [List.length_append, List.length_nil]
        omega
      · rw [components_single hf hs]
        intro g hg
        rw [List.mem_singleton.mp hg]
        exact hf.no_separator
      · have hhead : (f ++ s).head? ≠ some '/' := by
          rw [List.head?_append_of_ne_nil _ hf.ne_nil]
          exact fun he => hf.no_separator (List.mem_of_head? he)
        exact iff_of_false (fun h => h rfl) hhead
    | @nested d f s hf hs =>
      have hpos : 0 < f.length := List.length_pos_iff.mpr hf.ne_nil
      -- the parent, and what is the same in it
      obtain ⟨q, hq, hlt, hcomp, hhead⟩ : ∃ q, parentPathView (d ++ '/' :: (f ++ s)) = some q ∧
          q.length < (d ++ '/' :: (f ++ s)).length ∧ StdPath.components q = StdPath.components d ∧
          q.head? = (d ++ '/' :: (f ++ s)).head? := by
        refine ⟨_, parentPathView_nested d hf hs, ?_, ?_, ?_⟩
        all_goals cases d with
          | nil => first | rfl | simp; omega
          | cons c d => simp
      obtain ⟨last, hwalk, hnames, hlast, hroot⟩ := ih q.length hlt q rfl
      refine ⟨last, ?_, ?_, hlast, ?_⟩
      · intro fuel hfuel
        rw [components_nested d hf hs, List.reverse_append, ← hcomp]
        exact walk_up hf (filenameView_nested d hf hs) hq hlt hwalk hfuel
      · rw [components_nested d hf hs]
        intro g hg
        obtain hg | hg := List.mem_append.mp hg
        · exact hnames g (hcomp ▸ hg)
        · rw [List.mem_singleton.mp hg]
          exact hf.no_separator
      · rw [hroot, hhead]

theorem filenameView_some (p : Path) : ∃ fname, filenameView p = some fname := by
  cases shape p with
  | separators hs => exact ⟨_, filenameView_separators hs⟩
  | single hf hs => exact ⟨_, filenameView_single hf hs⟩
  | nested d hf hs => exact ⟨_, filenameView_nested d hf hs⟩

/-- Going up from any path records its components from last to first, and ends at separators
only, whose parent is the root if the path was absolute. The stem and the extension make up
the file name. -/
theorem walk_components (p : Path) :
    (∃ last, (∀ fuel > p.length, walk fuel p = some ((StdPath.components p).reverse, last)) ∧
      (∀ f ∈ (StdPath.components p).reverse, '/' ∉ f) ∧ (∀ c ∈ last, c = '/') ∧
      (parentPathView last = some ['/'] ↔ p ≠ [] ∧ p.head? = some '/')) ∧
    ∃ fname stem extension, filenameView p = some fname ∧ stemView p = some stem ∧
      extensionView p = some extension ∧ stem ++ extension = fname := by
  constructor
  · obtain ⟨last, hwalk, hnames, hlast, hroot⟩ := walk_spec p
    refine ⟨last, hwalk, fun f hf => hnames f (List.mem_reverse.mp hf), hlast, ?_⟩
    rw [parentPathView_separators hlast]
    have hp : p ≠ [] ∧ p.head? = some '/' ↔ last ≠ [] := by
      rw [hroot]
      exact and_iff_right_of_imp fun hh => List.ne_nil_of_mem (List.mem_of_head? hh)
    rw [hp]
    cases last with
    | nil => simp
    | cons c last => simp
  · obtain ⟨fname, hf⟩ := filenameView_some p
    refine ⟨fname, _, _, hf, stemView_eq hf, extensionView_eq hf, ?_⟩
    cases StdPath.splitsAt fname with
    | none => exact List.append_nil _
    | some n => exact List.take_append_drop n fname

end Path

end TX.Fs
