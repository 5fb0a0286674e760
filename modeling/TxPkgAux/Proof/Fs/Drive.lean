import TxPkgAux.Impl.Fs.Drive

/-!
# Reading what was sized

`GetSize` of an overlay goes on past a directory, `ReadAllTo` does not. What both return is
said by what the path names in the drives, one after the other (`found`): `getSize_found` and
`readAllTo_found`. `readAllTo_sized_iff` compares them.
-/

namespace TX.Fs

/-- The contents of a file. -/
def Node.content? : Node → Option (List UInt8)
  | .file content => some content
  | .directory => none

/-- What a stream on it reads. -/
def Node.stream : Node → List UInt8
  | .file content => content
  | .directory => []

/-- An operation that succeeds where there is a `hit`, and then returns `out` of it. Where it
fails it leaves its argument `s` alone. -/
structure Yields {α β σ : Type} (hit : Option β) (out : β → α × σ) (s : σ)
    (r : Except ErrorCode α × σ) : Prop where
  of_some : ∀ b, hit = some b → r = (.ok (out b).1, (out b).2)
  of_none : hit = none → ∃ e, r = (.error e, s)

/-! ## One drive -/

namespace NativeDrive

variable {fs : FileSystem} {d : NativeDrive} {path : Path}

/-- What the path names in a drive. -/
def nodeAt (fs : FileSystem) (d : NativeDrive) (path : Path) : Option Node :=
  match d.getNativePath fs path with
  | .ok nativePath => fs.status nativePath
  | .error _ => none

theorem getNativePath_exists {r : Path} (h : d.getNativePath fs path = .ok r) :
    fs.pathExists r = true := by
  rw [getNativePath] at h
  split at h
  · split at h
    · cases h
      assumption
    · cases h
  · split at h
    · rename_i hfind
      cases h
      exact List.find?_some hfind
    · cases h

/-- A native path names something. -/
theorem getNativePath_cases (fs : FileSystem) (d : NativeDrive) (path : Path) :
    (∃ e, d.getNativePath fs path = .error e ∧ d.nodeAt fs path = none) ∨
      ∃ r node, d.getNativePath fs path = .ok r ∧ fs.status r = some node ∧
        d.nodeAt fs path = some node := by
  cases h : d.getNativePath fs path with
  | error e => exact .inl ⟨e, rfl, by rw [nodeAt, h]⟩
  | ok r =>
    obtain ⟨node, hnode⟩ := Option.isSome_iff_exists.mp (getNativePath_exists h)
    exact .inr ⟨r, node, rfl, hnode, by rw [nodeAt, h]; exact hnode⟩

theorem getSize_yields (fs : FileSystem) (d : NativeDrive) (path : Path) :
    Yields ((d.nodeAt fs path).bind Node.content?) (fun content => (content.length, ())) ()
      (d.getSize fs path, ()) := by
  obtain ⟨e, hp, hn⟩ | ⟨r, node, hp, hs, hn⟩ := getNativePath_cases fs d path
  · rw [hn, show d.getSize fs path = .error e by rw [getSize, hp]; rfl]
    exact ⟨nofun, fun _ => ⟨e, rfl⟩⟩
  · rw [hn, show d.getSize fs path = fs.fileSize r by rw [getSize, hp]; rfl, FileSystem.fileSize, hs]
    cases node with
    | file content =>
      refine ⟨?_, nofun⟩
      rintro b ⟨⟩
      rfl
    | directory => exact ⟨nofun, fun _ => ⟨_, rfl⟩⟩

theorem readAllTo_yields (fs : FileSystem) (d : NativeDrive) (path : Path) (buf : List UInt8) :
    Yields (d.nodeAt fs path) (fun node => readInto node.stream buf) buf (d.readAllTo fs path buf) := by
  obtain ⟨e, hp, hn⟩ | ⟨r, node, hp, hs, hn⟩ := getNativePath_cases fs d path
  · rw [hn, readAllTo, hp]
    exact ⟨nofun, fun _ => ⟨e, rfl⟩⟩
  · have hopen : fs.ifstream r = some node.stream := by
      rw [FileSystem.ifstream, hs]
      cases node <;> rfl
    simp only [hn, readAllTo, hp, hopen]
    refine ⟨?_, nofun⟩
    rintro b ⟨⟩
    rfl

end NativeDrive

/-! ## The overlay -/

namespace OverlayDrive

variable (fs : FileSystem) (path : Path) (drives : List (Option NativeDrive))

/-- What the path names in the drives, as far as it names something. -/
def found : List Node :=
  drives.filterMap fun d => d.bind fun d => d.nodeAt fs path

/-- The file whose size is reported: it is in the first drive whose `GetSize` succeeds. -/
def reported : Option (List UInt8) :=
  drives.findSome? fun d => d.bind fun d =>
    match d.getSize fs path with
    | .ok _ => (d.nodeAt fs path).bind Node.content?
    | .error _ => none

theorem reported_eq : reported fs path drives = ((found fs path drives).filterMap Node.content?).head? := by
  rw [found, List.filterMap_filterMap, List.head?_filterMap, reported]
  congr 1
  funext d
  cases d with
  | none => rfl
  | some d =>
    have h := NativeDrive.getSize_yields fs d path
    simp only [Option.bind_some]
    cases hc : (d.nodeAt fs path).bind Node.content? with
    | none => cases d.getSize fs path <;> rfl
    | some content => rw [(Prod.mk.inj (h.of_some content hc)).1]

/-- The loop of an overlay returns what the first drive with a hit returns. -/
theorem firstOf_yields {α β σ : Type} (op : Drive → σ → Except ErrorCode α × σ) {s : σ}
    {hit : NativeDrive → Option β} {out : β → α × σ}
    (h : ∀ d, Yields (hit d) out s (op (d.drive fs) s)) (lastError : ErrorCode) :
    Yields (drives.findSome? (·.bind hit)) out s (firstOf op (ofNative fs drives).drives lastError s) := by
  induction drives generalizing lastError with
  | nil => exact ⟨nofun, fun _ => ⟨lastError, rfl⟩⟩
  | cons d drives ih =>
    cases d with
    | none => exact ih lastError
    | some d =>
      simp only [ofNative, List.map_cons, Option.map_some, firstOf]
      rw [List.findSome?_cons, Option.bind_some]
      cases hhit : hit d with
      | some b =>
        rw [(h d).of_some b hhit]
        refine ⟨?_, nofun⟩
        rintro b' ⟨⟩
        rfl
      | none =>
        obtain ⟨e, he⟩ := (h d).of_none hhit
        rw [he]
        exact ih e

/-- `GetSize` reports the size of the first file. -/
theorem getSize_found :
    Yields (reported fs path drives) (fun content => (content.length, ())) ()
      ((ofNative fs drives).getSize path, ()) := by
  have h := firstOf_yields fs drives (fun d _ => (d.getSize path, ()))
    (fun d => NativeDrive.getSize_yields fs d path) .noSuchFileOrDirectory
  rw [reported_eq, found, List.filterMap_filterMap, List.head?_filterMap]
  simp only [Option.bind_assoc]
  exact h

/-- `ReadAllTo` reads from the first thing there is. -/
theorem readAllTo_found (buf : List UInt8) :
    Yields (found fs path drives).head? (fun node => readInto node.stream buf) buf
      ((ofNative fs drives).readAllTo path buf) := by
  rw [found, List.head?_filterMap]
  exact firstOf_yields fs drives (fun d buf => d.readAllTo path buf)
    (fun d => NativeDrive.readAllTo_yields fs d path buf) .noSuchFileOrDirectory

theorem readInto_full {stream buf : List UInt8} (h : buf.length = stream.length) :
    readInto stream buf = (stream.length, stream) := by
  rw [readInto, h, Nat.min_self, List.take_length, List.drop_eq_nil_of_le (Nat.le_of_eq h), List.append_nil]

/-- A buffer of the reported size is filled with the file whose size was reported, for every
size, if and only if a directory does not hide a file that has contents: where the first drive
that has the path has a directory there, the first file behind it, if there is one, is empty. -/
theorem readAllTo_sized_iff :
    (∀ n buf, (ofNative fs drives).getSize path = .ok n → buf.length = n →
      ∃ content, reported fs path drives = some content ∧
        (ofNative fs drives).readAllTo path buf = (.ok n, content)) ↔
    ((found fs path drives).head? = some .directory →
      ∀ content, ((found fs path drives).filterMap Node.content?).head? = some content → content = []) := by
  have hsize := getSize_found fs path drives
  constructor
  · intro h hdir content hc
    rw [← reported_eq] at hc
    have hn := (Prod.mk.inj (hsize.of_some content hc)).1
    obtain ⟨content', hc', hread⟩ := h content.length content hn rfl
    -- the stream on the directory is at its end
    have hlen := (readAllTo_found fs path drives content).of_some .directory hdir
    rw [hread, readInto, Node.stream, List.length_nil, Nat.min_zero] at hlen
    have hzero : content.length = 0 := by
      injection hlen with h1 _
      injection h1
    exact List.eq_nil_of_length_eq_zero hzero
  · intro h n buf hn hlen
    cases hc : reported fs path drives with
    | none =>
      obtain ⟨e, he⟩ := hsize.of_none hc
      rw [hn] at he
      cases he
    | some content =>
      refine ⟨content, rfl, ?_⟩
      have hs := (Prod.mk.inj (hsize.of_some content hc)).1
      rw [hn] at hs
      obtain rfl : n = content.length := by injection hs
      rw [reported_eq] at hc
      cases hfound : found fs path drives with
      | nil =>
        rw [hfound] at hc
        cases hc
      | cons node rest =>
        have hhead : (found fs path drives).head? = some node := by rw [hfound]; rfl
        rw [(readAllTo_found fs path drives buf).of_some node hhead]
        have hstream : node.stream = content := by
          cases node with
          | file content' =>
            rw [hfound] at hc
            exact Option.some.inj hc
          | directory => exact (h hhead content hc).symm
        rw [hstream, readInto_full hlen]

/-- The directory `/a/f` hides the file `/b/f` from `ReadAllTo`, and not from `GetSize`. -/
theorem readAllTo_hidden :
    let fs : FileSystem := ⟨['/'], fun p =>
      if p = ['/', 'a', '/', 'f'] then some .directory else if p = ['/', 'b', '/', 'f'] then some (.file [3])
      else none⟩
    let drives := [some ⟨[['/', 'a']]⟩, some ⟨[['/', 'b']]⟩]
    (ofNative fs drives).getSize ['f'] = .ok 1 ∧ (ofNative fs drives).readAllTo ['f'] [0] = (.ok 0, [0]) ∧
      ¬ ∀ n buf, (ofNative fs drives).getSize ['f'] = .ok n → buf.length = n →
        ∃ content, (ofNative fs drives).readAllTo ['f'] buf = (.ok n, content) := by
  intro fs drives
  have hsize : (ofNative fs drives).getSize ['f'] = .ok 1 := by rfl
  have hread : (ofNative fs drives).readAllTo ['f'] [0] = (.ok 0, [0]) := by rfl
  refine ⟨hsize, hread, ?_⟩
  intro h
  obtain ⟨content, hc⟩ := h 1 [0] hsize rfl
  rw [hread] at hc
  injection hc with hc
  injection hc with hc
  exact absurd hc (by decide)

end OverlayDrive

end TX.Fs
