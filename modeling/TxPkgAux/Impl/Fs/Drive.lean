import TxPkgAux.Impl.Fs.Path

/-!
# Drives

`pkg/fs/Fs/{Drive,NativeDrive,OverlayDrive}.{h,cpp}` over a file system: what stands at each
absolute path, a regular file with its contents or a directory. A directory exists, has no
size, and opens as a stream that reads nothing.

A buffer is its bytes; reading returns it as it is afterwards.
-/

namespace TX.Fs

/-- What stands at a path. -/
inductive Node where
  | file (content : List UInt8)
  | directory
  deriving DecidableEq

/-- The `std::error_code`s. -/
inductive ErrorCode where
  | noSuchFileOrDirectory | isADirectory
  deriving DecidableEq

/-- The file system, and the directory that relative paths start from. -/
structure FileSystem where
  currentPath : Path
  nodes : Path → Option Node

namespace Path

/-- `is_absolute()`. -/
def isAbsolute (p : Path) : Bool := p.head? = some '/'

/-- `lhs / rhs`. -/
def join (lhs rhs : Path) : Path :=
  if rhs.isAbsolute then rhs
  else if lhs.isEmpty ∨ lhs.getLast? = some '/' then lhs ++ rhs
  else lhs ++ '/' :: rhs

end Path

namespace FileSystem

variable (fs : FileSystem)

/-- What the system finds at a path. -/
def status (p : Path) : Option Node :=
  if p.isEmpty then none else fs.nodes (fs.currentPath.join p)

/-- `fs::exists`. -/
def pathExists (p : Path) : Bool := (fs.status p).isSome

/-- `fs::file_size`. -/
def fileSize (p : Path) : Except ErrorCode Nat :=
  match fs.status p with
  | some (.file content) => .ok content.length
  | some .directory => .error .isADirectory
  | none => .error .noSuchFileOrDirectory

/-- An `std::ifstream` on the path, and what there is to read from it. `none` if it does not
open. -/
def ifstream (p : Path) : Option (List UInt8) :=
  match fs.status p with
  | some (.file content) => some content
  | some .directory => some []
  | none => none

end FileSystem

/-- `Drive`. -/
structure Drive where
  getNativePath : Path → Except ErrorCode Path
  getSize : Path → Except ErrorCode Nat
  readAllTo : Path → List UInt8 → Except ErrorCode Nat × List UInt8

/-- `file.read(buf.data(), buf.size())`: `gcount()`, and the buffer. -/
def readInto (stream buf : List UInt8) : Nat × List UInt8 :=
  (min buf.length stream.length, stream.take buf.length ++ buf.drop stream.length)

structure NativeDrive where
  prefixPaths : List Path

namespace NativeDrive

variable (fs : FileSystem) (d : NativeDrive)

def getNativePath (path : Path) : Except ErrorCode Path :=
  if path.isAbsolute then
    if fs.pathExists path then .ok path else .error .noSuchFileOrDirectory
  else
    match (d.prefixPaths.map (·.join path)).find? fs.pathExists with
    | some fullPath => .ok fullPath
    | none => .error .noSuchFileOrDirectory

def getSize (path : Path) : Except ErrorCode Nat := do
  let nativePath ← d.getNativePath fs path
  fs.fileSize nativePath

def readAllTo (path : Path) (buf : List UInt8) : Except ErrorCode Nat × List UInt8 :=
  match d.getNativePath fs path with
  | .error e => (.error e, buf)
  | .ok nativePath =>
    match fs.ifstream nativePath with
    | none => (.error .noSuchFileOrDirectory, buf)
    | some stream => (.ok (readInto stream buf).1, (readInto stream buf).2)

/-- The drive on a file system. -/
def drive : Drive where
  getNativePath := d.getNativePath fs
  getSize := d.getSize fs
  readAllTo := d.readAllTo fs

end NativeDrive

/-- The `shared_ptr`s to the drives; any of them may be null. -/
structure OverlayDrive where
  drives : List (Option Drive)

namespace OverlayDrive

/-- The loop of the operations of an overlay: the first drive on which `op` succeeds. `op` may
change `s`, and `lastError` is the error of the last drive that was tried. -/
def firstOf {α σ : Type} (op : Drive → σ → Except ErrorCode α × σ) :
    List (Option Drive) → ErrorCode → σ → Except ErrorCode α × σ
  | [], lastError, s => (.error lastError, s)
  | none :: ds, lastError, s => firstOf op ds lastError s
  | some d :: ds, _, s =>
    match op d s with
    | (.ok result, s) => (.ok result, s)
    | (.error e, s) => firstOf op ds e s

variable (o : OverlayDrive)

def getNativePath (path : Path) : Except ErrorCode Path :=
  (firstOf (fun d _ => (d.getNativePath path, ())) o.drives .noSuchFileOrDirectory ()).1

def getSize (path : Path) : Except ErrorCode Nat :=
  (firstOf (fun d _ => (d.getSize path, ())) o.drives .noSuchFileOrDirectory ()).1

def readAllTo (path : Path) (buf : List UInt8) : Except ErrorCode Nat × List UInt8 :=
  firstOf (fun d buf => d.readAllTo path buf) o.drives .noSuchFileOrDirectory buf

/-- An overlay over native drives. -/
def ofNative (fs : FileSystem) (drives : List (Option NativeDrive)) : OverlayDrive :=
  ⟨drives.map (·.map (·.drive fs))⟩

end OverlayDrive

end TX.Fs
