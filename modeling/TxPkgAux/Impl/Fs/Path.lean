import TxPkgAux.Framework.StringViews
import Mathlib.Data.List.DropRight

/-!
# `Path`

`pkg/fs/Fs/Path.{h,cpp}`: a path is its native string, and a view is the part of it that the
view shows. A view is `none` where `substr` throws; the views are `noexcept`.
-/

namespace TX.Fs

open StringView (rfind substr)

/-- `Path`, by `native()`. -/
abbrev Path := List Char

namespace Path

/-- `while (end > 1 && sv[end - 1] == '/') --end`. -/
def trimEnd (sv : Path) : Nat → Nat
  | 0 => 0
  | 1 => 1
  | n + 2 => if sv[n + 1]? = some '/' then trimEnd sv (n + 1) else n + 2

def filenameView (sv : Path) : Option Path :=
  if sv.isEmpty then some []
  else
    let stop := trimEnd sv sv.length
    match rfind sv '/' (stop - 1) with
    | none => substr sv 0 stop
    | some pos => substr sv (pos + 1) (stop - pos - 1)

def stemView (sv : Path) : Option Path := do
  let fname ← filenameView sv
  if fname.isEmpty ∨ fname = ['.'] ∨ fname = ['.', '.'] then return fname
  match rfind fname '.' (fname.length - 1) with
  | none | some 0 => return fname
  | some dot => substr fname 0 dot

def extensionView (sv : Path) : Option Path := do
  let fname ← filenameView sv
  if fname.isEmpty ∨ fname = ['.'] ∨ fname = ['.', '.'] then return []
  match rfind fname '.' (fname.length - 1) with
  | none | some 0 => return []
  | some dot => substr fname dot fname.length

def parentPathView (sv : Path) : Option Path :=
  if sv.isEmpty then some []
  else
    match rfind sv '/' (trimEnd sv sv.length - 1) with
    | none => some []
    | some 0 => substr sv 0 1
    | some pos => substr sv 0 pos

/-- The loop over the components of a path: what it records, and the path it ends at. `none`
if it is not through after `fuel` turns. -/
def walk : Nat → Path → Option (List Path × Path)
  | 0, _ => none
  | fuel + 1, sv => do
    let fname ← filenameView sv
    if fname.isEmpty then return ([], sv)
    let (recorded, last) ← walk fuel (← parentPathView sv)
    return (fname :: recorded, last)

end Path

/-! ## `std::filesystem::path`

What the views stand in for, in the POSIX format. -/

namespace StdPath

/-- `filename()`: what follows the last separator. -/
def filename (p : Path) : Path := p.rtakeWhile (· ≠ '/')

/-- The place of the dot that starts the extension of a file name. A dot in front of the name
starts none, and neither do the dots of `.` and `..`. -/
def splitsAt (name : Path) : Option Nat :=
  let head := name.rdropWhile (· ≠ '.')
  if name = ['.', '.'] ∨ head.length ≤ 1 then none else some (head.length - 1)

/-- `stem()`. -/
def stem (p : Path) : Path :=
  match splitsAt (filename p) with
  | none => filename p
  | some n => (filename p).take n

/-- `extension()`. -/
def extension (p : Path) : Path :=
  match splitsAt (filename p) with
  | none => []
  | some n => (filename p).drop n

/-- `parent_path()`: the last component is removed, with all the separators in front of it; of
those at the root, one is kept. A path of separators only has no component to remove. -/
def parentPath (p : Path) : Path :=
  let head := p.rdropWhile (· ≠ '/')
  let parent := head.rdropWhile (· = '/')
  if p.all (· = '/') then p
  else if parent.isEmpty ∧ ¬ head.isEmpty then ['/']
  else parent

/-- The components: what stands between the separators. -/
def components (p : Path) : List Path := (p.splitOn '/').filter (· ≠ [])

end StdPath

end TX.Fs
