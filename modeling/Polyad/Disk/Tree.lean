import Polyad.Disk.Path
import Polyad.Error

/-!
# Disks

The files and directories a run sees, each at its location: the components of its path from the top.
A path is walked component by component, so that a parent component leads to the parent of a
directory that is there. Operations are those of an operating system: they fail with its errors, and
what they changed before a failure stays changed.
-/

namespace Polyad

abbrev Location := List String

inductive Entry where
  | file (bytes : ByteArray) (mode : Nat)
  | directory

/-- Whether two entries hold the same. -/
def Entry.same : Entry → Entry → Bool
  | file a m, file b n => a.data == b.data && m == n
  | directory, directory => true
  | _, _ => false

structure Disk where
  entries : List (Location × Entry) := []
  /-- Where relative paths begin. -/
  working : Location := []

/-- Operations on a disk; a failure leaves what was done before it. -/
abbrev DiskM (α : Type) := ExceptT SystemError (StateM Disk) α

namespace Disk

/-- Whether a mode lets its owner read a file. -/
def mayRead (mode : Nat) : Bool := mode.testBit 8

/-- Whether a mode lets its owner change a file. -/
def mayWrite (mode : Nat) : Bool := mode.testBit 7

/-- The longest name of an entry and the longest path, in bytes. -/
def maxName : Nat := 255
def maxPath : Nat := 4095

/-- What stands at a location; at the top there is always a directory. -/
def find? (d : Disk) (l : Location) : Option Entry :=
  if l = [] then some .directory else d.entries.lookup l

/-- The disk with an entry at a location. -/
def put (d : Disk) (l : Location) (e : Entry) : Disk :=
  { d with entries := (l, e) :: d.entries.filter (·.1 != l) }

/-- The disk without what stands at a location. -/
def erase (d : Disk) (l : Location) : Disk :=
  { d with entries := d.entries.filter (·.1 != l) }

private theorem lookup_filter_ne (es : List (Location × Entry)) (l k : Location) :
    (es.filter (·.1 != l)).lookup k = if k = l then none else es.lookup k := by
  induction es with
  | nil => simp
  | cons e es ih =>
    obtain ⟨a, x⟩ := e
    by_cases hal : a = l
    · subst hal
      by_cases hk : k = a
      · subst hk; simpa using ih
      · have : (k == a) = false := by simpa using hk
        simpa [hk, List.lookup_cons, this] using ih
    · have hf : (((a, x) :: es).filter (·.1 != l)) = (a, x) :: es.filter (·.1 != l) := by
        simp [hal]
      rw [hf]
      by_cases hk : k = a
      · subst hk; simp [hal]
      · have : (k == a) = false := by simpa using hk
        simpa [List.lookup_cons, this] using ih

theorem find?_put (d : Disk) {l : Location} (hl : l ≠ []) (e : Entry) (k : Location) :
    (d.put l e).find? k = if k = l then some e else d.find? k := by
  unfold find? put
  by_cases hk : k = []
  · subst hk; simp [Ne.symm hl]
  · by_cases hkl : k = l
    · subst hkl; simp [hk]
    · have : (k == l) = false := by simpa using hkl
      simp [hk, hkl, List.lookup_cons, this, lookup_filter_ne]

theorem find?_erase (d : Disk) {l : Location} (hl : l ≠ []) (k : Location) :
    (d.erase l).find? k = if k = l then none else d.find? k := by
  unfold find? erase
  by_cases hk : k = []
  · subst hk; simp [Ne.symm hl]
  · simp [hk, lookup_filter_ne]

/-- The location that components lead to from `here`; the last one may be missing. -/
def walk (d : Disk) (here : Location) : List String → Except SystemError Location
  | [] => .ok here
  | part :: rest =>
    match d.find? here with
    | none => .error .noEntry
    | some (.file ..) => .error .notDirectory
    | some .directory =>
      if part == ".." then d.walk here.dropLast rest
      else if maxName < part.utf8ByteSize then .error .nameTooLong
      else d.walk (here ++ [part]) rest

def locate (d : Disk) (p : Path) : Except SystemError Location :=
  if p.parts.any (·.toList.contains '\x00') then .error .nullByte
  else if maxPath < p.text.utf8ByteSize then .error .nameTooLong
  else d.walk (if p.root == "" then d.working else []) p.parts

/-- What a path leads to. -/
def lookAt (d : Disk) (p : Path) : Except SystemError (Option Entry) := do
  return d.find? (← d.locate p)

def isDirectory (d : Disk) (p : Path) : Bool :=
  match d.lookAt p with
  | .ok (some .directory) => true
  | _ => false

def read (d : Disk) (p : Path) : Except SystemError ByteArray := do
  match ← d.lookAt p with
  | none => throw .noEntry
  | some .directory => throw .isDirectory
  | some (.file bytes mode) => if mayRead mode then return bytes else throw .accessDenied

/-- The disk with a new directory. -/
def makeDirectory (d : Disk) (p : Path) : Except SystemError Disk := do
  let l ← d.locate p
  match d.find? l with
  | some _ => throw .occupied
  | none => return d.put l .directory

end Disk

namespace DiskM

def liftExcept {α : Type} : Except SystemError α → DiskM α
  | .ok x => pure x
  | .error e => throw e

/-- The location of a path on the current disk. -/
def locate (p : Path) : DiskM Location := do liftExcept ((← get).locate p)

/-- Makes a directory; one that is there already will do. If it has no place to stand in, `missing`
is done instead. -/
def settleOr (missing : DiskM Unit) (p : Path) : DiskM Unit := do
  match (← get).makeDirectory p with
  | .ok d => set d
  | .error .noEntry => missing
  | .error e => if (← get).isDirectory p then return else throw e

def settleDirectory (p : Path) : DiskM Unit := settleOr (throw .noEntry) p

/-- Makes a directory, the innermost component first in `parts`, after the missing ones above it. -/
def makeDirectories (root : String) : List String → DiskM Unit
  | [] => settleDirectory ⟨root, []⟩
  | part :: above =>
    let p : Path := ⟨root, (part :: above).reverse⟩
    settleOr (do makeDirectories root above; settleDirectory p) p

/-- Makes a directory and every missing one above it. -/
def ensureDirectory (p : Path) : DiskM Unit := makeDirectories p.root p.parts.reverse

/-- Opens a file for writing: an old file keeps its mode, a new one gets `mode`. -/
def openFile (p : Path) (mode : Nat) : DiskM (Location × ByteArray × Nat) := do
  let l ← locate p
  match (← get).find? l with
  | some .directory => throw .isDirectory
  | some (.file bytes old) =>
    if Disk.mayWrite old then return (l, bytes, old) else throw .accessDenied
  | none =>
    modify (·.put l (.file .empty mode))
    return (l, .empty, mode)

/-- Writes a file as a whole. -/
def writeFile (p : Path) (bytes : ByteArray) (mode : Nat) : DiskM Unit := do
  let (l, _, old) ← openFile p mode
  modify (·.put l (.file bytes old))

/-- Sets the mode of a file. -/
def setMode (p : Path) (mode : Nat) : DiskM Unit := do
  let l ← locate p
  match (← get).find? l with
  | some (.file bytes _) => modify (·.put l (.file bytes mode))
  | some .directory => return
  | none => throw .noEntry

/-- Moves the file at `source` to the place of `target`, which must not be a directory. -/
def replace (source : Location) (target : Path) : DiskM Unit := do
  let l ← locate target
  match (← get).find? source, (← get).find? l with
  | none, _ => throw .noEntry
  | some _, some .directory => throw .isDirectory
  | some e, _ => modify fun d => (d.erase source).put l e

end DiskM
end Polyad
