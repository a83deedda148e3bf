import Vwarp.Go.Strings
import Mathlib.Logic.Function.Basic

/-!
# Files

A file system is a map from paths to contents.  An operation may fail, and what it has done by
then is part of what is said about it: a file may be empty after a failed `os.Create`, a failed
write has written the front of what it was given, and `os.RemoveAll` may have removed some of the
files before it fails.

The contents of a file are a list of cells, which are bytes for the programs that are modelled
here; nothing depends on it.
-/

namespace Vwarp.Go

/-- A path as the system resolves it: the names on the way from the root. -/
abbrev Path := List Bytes

abbrev Files (β : Type) := Path → Option (List β)

/-- What happens to a file that is created, or emptied, and written in one piece. -/
structure FileFaults where
  /-- The error of `os.Create`, and whether the file was emptied before it. -/
  create : Option (Bytes × Bool)
  /-- The error of the write, and how much was written before it. -/
  write : Option (Bytes × Nat)
  /-- The error of `Close`. -/
  close : Option Bytes

def FileFaults.never : FileFaults where
  create := none
  write := none
  close := none

namespace Files

variable {β : Type}

/-- `os.RemoveAll`, which leaves of the directory only the files that are `kept`. -/
def removeAll (files : Files β) (dir : Path) (kept : Path → Bool) : Files β :=
  fun path ↦ if dir <+: path ∧ kept path = false then none else files path

def put (files : Files β) (path : Path) (cells : List β) : Files β :=
  Function.update files path (some cells)

/-- `os.Create`, a write and `Close`: the files afterwards, and the error. -/
def fill (files : Files β) (faults : FileFaults) (path : Path) (cells : List β) :
    Files β × Option Bytes :=
  match faults.create with
  | some (err, emptied) => (if emptied then files.put path [] else files, some err)
  | none =>
    match faults.write with
    | some (err, n) => (files.put path (cells.take n), some err)
    | none => (files.put path cells, faults.close)

@[simp] theorem put_self (files : Files β) (path : Path) (cells : List β) :
    files.put path cells path = some cells :=
  Function.update_self ..

theorem removeAll_append (files : Files β) (dir rest : Path) (kept : Path → Bool) :
    files.removeAll dir kept (dir ++ rest) =
      if kept (dir ++ rest) then files (dir ++ rest) else none := by
  unfold removeAll
  cases kept (dir ++ rest) with
  | true => simp
  | false => simp

end Files

end Vwarp.Go
