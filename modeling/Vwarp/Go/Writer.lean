import Vwarp.Go.Io

/-!
# Writing to a connection

`io.Writer` as the modelled code uses it: a write is given a slice, accepts some of it and returns
a count and an error, neither of which is under the control of the caller.  A `Writer` is the
script of what successive writes return; one that has run out accepts everything.
-/

namespace Vwarp.Go

/-- What one `Write` returns. -/
structure WriteResult where
  n : Int
  err : Option Error
deriving DecidableEq, Repr

/-- A writer: what it has been offered, what it has accepted, and what its next writes return. -/
structure Writer where
  offered : Bytes
  accepted : Bytes
  writes : List WriteResult
deriving DecidableEq, Repr

namespace Writer

def new : Writer := ⟨[], [], []⟩

/-- `Writer.Write`. -/
def write (w : Writer) (p : Bytes) : WriteResult × Writer :=
  match w.writes with
  | [] => (⟨p.length, none⟩, ⟨w.offered ++ p, w.accepted ++ p, []⟩)
  | res :: writes => (res, ⟨w.offered ++ p, w.accepted ++ p.take res.n.toNat, writes⟩)

end Writer

end Vwarp.Go
