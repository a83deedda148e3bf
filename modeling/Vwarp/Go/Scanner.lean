import Vwarp.Go.NetText

/-!
# `bufio.Scanner` over the lines of a string

A `Scanner` with the default split function gives the lines of its input without their line breaks,
and without a carriage return before a line break.  A line that does not fit its buffer of
`MaxScanTokenSize` bytes, with its line break, ends the scan with an error.

What is written as lines is read as lines if each line fits and does not end in a carriage return
(`scanLines_unlines`).
-/

namespace Vwarp.Go

/-- `bufio.MaxScanTokenSize`. -/
def maxScanTokenSize : Nat := 64 * 1024

/-- `dropCR`. -/
def dropCR (line : Bytes) : Bytes :=
  if line.getLast? = some 0x0d then line.dropLast else line

/-- What ends a scan before the end of the input. -/
inductive ScanError
  | /-- `bufio.ErrTooLong`. -/
    tooLong
deriving DecidableEq, Repr

/-- The lines that `Scan` gives when `line` has been read of the first one, and `Err` after that. -/
def scanLinesFrom (line : Bytes) : Bytes → List Bytes × Option ScanError
  | [] =>
    if line = [] then ([], none)
    else if maxScanTokenSize ≤ line.length then ([], some .tooLong)
    else ([dropCR line], none)
  | c :: s =>
    if c = 0x0a then
      if maxScanTokenSize ≤ line.length then ([], some .tooLong)
      else
        let rest := scanLinesFrom [] s
        (dropCR line :: rest.1, rest.2)
    else scanLinesFrom (line ++ [c]) s

/-- The lines that `Scan` gives, and `Err` after that. -/
def scanLines (s : Bytes) : List Bytes × Option ScanError := scanLinesFrom [] s

/-- `strings.Cut` at a byte. -/
def cut (sep : UInt8) (s : Bytes) : Option (Bytes × Bytes) :=
  (indexByte sep s).map fun i ↦ (s.take i, s.drop (i + 1))

/-- The text is a line that a `Scanner` gives back. -/
structure FitsLine (line : Bytes) : Prop where
  lineBreak : (0x0a : UInt8) ∉ line
  carriageReturn : line.getLast? ≠ some 0x0d
  length : line.length < maxScanTokenSize

def unlines (lines : List Bytes) : Bytes := lines.flatMap (· ++ [0x0a])

theorem scanLinesFrom_append (line : Bytes) {s : Bytes} (h : (0x0a : UInt8) ∉ s) (rest : Bytes) :
    scanLinesFrom line (s ++ rest) = scanLinesFrom (line ++ s) rest := by
  induction s generalizing line with
  | nil => rw [List.nil_append, List.append_nil]
  | cons c s ih =>
    have hc : c ≠ 0x0a := (List.ne_of_not_mem_cons h).symm
    have hs := List.not_mem_of_not_mem_cons h
    rw [List.cons_append, scanLinesFrom, if_neg hc, ih _ hs, List.append_assoc,
      List.singleton_append]

theorem scanLines_cons {line : Bytes} (h : FitsLine line) (rest : Bytes) :
    scanLines (line ++ 0x0a :: rest) = (line :: (scanLines rest).1, (scanLines rest).2) := by
  rw [scanLines, scanLinesFrom_append [] h.lineBreak, List.nil_append, scanLinesFrom, if_pos rfl,
    if_neg (Nat.not_le.mpr h.length), dropCR, if_neg h.carriageReturn]
  rfl

theorem scanLines_unlines {lines : List Bytes} (h : ∀ line ∈ lines, FitsLine line) :
    scanLines (unlines lines) = (lines, none) := by
  induction lines with
  | nil => rfl
  | cons line lines ih =>
    have hrest := ih fun l hl ↦ h l (List.mem_cons_of_mem line hl)
    rw [show unlines (line :: lines) = line ++ 0x0a :: unlines lines by
        simp [unlines], scanLines_cons (h line List.mem_cons_self), hrest]

/-- A line that does not fit the buffer ends the scan. -/
theorem scanLines_tooLong {lines : List Bytes} (h : ∀ line ∈ lines, FitsLine line) {line : Bytes}
    (hbreak : (0x0a : UInt8) ∉ line) (hlen : maxScanTokenSize ≤ line.length) (rest : Bytes) :
    scanLines (unlines lines ++ (line ++ 0x0a :: rest)) = (lines, some .tooLong) := by
  induction lines with
  | nil =>
    rw [show unlines [] = [] from rfl, List.nil_append, scanLines,
      scanLinesFrom_append [] hbreak, List.nil_append, scanLinesFrom, if_pos rfl, if_pos hlen]
  | cons first lines ih =>
    have hrest := ih fun l hl ↦ h l (List.mem_cons_of_mem first hl)
    rw [show unlines (first :: lines) = first ++ 0x0a :: unlines lines by simp [unlines],
      List.append_assoc, List.cons_append, scanLines_cons (h first List.mem_cons_self), hrest]

theorem cut_append {sep : UInt8} {key : Bytes} (h : sep ∉ key) (value : Bytes) :
    cut sep (key ++ sep :: value) = some (key, value) := by
  have hlen : key.length + 1 = (key ++ [sep]).length := by
    rw [List.length_append, List.length_singleton]
  rw [cut, indexByte_concat h, Option.map_some, List.take_left, List.append_cons, hlen,
    List.drop_left]

end Vwarp.Go
