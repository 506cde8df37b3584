import Tabular.Error

/-!
# Bounds

Ranges of rows, and the checks that requests pass before storage is touched: rows and columns within
the table, buffers of the expected length, counts that a machine word can hold and storage that can
be allocated.

Not every computation is checked in this way. Where a number is taken for a machine word, or room
for granted, and it is not so, the program stops, and the outcome is a fault.
-/

namespace Tabular

/-! ## Capacity -/

/-- One more than the largest machine word. -/
def wordLimit : Nat := twoPow 64

/-- The largest machine word. -/
def wordMax : Nat := wordLimit - 1

/-- A number that is taken for a machine word. -/
def asWord (n : Nat) : Except TableError Nat :=
  if n < wordLimit then .ok n else .error .fault

/-- The most bytes that one piece of storage can have. -/
def maxBytes : Nat := twoPow 63 - 1

/-- Room for `count` items of `size` bytes that is taken for granted. -/
def demand (count size : Nat) : Except TableError Unit :=
  if count * size ≤ maxBytes then .ok () else .error .fault

/-- Storage for `count` items of `size` bytes can be allocated. -/
def reserve (count size : Nat) : Except TableError Unit :=
  if count * size ≤ maxBytes then .ok ()
  else .error (.allocationFailed (min (count * size) wordMax))

/-- The number of cells of a table, when a machine word holds it. -/
def cellCount (rows columns : Nat) : Except TableError Nat :=
  if rows * columns < wordLimit then .ok (rows * columns)
  else .error (.allocationFailed wordMax)

/-- A list of `count` zeros, when storage for it can be allocated. -/
def zeros (t : ScalarType) (count : Nat) : Except TableError (List t.Value) := do
  reserve count t.size
  return List.replicate count 0

/-! ## Computations with machine words -/

/-- A computation with machine words. -/
inductive WordTerm where
  | word (n : Nat)
  | add (a b : WordTerm)
  | sub (a b : WordTerm)
  | mul (a b : WordTerm)
  | half (a : WordTerm)
  deriving DecidableEq, Repr

namespace WordTerm

/-- The machine word that comes out, if every step on the way to it gives one. The numbers that the
computation starts from are machine words. -/
def value : WordTerm → Except TableError Nat
  | word n => .ok n
  | add a b => do asWord ((← a.value) + (← b.value))
  | sub a b => do
    let (m, n) := (← a.value, ← b.value)
    if m < n then .error .fault else .ok (m - n)
  | mul a b => do asWord ((← a.value) * (← b.value))
  | half a => do return (← a.value) / 2

end WordTerm

/-- How the number of cells of some rows is computed. -/
def countTerm (count width : Nat) : WordTerm := .mul (.word count) (.word width)

/-- How the place of a cell among the cells of some rows is computed, `row` being counted from the
first of them. -/
def offsetTerm (row column width : Nat) : WordTerm := .add (countTerm row width) (.word column)

/-! ## Ranges and checks -/

/-- The rows `start ..< stop`. A range that runs backwards can be asked for and is refused. -/
structure RowRange where
  start : Nat
  stop : Nat
  deriving DecidableEq, Repr

namespace RowRange

/-- Number of rows. -/
def size (range : RowRange) : Nat := range.stop - range.start

/-- The rows, in order. -/
def toList (range : RowRange) : List Nat := List.range' range.start range.size

/-- The `count` rows from `start` on, in a table with `rows` rows. -/
def ofCount (start count rows : Nat) : Except TableError RowRange :=
  if start + count < wordLimit ∧ start + count ≤ rows then .ok ⟨start, start + count⟩
  else .error (.rowRangeOutOfBounds start (min (start + count) wordMax) rows)

/-- The range lies in a table with `rows` rows. -/
def check (range : RowRange) (rows : Nat) : Except TableError Unit :=
  if range.start > range.stop ∨ range.stop > rows then
    .error (.rowRangeOutOfBounds range.start range.stop rows)
  else .ok ()

end RowRange

def checkColumn (column columns : Nat) : Except TableError Unit :=
  if column < columns then .ok () else .error (.columnOutOfBounds column columns)

def checkLength (expected actual : Nat) : Except TableError Unit :=
  if expected = actual then .ok () else .error (.bufferLengthMismatch expected actual)

end Tabular
