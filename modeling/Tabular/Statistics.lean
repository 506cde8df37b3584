import Tabular.Block
import Tabular.Dense

/-!
# Column statistics

Minimum, maximum, sum and sum of squares of every column, computed from blocks of rows. Each block
is summarised from the identity, and the summaries are merged in order. The results are tables of
one row, for the four slots that a table has for them.
-/

namespace Tabular

/-- Which statistic of a column. -/
inductive Statistic where
  | minimum
  | maximum
  | sum
  | sumSquares
  deriving DecidableEq, Repr

namespace Statistic

def all : List Statistic := [minimum, maximum, sum, sumSquares]

end Statistic

/-- A slot for each statistic. -/
structure Statistics (σ : Type) where
  minimum : Option σ
  maximum : Option σ
  sum : Option σ
  sumSquares : Option σ
  deriving DecidableEq, Repr

namespace Statistics

variable {σ ρ : Type}

def empty : Statistics σ := ⟨none, none, none, none⟩

def get? (s : Statistics σ) : Statistic → Option σ
  | .minimum => s.minimum
  | .maximum => s.maximum
  | .sum => s.sum
  | .sumSquares => s.sumSquares

def set (s : Statistics σ) (kind : Statistic) (value : Option σ) : Statistics σ :=
  match kind with
  | .minimum => { s with minimum := value }
  | .maximum => { s with maximum := value }
  | .sum => { s with sum := value }
  | .sumSquares => { s with sumSquares := value }

def isEmpty (s : Statistics σ) : Bool := Statistic.all.all fun kind => (s.get? kind).isNone

/-- What the slots hold, in the order of the statistics. -/
def toList (s : Statistics σ) : List σ := Statistic.all.filterMap s.get?

def map (f : σ → ρ) (s : Statistics σ) : Statistics ρ :=
  ⟨s.minimum.map f, s.maximum.map f, s.sum.map f, s.sumSquares.map f⟩

end Statistics

/-- The statistics of some values of a column. -/
structure Summary where
  minimum : Double
  maximum : Double
  sum : Double
  sumSquares : Double
  deriving DecidableEq, Repr

namespace Summary

/-- The summary of no values. -/
def identity : Summary := ⟨.infinity, .negativeInfinity, .zero, .zero⟩

/-- The summary with one value more. -/
def add (s : Summary) (x : Double) : Summary :=
  ⟨s.minimum.minimum x, s.maximum.maximum x, s.sum.add x, s.sumSquares.add (x.mul x)⟩

/-- The summary of the values of both. -/
def merge (s r : Summary) : Summary :=
  ⟨s.minimum.minimum r.minimum, s.maximum.maximum r.maximum, s.sum.add r.sum,
    s.sumSquares.add r.sumSquares⟩

/-- Summaries of `width` columns from rows of values, one row after the other. -/
def ofRows (width : Nat) (rows : List (List Double)) : List Summary :=
  rows.foldl (fun summaries row => List.zipWith add summaries row)
    (List.replicate width identity)

/-- The value of one statistic; with no rows at all the extrema are not numbers. -/
def value (s : Summary) (noRows : Bool) : Statistic → Double
  | .minimum => if noRows then .nan else s.minimum
  | .maximum => if noRows then .nan else s.maximum
  | .sum => s.sum
  | .sumSquares => s.sumSquares

end Summary

/-- Whether blocks may be worked on side by side. It never changes a result. -/
inductive Scheduling where
  | sequential
  | parallel
  deriving DecidableEq, Repr

namespace Scheduling

/-- One block alone is worked on sequentially. -/
def forBlocks (scheduling : Scheduling) (blocks : Nat) : Scheduling :=
  if scheduling = parallel ∧ 1 < blocks then parallel else sequential

end Scheduling

section Compute

variable {τ : Type} [TableLike τ]

/-- How many blocks of `size` rows cover `rows` rows. -/
def blockCount (rows size : Nat) : Nat := (rows + size - 1) / size

/-- First rows of the blocks of `size` rows that cover `rows` rows. -/
def blockStarts (rows size : Nat) : List Nat := (List.range (blockCount rows size)).map (· * size)

/-- Summaries of the columns in the rows from `start` on, at most `size` of them. -/
def summariseBlock (x : τ) (size start : Nat) : Except TableError (List Summary) := do
  let width := TableLike.columns x
  let block ← rowBlock x .float64 start (min size (TableLike.rows x - start))
  return Summary.ofRows width (chunks width block.values)

/-- Summaries of the columns over all rows, read in blocks; a size of zero means one block. Room for
the first rows of the blocks, which are machine words, is taken for granted, and room for the values
of a summary of all columns. -/
def summarise (x : τ) (blockRows : Nat) : Except TableError (List Summary) := do
  let rows := TableLike.rows x
  let size := if blockRows = 0 then max rows 1 else blockRows
  demand (blockCount rows size) 8
  demand (TableLike.columns x) ScalarType.float64.size
  let blocks ← (blockStarts rows size).mapM (summariseBlock x size)
  return blocks.foldl (List.zipWith Summary.merge)
    (List.replicate (TableLike.columns x) Summary.identity)

/-- The statistics of a table as tables of one row. -/
def computeStatistics (x : τ) (blockRows : Nat) :
    Except TableError (Statistics (DenseTable .float64)) := do
  let summaries ← summarise x blockRows
  let row (kind : Statistic) : Except TableError (DenseTable .float64) :=
    DenseTable.ofRows [summaries.map fun s => s.value (TableLike.rows x = 0) kind]
  return {
    minimum := some (← row .minimum), maximum := some (← row .maximum)
    sum := some (← row .sum), sumSquares := some (← row .sumSquares) }

/-- The first row of a table in a slot. -/
def statisticValues (x : τ) : Except TableError (List Double) := do
  return (← rowBlock x .float64 0 1).values

end Compute

end Tabular
