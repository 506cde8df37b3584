import Tabular.Proofs.Statistics.Blocks

/-!
# Statistics of tables

The slots of a table have a row for each statistic of its columns, computed from blocks of rows.
What comes out are summaries of whole columns, however long the blocks are and in whatever way they
are reduced: there is one minimum and one maximum, and one sum if sums need no rounding.

* `Table.Summarises`: what is true of the summary of a column, whatever it was computed from;
* `Table.Tabulates`: what the slots hold;
* `Reachable.statistics_independent`: the tables that callers can come to hold.
-/

namespace Tabular

open TableLike

/-! ## The slots -/

/-- A table of one row. -/
theorem DenseTable.ofRows_singleton {t : ScalarType} {values : List t.Value}
    (hroom : values.length * t.size ≤ maxBytes) (hcolumns : Describable values.length) :
    DenseTable.ofRows [values] = .ok (.unnamed values 1 values.length .internallyAllocated) := by
  have hrectangular : Rectangular [values] := by
    intro row hrow
    rw [List.mem_singleton.1 hrow]
    rfl
  have hone : RoomFor t [values] := by
    rw [← Nat.one_mul values.length] at hroom
    exact hroom
  refine ofRows_eq_ok_iff.2
    ⟨forall_mem_lookedAt_iff.2 (.inl hrectangular), hone, hcolumns, ?_⟩
  rw [hrectangular.flatten_lookedAt, List.flatten_singleton]
  rfl

/-- What a slot holds of a column. -/
def slot (statistics : Statistics (DenseTable .float64)) (kind : Statistic) (column : Nat) :
    Option Double :=
  (statistics.get? kind).bind fun row => row.stored? 0 column

namespace Table

/-- The summary is one of a column, whatever it was computed from. -/
structure Summarises (x : Table) (column : Nat) (summary : Summary) : Prop where
  minimum : Double.Extreme Double.rank .infinity (x.column column) summary.minimum
  maximum : Double.Extreme Double.reverseRank .negativeInfinity (x.column column) summary.maximum
  extrema_eq : Double.Unmixed (x.column column) →
    summary.minimum = (Summary.ofValues (x.column column)).minimum
      ∧ summary.maximum = (Summary.ofValues (x.column column)).maximum
  value_between : ∀ v ∈ x.column column, ∀ b, v.number.value? = some b →
    (∀ a, summary.minimum.number.value? = some a → a ≤ b)
      ∧ ∀ c, summary.maximum.number.value? = some c → b ≤ c
  sum : ∀ numbers, List.Forall₂ Double.Holds (x.column column) numbers → Bounded numbers →
    summary.sum = .ofInt numbers.sum ∧ summary.sum.Holds numbers.sum
  sumSquares : ∀ numbers, List.Forall₂ Double.Holds (x.column column) numbers →
    Bounded (numbers.map fun n => n * n) →
    summary.sumSquares = .ofInt (numbers.map fun n => n * n).sum
      ∧ summary.sumSquares.Holds (numbers.map fun n => n * n).sum

/-- The slots have a row each for the statistics of the columns, whose sums are the sums of the
sums of the blocks. -/
structure Tabulates (x : Table) (blockRows : Nat) (statistics : Statistics (DenseTable .float64)) :
    Prop where
  shape : ∀ kind, ∃ row, statistics.get? kind = some row ∧ row.rows = 1
    ∧ row.columns = TableLike.columns x
  filled : 0 < rows x → ∀ column < TableLike.columns x, ∃ summary : Summary,
    x.Summarises column summary
      ∧ slot statistics .minimum column = some summary.minimum
      ∧ slot statistics .maximum column = some summary.maximum
      ∧ slot statistics .sum column = some summary.sum
      ∧ slot statistics .sumSquares column = some summary.sumSquares
  sum : ∀ column < TableLike.columns x, slot statistics .sum column
    = some (.total ((blocksOf (rows x) (blockSize (rows x) blockRows)).map fun block =>
        .total (x.columnValues column block)))
  sumSquares : ∀ column < TableLike.columns x, slot statistics .sumSquares column
    = some (.total ((blocksOf (rows x) (blockSize (rows x) blockRows)).map fun block =>
        .total ((x.columnValues column block).map fun v => v.mul v)))
  empty : rows x = 0 → ∀ column < TableLike.columns x,
    slot statistics .minimum column = some .nan ∧ slot statistics .maximum column = some .nan
      ∧ slot statistics .sum column = some .zero ∧ slot statistics .sumSquares column = some .zero

/-- The blocks of a size can be reduced in any way, and what comes out are summaries of the
columns. -/
def Reduces (x : Table) (blockRows : Nat) : Prop :=
  ∀ tree : Reduction Nat, tree.blocks = blockStarts (rows x) (blockSize (rows x) blockRows) →
    ∃ summaries, reduce x (blockSize (rows x) blockRows) tree = .ok summaries
      ∧ ∀ column < TableLike.columns x, ∃ summary, summaries[column]? = some summary
        ∧ x.Summarises column summary

/-- The statistics of the table are computed from blocks of a size. -/
def Summarised (x : Table) (blockRows : Nat) : Prop :=
  ∃ statistics, computeStatistics x blockRows = .ok statistics ∧ x.Tabulates blockRows statistics

variable {x : Table} {blockRows column : Nat}

theorem summarises_of_blocks {size : Nat} (hsize : 0 < size) {tree : Reduction Nat}
    (h : tree.blocks = blockStarts (rows x) size) :
    x.Summarises column (x.columnSummary size tree column) := by
  have hcolumn : tree.blocks.flatMap
      (fun start => x.columnValues column (blockAt (rows x) size start)) = x.column column := by
    rw [h, ← columnValues_blocks (covers_blocks hsize) column, blocksOf, List.flatMap_map]
  have hdescribes : (x.columnSummary size tree column).Describes (x.column column) :=
    hcolumn ▸ tree.describes_summary
  refine ⟨hdescribes.minimum, hdescribes.maximum,
    hdescribes.extrema_eq (Summary.describes_ofValues _),
    fun v hv _ hvalue => hdescribes.value_between hv hvalue, fun numbers hholds hbounded => ?_,
    fun numbers hholds hbounded => ?_⟩
  · rw [hdescribes.sum numbers hholds hbounded]
    exact ⟨rfl, Double.holds_ofInt (hbounded numbers (List.infix_refl numbers))⟩
  · rw [hdescribes.sumSquares.of_squares hholds hbounded]
    exact ⟨rfl, Double.holds_ofInt (hbounded _ (List.infix_refl _))⟩

/-- The slots that are filled from summaries of the columns. -/
theorem exists_slots {summaries : List Summary} (hlength : summaries.length = TableLike.columns x)
    (hsummaries : summarise x blockRows = .ok summaries)
    (hroom : TableLike.columns x * 8 ≤ maxBytes) (hcolumns : Describable (TableLike.columns x)) :
    ∃ statistics, computeStatistics x blockRows = .ok statistics
      ∧ ∀ kind, ∃ row, statistics.get? kind = some row ∧ row.rows = 1
        ∧ row.columns = TableLike.columns x
        ∧ ∀ column < TableLike.columns x, slot statistics kind column
          = summaries[column]?.map fun summary => summary.value (rows x = 0) kind := by
  -- the rows stay named, so that their values are not unfolded
  obtain ⟨row, hrow⟩ : ∃ row : Statistic → DenseTable .float64, ∀ kind, row kind
      = .unnamed (summaries.map fun summary => summary.value (rows x = 0) kind) 1
          (TableLike.columns x) .internallyAllocated := ⟨_, fun _ => rfl⟩
  have hrows : ∀ kind, DenseTable.ofRows (t := .float64)
      [summaries.map fun summary => summary.value (rows x = 0) kind] = .ok (row kind) := by
    intro kind
    have hvalues : (summaries.map fun summary => summary.value (rows x = 0) kind).length
        = TableLike.columns x := (List.length_map _).trans hlength
    rw [hrow, ← hvalues]
    exact DenseTable.ofRows_singleton (hvalues ▸ hroom) (hvalues ▸ hcolumns)
  -- each statistic has a slot of its own
  have hget : ∀ kind, (⟨some (row .minimum), some (row .maximum), some (row .sum),
      some (row .sumSquares)⟩ : Statistics (DenseTable .float64)).get? kind = some (row kind) := by
    intro kind
    cases kind <;> rfl
  refine ⟨⟨some (row .minimum), some (row .maximum), some (row .sum), some (row .sumSquares)⟩,
    ?_, fun kind => ⟨row kind, hget kind, ?_, ?_, fun column hcolumn => ?_⟩⟩
  · rw [computeStatistics, hsummaries, ok_bind]
    simp only [hrows, ok_bind, pure_eq_ok]
  · rw [hrow]
    rfl
  · rw [hrow]
    rfl
  · have hslot : slot ⟨some (row .minimum), some (row .maximum), some (row .sum),
        some (row .sumSquares)⟩ kind column = (row kind).stored? 0 column := by
      rw [slot, hget]
      rfl
    have hcell : (row kind).stored? 0 column
        = (summaries.map fun summary => summary.value (rows x = 0) kind)[column]? := by
      rw [hrow, DenseTable.stored?, if_pos ⟨Nat.zero_lt_one, hcolumn⟩, Nat.zero_mul, Nat.zero_add]
      rfl
    exact hslot.trans (hcell.trans List.getElem?_map)

theorem getElem?_columnSummary {size : Nat} {tree : Reduction Nat}
    (hcolumn : column < TableLike.columns x) :
    ((List.range (TableLike.columns x)).map (x.columnSummary size tree))[column]?
      = some (x.columnSummary size tree column) := by
  rw [List.getElem?_map, List.getElem?_range hcolumn]
  rfl

theorem blockStarts_zero (size : Nat) : blockStarts 0 size = [] := by
  have hnone : (0 + size - 1) / size = 0 := by
    rcases Nat.eq_zero_or_pos size with rfl | hsize
    · rfl
    · exact Nat.div_eq_of_lt (by omega)
  rw [blockStarts, blockCount, hnone]
  rfl

/-- Slots with the summaries of the blocks, one after the other, have what they should have. -/
theorem tabulates_of_slots {statistics : Statistics (DenseTable .float64)}
    (hshape : ∀ kind, ∃ row, statistics.get? kind = some row ∧ row.rows = 1
      ∧ row.columns = TableLike.columns x)
    (hslot : ∀ kind, ∀ column < TableLike.columns x, slot statistics kind column
      = some ((x.columnSummary (blockSize (rows x) blockRows)
          (.inOrder (blockStarts (rows x) (blockSize (rows x) blockRows))) column).value
            (rows x = 0) kind)) :
    x.Tabulates blockRows statistics := by
  have hsum : ∀ column < TableLike.columns x, slot statistics .sum column
      = some (.total ((blocksOf (rows x) (blockSize (rows x) blockRows)).map fun block =>
          .total (x.columnValues column block))) := by
    intro column hcolumn
    rw [hslot .sum column hcolumn, Summary.value, columnSummary, Reduction.sum_inOrder, blocksOf,
      List.map_map]
    rfl
  have hsumSquares : ∀ column < TableLike.columns x, slot statistics .sumSquares column
      = some (.total ((blocksOf (rows x) (blockSize (rows x) blockRows)).map fun block =>
          .total ((x.columnValues column block).map fun v => v.mul v))) := by
    intro column hcolumn
    rw [hslot .sumSquares column hcolumn, Summary.value, columnSummary,
      Reduction.sumSquares_inOrder, blocksOf, List.map_map]
    rfl
  refine ⟨hshape, fun hrows column hcolumn => ?_, hsum, hsumSquares, fun hrows column hcolumn => ?_⟩
  · have hfilled : decide (rows x = 0) = false := decide_eq_false (Nat.pos_iff_ne_zero.1 hrows)
    refine ⟨_, summarises_of_blocks (blockSize_pos (rows x) blockRows)
      (Reduction.blocks_inOrder _), ?_, ?_, ?_, ?_⟩
    all_goals rw [hslot _ column hcolumn, hfilled]; rfl
  · have hempty : decide (rows x = 0) = true := decide_eq_true hrows
    have hnone : blocksOf (rows x) (blockSize (rows x) blockRows) = [] := by
      rw [hrows, blocksOf, blockStarts_zero]
      rfl
    refine ⟨?_, ?_, ?_, ?_⟩
    · rw [hslot _ column hcolumn, hempty]
      rfl
    · rw [hslot _ column hcolumn, hempty]
      rfl
    · rw [hsum column hcolumn, hnone]
      rfl
    · rw [hsumSquares column hcolumn, hnone]
      rfl

/-! ## Tables that callers can come to hold -/

section Reachable

variable (hstatus : (status x).isAllocated) (hword : rows x < wordLimit)
  (hroom : max 1 (min (blockSize (rows x) blockRows) (rows x)) * TableLike.columns x * 8 ≤ maxBytes)

include hstatus hword hroom

theorem inReach_block {start : Nat}
    (hstart : start ∈ blockStarts (rows x) (blockSize (rows x) blockRows)) :
    x.InReach .float64 start (min (blockSize (rows x) blockRows) (rows x - start)) := by
  have hcovers : Covers (rows x) _ _ := covers_blocks (blockSize_pos (rows x) blockRows)
  have hinside := hcovers.inside _ (List.mem_map_of_mem hstart)
  simp only [blockAt] at hinside
  have hcount : min (blockSize (rows x) blockRows) (rows x - start) * TableLike.columns x * 8
      ≤ maxBytes := by
    refine Nat.le_trans (Nat.mul_le_mul_right _ (Nat.mul_le_mul_right _ ?_)) hroom
    omega
  exact ⟨hstatus, Nat.lt_of_le_of_lt hinside.2.2 hword, hinside.2.2, hcount,
    fun t _ => room_of_size t hcount⟩

/-- What any reduction of the blocks gives. -/
theorem Reachable.reduce_blocks (hx : x.Reachable) {tree : Reduction Nat}
    (htree : tree.blocks = blockStarts (rows x) (blockSize (rows x) blockRows)) :
    reduce x (blockSize (rows x) blockRows) tree = .ok ((List.range (TableLike.columns x)).map
      (x.columnSummary (blockSize (rows x) blockRows) tree)) := by
  refine reduce_eq_ok hx tree fun start hstart => ?_
  rw [htree] at hstart
  exact inReach_block hstatus hword hroom hstart

theorem Reachable.reduces (hx : x.Reachable) : x.Reduces blockRows :=
  fun _ htree => ⟨_, hx.reduce_blocks hstatus hword hroom htree, fun _ hcolumn =>
    ⟨_, getElem?_columnSummary hcolumn,
      summarises_of_blocks (blockSize_pos (rows x) blockRows) htree⟩⟩

theorem Reachable.summarised (hx : x.Reachable) (hcolumns : Describable (TableLike.columns x))
    (hlisted : Listed (rows x) (blockSize (rows x) blockRows)) : x.Summarised blockRows := by
  have hwidth : TableLike.columns x * 8 ≤ maxBytes := by
    refine Nat.le_trans (Nat.mul_le_mul_right _ ?_) hroom
    exact Nat.le_mul_of_pos_left _ (by omega)
  have hsummaries := (summarise_eq_reduce x blockRows hlisted hwidth).trans
    (hx.reduce_blocks hstatus hword hroom (Reduction.blocks_inOrder _))
  obtain ⟨statistics, hstatistics, hslots⟩ := exists_slots (by simp) hsummaries hwidth hcolumns
  refine ⟨statistics, hstatistics,
    tabulates_of_slots (fun kind => ?_) fun kind column hcolumn => ?_⟩
  · obtain ⟨row, hrow, hrows, hcolumns, -⟩ := hslots kind
    exact ⟨row, hrow, hrows, hcolumns⟩
  · obtain ⟨-, -, -, -, hslot⟩ := hslots kind
    rw [hslot column hcolumn, getElem?_columnSummary hcolumn, Option.map_some]

end Reachable

theorem computeStatistics_eq_fault (h : ¬Listed (rows x) (blockSize (rows x) blockRows)) :
    computeStatistics x blockRows = .error .fault := by
  rw [computeStatistics, summarise_eq_fault x blockRows h, error_bind]

/-- Statistics of a table that callers can come to hold do not depend on how many rows are read at
once, nor on how the blocks are reduced. The blocks are runs of rows that have each row once. All
that comes out of them are summaries of the columns: the least and the largest number of a column,
of which there is only one unless both zeros are among its values, and the sums, which are exact if
no part of them has to be rounded. The slots have them as well, unless there are more blocks than
there is room to list, and then the program stops. -/
theorem Reachable.statistics_independent (hx : x.Reachable) (hstatus : (status x).isAllocated)
    (hword : rows x < wordLimit) (hcolumns : Describable (TableLike.columns x))
    (hroom : max 1 (min (blockSize (rows x) blockRows) (rows x)) * TableLike.columns x * 8
      ≤ maxBytes) :
    Covers (rows x) (blockSize (rows x) blockRows)
        (blocksOf (rows x) (blockSize (rows x) blockRows))
      ∧ x.Reduces blockRows
      ∧ (Listed (rows x) (blockSize (rows x) blockRows) → x.Summarised blockRows)
      ∧ (¬Listed (rows x) (blockSize (rows x) blockRows) →
          computeStatistics x blockRows = .error .fault) :=
  ⟨covers_blocks (blockSize_pos _ _), hx.reduces hstatus hword hroom,
    hx.summarised hstatus hword hroom hcolumns, computeStatistics_eq_fault⟩

/-- Bytes in three rows, to be read two rows at a time. -/
def threeRows : DenseTable .int8 := .unnamed [1, -2, 3, 4, -5, 6] 3 2 .userAllocated

theorem statistics_independent_threeRows :
    Reachable (dense threeRows) ∧ (dense threeRows).Summarised 2
      ∧ ∃ statistics, computeStatistics (dense threeRows) 2 = .ok statistics
        ∧ slot statistics .minimum 0 = some (Double.ofInt (-5))
        ∧ slot statistics .sum 1 = some (Double.ofInt 8) := by
  have hattached : DenseTable.attach (t := .int8) [1, -2, 3, 4, -5, 6] 3 2 = .ok threeRows := rfl
  have hreachable : Reachable (dense threeRows) := .built (.attachedCells hattached)
  have hroom : max 1 (min (blockSize (rows (dense threeRows)) 2) (rows (dense threeRows)))
      * TableLike.columns (dense threeRows) * 8 ≤ maxBytes := by decide
  obtain ⟨-, -, hlisted, -⟩ :=
    hreachable.statistics_independent rfl (by decide) (by decide) hroom
  obtain ⟨statistics, hstatistics, htabulates⟩ := hlisted (by decide)
  have hslots : (fun statistics => (slot statistics .minimum 0, slot statistics .sum 1))
      <$> computeStatistics (dense threeRows) 2
        = .ok (some (Double.ofInt (-5)), some (Double.ofInt 8)) := by decide +kernel
  rw [hstatistics] at hslots
  have hvalues := Except.ok.inj hslots
  exact ⟨hreachable, ⟨statistics, hstatistics, htabulates⟩, statistics, hstatistics,
    congrArg Prod.fst hvalues, congrArg Prod.snd hvalues⟩

/-- As many rows as a machine word counts, none of which has a cell. -/
def cellless : DenseTable .float64 := .unnamed [] wordMax 0 .internallyAllocated

/-- The rows take no storage, and are too many to be read one by one. -/
theorem cellless_not_summarised :
    DenseTable.new .float64 wordMax 0 = .ok cellless ∧ Reachable (dense cellless)
      ∧ (status (dense cellless)).isAllocated ∧ 0 < rows (dense cellless)
      ∧ max 1 (min (blockSize (rows (dense cellless)) 1) (rows (dense cellless)))
        * TableLike.columns (dense cellless) * 8 ≤ maxBytes
      ∧ computeStatistics (dense cellless) 1 = .error .fault
      ∧ ¬(dense cellless).Summarised 1 := by
  have hnew : DenseTable.new .float64 wordMax 0 = .ok cellless := by decide +kernel
  have hfault : computeStatistics (dense cellless) 1 = .error .fault :=
    computeStatistics_eq_fault (by decide)
  refine ⟨hnew, .built (.filled hnew), rfl, by decide, by decide, hfault, ?_⟩
  rintro ⟨statistics, hstatistics, -⟩
  cases hstatistics.symm.trans hfault

end Table

end Tabular
