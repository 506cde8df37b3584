import Tabular.Proofs.Sparse.Block
import Tabular.Proofs.Statistics.Summary
import Tabular.Proofs.Views

/-!
# Blocks of rows

Statistics are computed from blocks of rows, one after the other or side by side. The blocks cut the
rows into runs, and each block gives a summary for every column. Reducing the blocks in whatever way
reduces the summaries of every column in that way.

* `covers_blocks`: the blocks are runs of rows, and have each row once;
* `summariseBlock_eq_ok`: what is computed from a block;
* `reduce`: blocks that are reduced in any way, of which `summarise` is one, `summarise_eq_reduce`;
* `reduce_eq_ok`: what a reduction gives for each column.
-/

namespace Tabular

open TableLike

/-! ## Blocks of rows -/

/-- Rows of a block, when a size of zero stands for all rows. -/
def blockSize (rows blockRows : Nat) : Nat := if blockRows = 0 then max rows 1 else blockRows

theorem blockSize_pos (rows blockRows : Nat) : 0 < blockSize rows blockRows := by
  unfold blockSize
  split <;> omega

/-- The block that starts at a row: its first row, and how many there are. -/
def blockAt (rows size start : Nat) : Nat × Nat := (start, min size (rows - start))

/-- The blocks that the rows are read in. -/
def blocksOf (rows size : Nat) : List (Nat × Nat) :=
  (blockStarts rows size).map (blockAt rows size)

/-- The blocks are runs of at most `size` rows, one after the other, and have every row once. -/
structure Covers (rows size : Nat) (blocks : List (Nat × Nat)) : Prop where
  consecutive : blocks = runs 0 (blocks.map Prod.snd)
  inside : ∀ block ∈ blocks, 0 < block.2 ∧ block.2 ≤ size ∧ block.1 + block.2 ≤ rows
  rows_eq : blocks.flatMap (fun block => List.range' block.1 block.2) = List.range rows

section Blocks

variable {rows size : Nat}

/-- Blocks from the one with number `first` on are runs. -/
theorem map_blockAt_range' (rows size first count : Nat)
    (h : ∀ index < count, (first + index) * size < rows) :
    ((List.range' first count).map (· * size)).map (blockAt rows size)
      = runs (first * size)
          ((((List.range' first count).map (· * size)).map (blockAt rows size)).map Prod.snd) := by
  induction count generalizing first with
  | zero => rfl
  | succ count ih =>
      have hrest := ih (first + 1) fun index hindex => by
        have := h (index + 1) (by omega)
        rwa [Nat.add_assoc, Nat.add_comm 1]
      rw [List.range'_succ, List.map_cons, List.map_cons, List.map_cons, runs]
      refine List.cons_eq_cons.2 ⟨rfl, ?_⟩
      cases count with
      | zero => rfl
      -- a block before another one is full
      | succ count =>
          have hnext : (first + 1) * size < rows := h 1 (by omega)
          have hfull : first * size + min size (rows - first * size) = (first + 1) * size := by
            rw [Nat.succ_mul] at hnext ⊢
            omega
          change _ = runs (first * size + min size (rows - first * size)) _
          rw [hfull]
          exact hrest

theorem flatMap_runs (start : Nat) (counts : List Nat) :
    (runs start counts).flatMap (fun run => List.range' run.1 run.2)
      = List.range' start counts.sum := by
  induction counts generalizing start with
  | nil => rfl
  | cons count rest ih =>
      rw [runs, List.flatMap_cons, ih, List.sum_cons, List.range'_append_1]

/-- Blocks from the one with number `first` on have as many rows as there are, or are all full. -/
theorem sum_blockAt_range' (rows size first count : Nat) :
    ((((List.range' first count).map (· * size)).map (blockAt rows size)).map Prod.snd).sum
      = min (count * size) (rows - first * size) := by
  induction count generalizing first with
  | zero => simp
  | succ count ih =>
      rw [List.range'_succ, List.map_cons, List.map_cons, List.map_cons, List.sum_cons, ih,
        Nat.succ_mul, Nat.succ_mul]
      change min size (rows - first * size) + _ = _
      omega

theorem lt_blockCount_iff (hsize : 0 < size) {index : Nat} :
    index < blockCount rows size ↔ index * size < rows := by
  rw [blockCount, ← Nat.succ_le_iff, Nat.le_div_iff_mul_le hsize, Nat.succ_mul]
  omega

theorem covers_blocks (hsize : 0 < size) : Covers rows size (blocksOf rows size) := by
  -- every block starts inside, and all of them together reach the end
  have hbelow : ∀ index < blockCount rows size, index * size < rows :=
    fun index hindex => (lt_blockCount_iff hsize).1 hindex
  have henough : rows ≤ blockCount rows size * size :=
    Nat.le_of_not_lt fun hlt => Nat.lt_irrefl _ ((lt_blockCount_iff hsize).2 hlt)
  have hblocks : blocksOf rows size
      = ((List.range' 0 (blockCount rows size)).map (· * size)).map (blockAt rows size) := by
    rw [blocksOf, blockStarts, List.range_eq_range']
  have hruns := map_blockAt_range' rows size 0 (blockCount rows size)
    (by simpa using hbelow)
  have hsum := sum_blockAt_range' rows size 0 (blockCount rows size)
  rw [← hblocks, Nat.zero_mul] at hruns hsum
  refine ⟨hruns, ?_, ?_⟩
  · intro block hblock
    rw [blocksOf, blockStarts, List.map_map, List.mem_map] at hblock
    obtain ⟨index, hindex, rfl⟩ := hblock
    have := hbelow index (List.mem_range.1 hindex)
    simp only [Function.comp_apply, blockAt]
    omega
  · rw [hruns, flatMap_runs, hsum, List.range_eq_range']
    congr 1
    omega

end Blocks

/-! ## What a block gives -/

/-- Rows of values, column by column. -/
theorem Summary.ofRows_map {α : Type} (width : Nat) (items : List α) (value : α → Nat → Double) :
    Summary.ofRows width (items.map fun item => (List.range width).map (value item))
      = (List.range width).map fun column =>
          .ofValues (items.map fun item => value item column) := by
  induction items using List.reverseRecOn with
  | nil =>
      change List.replicate width identity = (List.range width).map fun _ => identity
      rw [List.map_const', List.length_range]
  | append_singleton items item ih =>
      rw [ofRows] at ih
      rw [ofRows, List.map_append, List.foldl_append, ih, List.map_singleton, List.foldl_cons,
        List.foldl_nil, List.zipWith_map, List.zipWith_self]
      refine List.map_congr_left fun column _ => ?_
      rw [List.map_append, List.map_singleton, ofValues_concat]

/-- Parts of one width are the pieces of what they make up. -/
theorem chunks_flatMap {α β : Type} {width : Nat} (hwidth : 0 < width) {items : List α}
    {f : α → List β} (h : ∀ item, (f item).length = width) :
    chunks width (items.flatMap f) = items.map f := by
  have hlength : (items.flatMap f).length = items.length * width := by
    rw [List.length_flatMap]
    simp [h]
  have hparts : pieces width (items.map f).length (items.map f).flatten = items.map f :=
    pieces_flatten (by simp [h])
  rw [chunks, hlength, Nat.mul_div_cancel _ hwidth, List.flatMap_def]
  rwa [List.length_map] at hparts

/-- Values that are cut into rows are summarised column by column. -/
theorem Summary.ofRows_chunks {α : Type} (width : Nat) (items : List α)
    (value : α → Nat → Double) :
    Summary.ofRows width
        (chunks width (items.flatMap fun item => (List.range width).map (value item)))
      = (List.range width).map fun column =>
          .ofValues (items.map fun item => value item column) := by
  rcases Nat.eq_zero_or_pos width with rfl | hwidth
  · simp [chunks, pieces, ofRows]
  · rw [chunks_flatMap hwidth (by simp), ofRows_map]

namespace Table

variable {x : Table} {size start : Nat}

/-- The values of a column in some rows, as doubles. -/
def columnValues (x : Table) (column : Nat) (block : Nat × Nat) : List Double :=
  (List.range' block.1 block.2).map fun row => (x.cell row column).as .float64

/-- The values of a column. -/
def column (x : Table) (column : Nat) : List Double := x.columnValues column (0, rows x)

theorem columnValues_blocks {blocks : List (Nat × Nat)} (h : Covers (rows x) size blocks)
    (column : Nat) : blocks.flatMap (x.columnValues column) = x.column column := by
  have hrows : blocks.flatMap (x.columnValues column)
      = (blocks.flatMap fun block => List.range' block.1 block.2).map
          fun row => (x.cell row column).as .float64 := by
    rw [List.map_flatMap]
    rfl
  rw [hrows, h.rows_eq, List.range_eq_range']
  rfl

theorem summariseBlock_eq_ok (hx : x.Reachable)
    (h : x.InReach .float64 start (min size (rows x - start))) :
    summariseBlock x size start = .ok ((List.range (TableLike.columns x)).map fun column =>
      .ofValues (x.columnValues column (blockAt (rows x) size start))) := by
  rcases exists_rowBlock hx h with ⟨block, hblock, hvalues⟩
  rw [summariseBlock, hblock, ok_bind, pure_eq_ok, hvalues]
  have hrows : Region.current cell ⟨none, start, min size (rows x - start)⟩ x .float64
      = (List.range' start (min size (rows x - start))).flatMap fun row =>
          (List.range (TableLike.columns x)).map fun column =>
            (x.cell row column).as .float64 := by
    simp only [Region.current, Region.places, Selection.places, Region.selection, Region.range,
      Region.stop, RowRange.toList, RowRange.size_from, PackedTable.placesOf, List.map_flatMap,
      List.map_map]
    rfl
  refine congrArg Except.ok ((congrArg (fun values : List Double =>
    Summary.ofRows _ (chunks _ values)) hrows).trans ?_)
  exact Summary.ofRows_chunks _ _ fun row column => (x.cell row column).as .float64

end Table

/-! ## Reductions of blocks -/

section Reduce

variable {τ : Type} [TableLike τ]

/-- The summaries of the columns when the blocks that start at some rows are reduced in a way. -/
def reduce (x : τ) (size : Nat) : Reduction Nat → Except TableError (List Summary)
  | .identity => return List.replicate (columns x) .identity
  | .block start => summariseBlock x size start
  | .merge left right => do
    let first ← reduce x size left
    let second ← reduce x size right
    return List.zipWith Summary.merge first second

/-- There is room for the first rows of the blocks. -/
def Listed (rows size : Nat) : Prop := blockCount rows size * 8 ≤ maxBytes

instance (rows size : Nat) : Decidable (Listed rows size) :=
  inferInstanceAs (Decidable (blockCount rows size * 8 ≤ maxBytes))

/-- What is computed from the blocks in order is one of their reductions, if there is room to list
them. -/
theorem summarise_eq_reduce (x : τ) (blockRows : Nat)
    (hlisted : Listed (rows x) (blockSize (rows x) blockRows))
    (hwidth : columns x * 8 ≤ maxBytes) :
    summarise x blockRows = reduce x (blockSize (rows x) blockRows)
      (.inOrder (blockStarts (rows x) (blockSize (rows x) blockRows))) := by
  have hall : ∀ (size : Nat) (starts : List Nat),
      (do
        let blocks ← starts.mapM (summariseBlock x size)
        return blocks.foldl (List.zipWith Summary.merge)
          (List.replicate (columns x) Summary.identity) : Except TableError (List Summary))
        = reduce x size (.inOrder starts) := by
    intro size starts
    induction starts using List.reverseRecOn with
    | nil => rfl
    | append_singleton starts start ih =>
        rw [Reduction.inOrder_concat, reduce, ← ih, reduce, List.mapM_append]
        cases starts.mapM (summariseBlock x size) with
        | error e => rfl
        | ok blocks =>
            cases hblock : summariseBlock x size start with
            | error e =>
                simp [hblock]
            | ok block =>
                simp [hblock]
  exact (bind_of_ok (demand_eq_ok_iff.2 hlisted) _).trans
    ((bind_of_ok (demand_eq_ok_iff.2 hwidth) _).trans (hall _ _))

/-- Blocks that there is no room to list are not read. -/
theorem summarise_eq_fault (x : τ) (blockRows : Nat)
    (h : ¬Listed (rows x) (blockSize (rows x) blockRows)) :
    summarise x blockRows = .error .fault := by
  have hdemand : demand (blockCount (rows x) (blockSize (rows x) blockRows)) 8 = .error .fault :=
    if_neg h
  exact congrArg (· >>= _) hdemand

end Reduce

namespace Table

variable {x : Table} {size : Nat}

/-- What a reduction of blocks gives for a column. -/
def columnSummary (x : Table) (size : Nat) (tree : Reduction Nat) (column : Nat) : Summary :=
  tree.summary fun start => x.columnValues column (blockAt (rows x) size start)

/-- Reductions of blocks that can be read give a reduction for every column. -/
theorem reduce_eq_ok (hx : x.Reachable) (tree : Reduction Nat)
    (h : ∀ start ∈ tree.blocks, x.InReach .float64 start (min size (rows x - start))) :
    reduce x size tree
      = .ok ((List.range (TableLike.columns x)).map (x.columnSummary size tree)) := by
  induction tree with
  | identity =>
      rw [reduce, pure_eq_ok]
      change _ = Except.ok ((List.range (TableLike.columns x)).map fun _ => Summary.identity)
      rw [List.map_const', List.length_range]
  | block start => exact summariseBlock_eq_ok hx (h start (List.mem_singleton_self start))
  | merge left right ihleft ihright =>
      have hleft := ihleft fun start hstart => h start (List.mem_append_left _ hstart)
      have hright := ihright fun start hstart => h start (List.mem_append_right _ hstart)
      rw [reduce, hleft, ok_bind, hright, ok_bind, pure_eq_ok, List.zipWith_map, List.zipWith_self]
      rfl

end Table

end Tabular
