import Tabular.Proofs.Schema
import Tabular.Proofs.Sparse.Compressed
import Tabular.Proofs.Undisturbed
import Tabular.Proofs.Views

/-!
# Copies of tables

A dense or a sparse copy is made of one block of all rows. So a copy of a table of any kind has its
shape and its cells, converted to one type: a dense copy all of them, a sparse copy those that do
not equal zero. The dictionary of a dense copy is made apart from its cells, of the dictionary of
the table, and describes them if the table had nothing to report about its own.

* `DenseTable.Copies` and `SparseTable.Copies`: what a copy has in common with the table;
* `Reachable.copied`: the tables that callers can come to hold can be copied.
-/

namespace Tabular

open TableLike

/-- A feature of a table, and the feature of a copy with values of one type. -/
structure Feature.Retyped (t : ScalarType) (f g : Feature) : Prop where
  type : g.type = t
  offset : g.offset = 0
  name : g.name = f.name
  kind : g.kind = f.kind
  categories : g.categories = f.categories

theorem Dictionary.retyped_uniform (d : Dictionary) (t : ScalarType) :
    List.Forall₂ (Feature.Retyped t) d.features (d.uniform t).features :=
  List.forall₂_map_right_iff.2 (List.forall₂_same.2 fun _ _ => ⟨rfl, rfl, rfl, rfl, rfl⟩)

/-- A dense table has the shape of a table and its cells, converted, and describes them by the names
and kinds of its features. -/
structure DenseTable.Copies {t : ScalarType} (d : DenseTable t) (x : Table) : Prop where
  rows : d.rows = TableLike.rows x
  columns : d.columns = TableLike.columns x
  status : d.status = .internallyAllocated
  cell : ∀ row < d.rows, ∀ column < d.columns,
    d.get? row column = .ok (some ((x.cell row column).as t))
  features : List.Forall₂ (Feature.Retyped t) (TableLike.dictionary x).features
    d.dictionary.features
  sound : d.Sound
  structured : TableLike.checkStructure (Table.dense d) = .ok

/-- A sparse table has the shape of a table and its cells, converted, up to the sign of zeros. It
stores those that do not equal zero, and no other. -/
structure SparseTable.Copies {t : ScalarType} (s : SparseTable t) (x : Table) : Prop where
  rows : s.rows = TableLike.rows x
  columns : s.columns = TableLike.columns x
  status : s.status = .internallyAllocated
  cell : ∀ row < s.rows, ∀ column < s.columns, ∃ value, s.get? row column = some value
    ∧ t.SameCell value ((x.cell row column).as t)
  stored : ∀ row < s.rows, ∀ column value, (column, value) ∈ s.row row
    ↔ column < s.columns ∧ (x.cell row column).as t = value ∧ t.sameNumber value 0 = false
  wellFormed : s.WellFormed
  structured : TableLike.checkStructure (Table.sparse s) = .ok

/-- What is left of a value when zero stands for what equals zero. -/
theorem sameCell_nonzero {t : ScalarType} (value : t.Value) :
    t.SameCell (if !t.sameNumber value 0 then value else 0) value :=
  (List.forall₂_cons.1 (SparseTable.sameCells_nonzero [value])).1

namespace Table

section Copies

variable {x : Table} {t : ScalarType} {block : Block t} (hblock : allRows x t = .ok block)
  (hvalues : block.values = Region.current cell ⟨none, 0, rows x⟩ x t)

include hvalues

theorem length_allRows : block.values.length = rows x * TableLike.columns x := by
  rw [hvalues, Region.length_current]
  rfl

theorem getElem?_allRows {row column : Nat} (hrow : row < rows x)
    (hcolumn : column < TableLike.columns x) :
    block.values[row * TableLike.columns x + column]? = some ((x.cell row column).as t) := by
  rw [hvalues, Region.getElem?_current_rows hrow hcolumn, Nat.zero_add]

include hblock

/-- The dense copy that is made of a block of all rows. -/
theorem exists_denseCopy (hcounted : rows x * TableLike.columns x < wordLimit)
    (hlength : (dictionary x).length = TableLike.columns x)
    (hcolumns : Describable (TableLike.columns x)) :
    ∃ d : DenseTable t, DenseTable.ofTable t x = .ok d ∧ d.Copies x := by
  have hparts : DenseTable.ofParts block.values (rows x) (TableLike.columns x) .internallyAllocated
      = .ok _ := DenseTable.ofParts_eq_ok_iff.2 ⟨hcolumns, rfl⟩
  refine ⟨_, by rw [DenseTable.ofTable, hblock, ok_bind, hparts, ok_bind, pure_eq_ok], ?_⟩
  have hsound : DenseTable.Sound ⟨rows x, TableLike.columns x, .internallyAllocated, block.values,
      (dictionary x).uniform t⟩ :=
    Stored.of_allocated rfl (length_allRows hvalues)
  have hdescribed : ((dictionary x).uniform t).types
      = List.replicate (TableLike.columns x) t := by
    rw [Dictionary.types_uniform, hlength]
  have hcell : ∀ row < rows x, ∀ column < TableLike.columns x,
      DenseTable.get? ⟨rows x, TableLike.columns x, .internallyAllocated, block.values,
        (dictionary x).uniform t⟩ row column = .ok (some ((x.cell row column).as t)) := by
    intro row hrow column hcolumn
    rw [DenseTable.get?_eq hcounted, DenseTable.stored?_eq hrow hcolumn,
      getElem?_allRows hvalues hrow hcolumn]
  exact ⟨rfl, rfl, rfl, hcell, Dictionary.retyped_uniform _ t, hsound,
    checkStructure_of_inStep hsound hdescribed⟩

/-- The sparse copy that is made of a block of all rows. -/
theorem exists_sparseCopy (hroom : rows x * TableLike.columns x * t.size ≤ maxBytes)
    (hbounds : (rows x + 1) * 8 ≤ maxBytes) (hcolumns : Describable (TableLike.columns x)) :
    ∃ s : SparseTable t, SparseTable.ofTable t x = .ok s ∧ s.Copies x := by
  have hlength := length_allRows hvalues
  rcases SparseTable.exists_compressed (fun value : t.Value => !t.sameNumber value 0) hlength
    (hlength ▸ hroom) hbounds hcolumns with ⟨s, hs, hcompressed⟩
  refine ⟨s, by rw [SparseTable.ofTable, hblock, ok_bind, SparseTable.ofCells_eq, hs],
    hcompressed.rows_eq, hcompressed.columns_eq, hcompressed.status_eq, ?_, ?_,
    hcompressed.wellFormed, checkStructure_of_inStep hcompressed.wellFormed (inStep_compress hs)⟩
  · intro row hrow column hcolumn
    rw [hcompressed.rows_eq] at hrow
    rw [hcompressed.columns_eq] at hcolumn
    refine ⟨_, ?_, sameCell_nonzero _⟩
    rw [hcompressed.get?_eq row hrow column hcolumn, getElem?_allRows hvalues hrow hcolumn,
      Option.map_some]
  · intro row hrow column value
    rw [hcompressed.rows_eq] at hrow
    rw [hcompressed.mem_row_iff row hrow, hcompressed.columns_eq]
    refine and_congr_right fun hcolumn => ?_
    rw [getElem?_allRows hvalues hrow hcolumn, Option.some.injEq, Bool.not_eq_true']

end Copies

variable {x : Table} {t : ScalarType}

/-- Both copies are made, the sparse one if there is room for the bounds of its rows. -/
structure Copied (x : Table) (t : ScalarType) : Prop where
  dense : ∃ d : DenseTable t, DenseTable.ofTable t x = .ok d ∧ d.Copies x
  sparse : (rows x + 1) * 8 ≤ maxBytes →
    ∃ s : SparseTable t, SparseTable.ofTable t x = .ok s ∧ s.Copies x

/-- A table of any kind that callers can come to hold, that has storage and nothing to report about
its structure, can be copied into a dense and into a sparse table of any type, cell by cell, if
there is room for the cells and for the features of the columns. -/
theorem Reachable.copied (hx : x.Reachable) (hstructure : (checkStructure x).isOk)
    (h : x.InReach t 0 (rows x)) (hcolumns : Describable (TableLike.columns x)) :
    x.Copied t := by
  have hlength : (dictionary x).length = TableLike.columns x :=
    ((isOk_checkStructure_iff hx.sound h.allocated).1 hstructure).1
  rcases exists_rowBlock hx h with ⟨block, hblock, hvalues⟩
  exact ⟨exists_denseCopy hblock hvalues (lt_wordLimit_of_room h.room) hlength hcolumns,
    fun hbounds => exists_sparseCopy hblock hvalues h.room hbounds hcolumns⟩

/-- Doubles of which few are stored, one of them a zero, copied to bytes. -/
theorem copied_scattered :
    Reachable (sparse (SparseTable.scatteredRows .userAllocated))
      ∧ (checkStructure (sparse (SparseTable.scatteredRows .userAllocated))).isOk
      ∧ InReach (sparse (SparseTable.scatteredRows .userAllocated)) .int8 0 3
      ∧ Copied (sparse (SparseTable.scatteredRows .userAllocated)) .int8
      ∧ ∃ d : DenseTable .int8, ∃ s : SparseTable .int8,
        DenseTable.ofTable .int8 (sparse (SparseTable.scatteredRows .userAllocated)) = .ok d
        ∧ SparseTable.ofTable .int8 (sparse (SparseTable.scatteredRows .userAllocated)) = .ok s
        ∧ d.cells = [1, 0, 0, 0, 0, 0, 0, 1, 0] ∧ s.values = [1, 1] := by
  have hattached : SparseTable.attach (t := .float64) [Double.one, 0, Double.one] [0, 2, 1]
      [0, 2, 2, 3] 3 .zero = .ok (SparseTable.scatteredRows .userAllocated) := by decide +kernel
  have hreachable : Reachable (sparse (SparseTable.scatteredRows .userAllocated)) :=
    .built (.attachedSparse hattached)
  have hreach : InReach (sparse (SparseTable.scatteredRows .userAllocated)) .int8 0 3 := by
    refine ⟨rfl, by decide, by decide, by decide, ?_⟩
    rintro _ ⟨⟩
    decide
  have hcopied := hreachable.copied rfl hreach (by decide)
  refine ⟨hreachable, rfl, hreach, hcopied, ?_⟩
  obtain ⟨d, hd, -⟩ := hcopied.dense
  obtain ⟨s, hs, -⟩ := hcopied.sparse (by decide)
  have hcells : DenseTable.cells <$> DenseTable.ofTable .int8
      (sparse (SparseTable.scatteredRows .userAllocated)) = .ok [1, 0, 0, 0, 0, 0, 0, 1, 0] := by
    decide +kernel
  have hstored : SparseTable.values <$> SparseTable.ofTable .int8
      (sparse (SparseTable.scatteredRows .userAllocated)) = .ok [1, 1] := by decide +kernel
  rw [hd] at hcells
  rw [hs] at hstored
  exact ⟨d, s, hd, hs, Except.ok.inj hcells, Except.ok.inj hstored⟩

end Table

end Tabular
