import Tabular.Block
import Tabular.Proofs.Cells.Columns
import Tabular.Proofs.Cells.Dense
import Tabular.Proofs.Cells.Fields
import Tabular.Table

/-!
# Cells that are lent out

A table that stores the cells of a selection one after the other can lend them out instead of
copying them. `Lends` says of a kind of table that what is lent is what would be read, and that
putting other values in its place is the same as writing them.

* `DenseTable.lends`, `ColumnTable.lends`: rows of a dense table, columns, and the only column of
  either kind seen as rows or as a column;
* `Table.Contiguous` and `Table.lends`: the same of tables of these two kinds among all tables.
-/

namespace Tabular

open TableLike

/-! ## Lending -/

namespace Selection

variable {τ : Type} [TableLike τ]

/-- The type in which the cells can be lent out. -/
def directType (sel : Selection) (x : τ) : Option ScalarType :=
  match sel.column with
  | none => directRowType x
  | some column => directColumnType x column

/-- The cells that are lent out, and the table with other values in their place. -/
def direct (sel : Selection) (x : τ) (u : ScalarType) :
    Option (List u.Value × (List u.Value → τ)) :=
  match sel.column with
  | none => directRowValues x u sel.range
  | some column => directColumnValues x u column sel.range

/-- The cells are lent out in one type only. -/
theorem direct_eq_none {sel : Selection} {x : τ} {u : ScalarType} (h : sel.directType x ≠ some u) :
    sel.direct x u = none := by
  rcases sel with ⟨column, range⟩
  cases column with
  | none => exact if_neg h
  | some column => exact if_neg h

end Selection

theorem DirectView.values?_self {τ : Type} {u : ScalarType} (values : List u.Value)
    (put : List u.Value → τ) : values? ⟨⟨u, values⟩, put⟩ u = some (values, put) :=
  dif_pos rfl

section Laws

variable {τ : Type} [TableLike τ] {P : τ → Prop} {cell : τ → Nat → Nat → Cell}

theorem directRowValues_eq {x : τ} {u : ScalarType} {range : RowRange} {values : List u.Value}
    {put : List u.Value → τ} (htype : directRowType x = some u)
    (hview : directRows x range = some ⟨⟨u, values⟩, put⟩) :
    directRowValues x u range = some (values, put) := by
  rw [directRowValues, if_pos htype, hview, Option.bind_some, DirectView.values?_self]

theorem directColumnValues_eq {x : τ} {u : ScalarType} {column : Nat} {range : RowRange}
    {values : List u.Value} {put : List u.Value → τ} (htype : directColumnType x column = some u)
    (hview : directColumn x column range = some ⟨⟨u, values⟩, put⟩) :
    directColumnValues x u column range = some (values, put) := by
  rw [directColumnValues, if_pos htype, hview, Option.bind_some, DirectView.values?_self]

/-- The cells of the selection can be lent out in a type, as they are read, and what is put in their
place is written. -/
def Lent (sel : Selection) (x : τ) (u : ScalarType) : Prop :=
  ∃ values put, sel.direct x u = some (values, put)
    ∧ sel.read x u (sel.count (columns x)) = .ok values
    ∧ ∀ others, others.length = sel.count (columns x) → sel.write x u others = .ok (put others)

/-- A kind of table goes through its cells, also where it lends them out. -/
structure Lends (P : τ → Prop) (cell : τ → Nat → Nat → Cell) : Prop where
  celled : Celled P cell
  lent : ∀ {x : τ} {sel : Selection} {u : ScalarType}, P x → sel.check x = .ok () →
    sel.range.stop < wordLimit → sel.directType x = some u → Lent sel x u

/-- A table may go through its cells as one of several kinds. -/
theorem Lends.of_forall
    (h : ∀ x, P x → ∃ Q : τ → Prop, Lends Q cell ∧ Q x ∧ ∀ y, Q y → P y) : Lends P cell := by
  refine ⟨⟨?_, ?_⟩, ?_⟩
  · intro x sel d length hx
    rcases h x hx with ⟨Q, hlends, hopen, _⟩
    exact hlends.celled.read sel d length hopen
  · intro x sel s values hx
    rcases h x hx with ⟨Q, hlends, hopen, hclose⟩
    rcases hlends.celled.write sel s values hopen with ⟨y, hy, hwritten⟩
    refine ⟨y, hy, fun hcheck hnumber => ?_⟩
    exact ⟨hclose y (hwritten hcheck hnumber).1, (hwritten hcheck hnumber).2⟩
  · intro x sel u hx
    rcases h x hx with ⟨Q, hlends, hopen, _⟩
    exact hlends.lent hopen

end Laws

/-! ## Dense tables -/

namespace DenseTable

variable {t : ScalarType} {d : DenseTable t} {range : RowRange}

theorem rows?_eq (h : d.Sound) (haccess : d.checkAccess range = .ok ()) :
    d.rows? range
      = some (slice d.cells (range.start * d.columns) (range.stop * d.columns)) := by
  rcases checkAccess_eq_ok_iff.1 haccess with ⟨hstatus, hstart, hstop⟩
  rw [rows?, if_pos ⟨hstart, hstop⟩]
  exact if_pos ⟨Nat.mul_le_mul_right _ hstart, h.window_le hstatus hstop⟩

theorem directRows_eq (h : d.Sound) (haccess : d.checkAccess range = .ok ()) :
    d.directRows range
      = some ⟨⟨t, slice d.cells (range.start * d.columns) (range.stop * d.columns)⟩,
          d.withRows range⟩ := by
  rw [directRows, rows?_eq h haccess]
  rfl

/-- The only column of a table is what its rows are. -/
theorem column_eq_slice (hone : d.columns = 1) :
    Strided.toList ⟨d.cells, range.start * d.columns + 0, d.columns, range.size⟩
      = slice d.cells (range.start * d.columns) (range.stop * d.columns) := by
  rw [hone, Nat.mul_one, Nat.mul_one, Nat.add_zero, Strided.toList_one, slice, RowRange.size]

theorem withColumn_eq_withRows (h : d.Sound) (haccess : d.checkAccess range = .ok ())
    (hone : d.columns = 1) {values : List t.Value} (hlength : values.length = range.size) :
    d.withColumn 0 range values = d.withRows range values := by
  rcases checkAccess_eq_ok_iff.1 haccess with ⟨hstatus, hstart, hstop⟩
  have hend := h.window_le hstatus hstop
  rw [hone, Nat.mul_one] at hend
  have hinside : range.start + values.length ≤ d.cells.length := by
    rw [hlength, RowRange.size]
    omega
  rw [withColumn, withRows, hone, Nat.mul_one, Nat.add_zero, Strided.scatter_one hinside]

theorem lent_rows (h : d.Sound) (haccess : d.checkAccess range = .ok ()) :
    Lent ⟨none, range⟩ d t := by
  have hstatus := (checkAccess_eq_ok_iff.1 haccess).1
  refine ⟨_, _, directRowValues_eq (if_pos hstatus) (directRows_eq h haccess), ?_, ?_⟩
  · have hread : d.readRows range t (range.size * d.columns)
        = .ok (slice d.cells (range.start * d.columns) (range.stop * d.columns)) := by
      rw [readRows, bind_of_ok haccess, bind_of_ok (checkLength_eq_ok_iff.2 rfl)]
      exact congrArg Except.ok (ScalarType.convertAll_self _ _)
    exact hread
  · intro others hlength
    have hcount : checkLength (range.size * d.columns) others.length = .ok () :=
      checkLength_eq_ok_iff.2 hlength.symm
    have hwrite : d.writeRows range t others = .ok (d.withRows range others) := by
      rw [writeRows, bind_of_ok haccess, bind_of_ok hcount, ScalarType.convertAll_self, pure_eq_ok,
        withRows]
    exact hwrite

theorem lent_column (h : d.Sound) (haccess : d.checkAccess range = .ok ())
    (hone : d.columns = 1) : Lent ⟨some 0, range⟩ d t := by
  have hstatus := (checkAccess_eq_ok_iff.1 haccess).1
  have hcolumn : checkColumn 0 d.columns = .ok () := by
    rw [checkColumn_eq_ok_iff, hone]
    exact Nat.zero_lt_one
  have hview : d.directColumn 0 range
      = some ⟨⟨t, slice d.cells (range.start * d.columns) (range.stop * d.columns)⟩,
          d.withRows range⟩ := by
    rw [directColumn, if_pos ⟨hone, rfl⟩, directRows_eq h haccess]
  refine ⟨_, _, directColumnValues_eq (if_pos ⟨hone, rfl, hstatus⟩) hview, ?_, ?_⟩
  · have hread : d.readColumn 0 range t range.size
        = .ok (slice d.cells (range.start * d.columns) (range.stop * d.columns)) := by
      rw [readColumn, bind_of_ok hcolumn, bind_of_ok haccess,
        bind_of_ok (checkLength_eq_ok_iff.2 rfl)]
      exact congrArg Except.ok
        ((ScalarType.convertAll_self _ _).trans (column_eq_slice hone))
    exact hread
  · intro others hlength
    have hcount : checkLength range.size others.length = .ok () :=
      checkLength_eq_ok_iff.2 hlength.symm
    have hwrite : d.writeColumn 0 range t others = .ok (d.withRows range others) := by
      rw [writeColumn, bind_of_ok hcolumn, bind_of_ok haccess, bind_of_ok hcount,
        ScalarType.convertAll_self, pure_eq_ok, ← withColumn_eq_withRows h haccess hone hlength,
        withColumn]
    exact hwrite

theorem lends : Lends Sound (cell (t := t)) := by
  refine ⟨celled, ?_⟩
  rintro d ⟨column, range⟩ u h hcheck _ htype
  cases column with
  | none =>
      have hrow : (if d.status.isAllocated then some t else none) = some u := htype
      split at hrow
      · cases hrow
        exact lent_rows h hcheck
      · cases hrow
  -- a column is lent out when it is the only one
  | some column =>
      have haccess := (check_bind_eq_ok_iff.1 ((Selection.check_column d column range).symm.trans
        hcheck)).2
      have hcolumn : (if d.columns = 1 ∧ column = 0 ∧ d.status.isAllocated then some t else none)
          = some u := htype
      split at hcolumn
      · rename_i hone
        rcases hone with ⟨hone, rfl, _⟩
        cases hcolumn
        exact lent_column h haccess hone
      · cases hcolumn

end DenseTable

/-! ## Tables of columns -/

theorem interleave_singleton {α : Type _} (column : List α) :
    interleave column.length [column] = column := by
  induction column with
  | nil => rfl
  | cons item rest ih =>
      rw [List.length_cons, interleave, List.map_singleton, List.tail_cons, ih]
      · rfl
      · intro hnone
        cases hnone

namespace ColumnTable

variable {c : ColumnTable} {range : RowRange} {vector : ScalarVector}

theorem readVector_self (vector : ScalarVector) (range : RowRange) :
    readVector vector range vector.type = slice vector.values range.start range.stop :=
  ScalarType.convertAll_self _ _

theorem directColumn_eq {column : Nat} (hvector : c.vectors[column]? = some vector)
    (haccess : c.checkAccess range = .ok ()) :
    c.directColumn column range
      = some ⟨⟨vector.type, slice vector.values range.start range.stop⟩, fun values =>
          { c with vectors := c.writtenColumn column vector range vector.type values }⟩ := by
  rcases checkAccess_eq_ok_iff.1 haccess with ⟨_, hstart, hstop⟩
  rw [directColumn, if_pos ⟨hstart, hstop⟩, hvector]
  rfl

theorem lent_column {column : Nat} (hvector : c.vectors[column]? = some vector)
    (haccess : c.checkAccess range = .ok ()) : Lent ⟨some column, range⟩ c vector.type := by
  have hfound : c.vector column = .ok vector := by rw [ColumnTable.vector, hvector]
  have htype : c.vectors[column]?.map ScalarVector.type = some vector.type := by rw [hvector]; rfl
  refine ⟨_, _, directColumnValues_eq htype (directColumn_eq hvector haccess), ?_, ?_⟩
  · have hread : c.readColumn column range vector.type range.size
        = .ok (slice vector.values range.start range.stop) := by
      rw [readColumn, hfound, ok_bind, bind_of_ok haccess,
        bind_of_ok (checkLength_eq_ok_iff.2 rfl), readVector_self, pure_eq_ok]
    exact hread
  · intro others hlength
    have hcount : checkLength range.size others.length = .ok () :=
      checkLength_eq_ok_iff.2 hlength.symm
    have hwrite : c.writeColumn column range vector.type others
        = .ok { c with vectors := c.writtenColumn column vector range vector.type others } := by
      rw [writeColumn, hfound, ok_bind, bind_of_ok haccess, bind_of_ok hcount, pure_eq_ok,
        writtenColumn]
    exact hwrite

/-- The only column of a table is what its rows are. -/
theorem lent_rows (h : c.Backed) (hone : c.vectors = [vector])
    (haccess : c.checkAccess range = .ok ()) (hword : range.stop < wordLimit) :
    Lent ⟨none, range⟩ c vector.type := by
  have hcells : (countTerm range.size 1).value = .ok range.size := by
    refine countTerm_eq_ok_iff.2 ⟨?_, Nat.mul_one _⟩
    rw [Nat.mul_one]
    exact Nat.lt_of_le_of_lt (Nat.sub_le _ _) hword
  rcases checkAccess_eq_ok_iff.1 haccess with ⟨_, hstart, hstop⟩
  have hvector : c.vectors[0]? = some vector := by rw [hone]; rfl
  have hlength : vector.length = c.rows := h.sound.lengths vector (List.mem_of_getElem? hvector)
  have hwidth : c.vectors.length = 1 := by rw [hone]; rfl
  have htype : c.directRowType = some vector.type := by
    rw [directRowType, hone]
    exact if_pos h.allocated
  have hview : c.directRows range = some _ :=
    (if_pos hwidth).trans (directColumn_eq hvector haccess)
  have hcount : Selection.count ⟨none, range⟩ (TableLike.columns c) = range.size := by
    rw [h.columns_eq, hwidth]
    exact Nat.mul_one _
  refine ⟨_, _, directRowValues_eq htype hview, ?_, ?_⟩
  · have hsize : (slice vector.values range.start range.stop).length = range.size :=
      length_slice (by rw [ScalarVector.length] at hlength; omega)
    have hread : c.readRows range vector.type range.size
        = .ok (slice vector.values range.start range.stop) := by
      rw [readRows, bind_of_ok haccess, hwidth, hcells, ok_bind,
        bind_of_ok (checkLength_eq_ok_iff.2 rfl), hone, List.map_singleton, readVector_self,
        ← hsize, interleave_singleton, pure_eq_ok]
    rw [hcount]
    exact hread
  · intro others hothers
    rw [hcount] at hothers
    have hwalk : Strided.toList ⟨others, 0, 1, range.size⟩ = others := by
      rw [Strided.toList_one, List.drop_zero, ← hothers, List.take_length]
    have hlengths : checkLength range.size others.length = .ok () :=
      checkLength_eq_ok_iff.2 hothers.symm
    have hwrite : c.writeRows range vector.type others
        = .ok { c with vectors := c.writtenColumn 0 vector range vector.type others } := by
      rw [writeRows, bind_of_ok haccess]
      simp only [hone, List.length_singleton, hcells, ok_bind]
      rw [bind_of_ok hlengths, List.mapIdx_singleton, hwalk, pure_eq_ok, writtenColumn, hone]
      rfl
    exact hwrite

theorem lends : Lends Backed cell := by
  refine ⟨celled, ?_⟩
  rintro c ⟨column, range⟩ u h hcheck hword htype
  cases column with
  | none =>
      have hrow : c.directRowType = some u := htype
      rw [directRowType] at hrow
      split at hrow
      · rename_i hone
        rw [if_pos h.allocated] at hrow
        cases hrow
        exact lent_rows h hone hcheck hword
      · cases hrow
  | some column =>
      have haccess := (check_bind_eq_ok_iff.1 ((Selection.check_column c column range).symm.trans
        hcheck)).2
      have hcolumn : c.vectors[column]?.map ScalarVector.type = some u := htype
      rcases Option.map_eq_some_iff.1 hcolumn with ⟨vector, hvector, rfl⟩
      exact lent_column hvector haccess

end ColumnTable

/-! ## Tables of several kinds -/

/-- Tables of a kind, seen among tables of several kinds, answer as they do on their own. -/
structure Embeds {σ τ : Type} [TableLike σ] [TableLike τ] (close : σ → τ) : Prop where
  rows : ∀ x, rows (close x) = rows x
  columns : ∀ x, columns (close x) = columns x
  layout : ∀ x, layout (close x) = layout x
  tag : ∀ x, tag (close x) = tag x
  status : ∀ x, status (close x) = status x
  dictionary : ∀ x, dictionary (close x) = dictionary x
  readRows : ∀ x, readRows (close x) = readRows x
  writeRows : ∀ x range s values,
    writeRows (close x) range s values = close <$> writeRows x range s values
  readColumn : ∀ x, readColumn (close x) = readColumn x
  writeColumn : ∀ x column range s values,
    writeColumn (close x) column range s values = close <$> writeColumn x column range s values
  directRowType : ∀ x, directRowType (close x) = directRowType x
  directRows : ∀ x range, directRows (close x) range = (directRows x range).map (·.map close)
  directColumnType : ∀ x, directColumnType (close x) = directColumnType x
  directColumn : ∀ x column range,
    directColumn (close x) column range = (directColumn x column range).map (·.map close)

namespace Embeds

variable {σ τ : Type} [TableLike σ] [TableLike τ] {close : σ → τ}

theorem frame (e : Embeds close) {x y : σ} (h : SameFrame x y) :
    SameFrame (close x) (close y) := by
  refine ⟨?_, ?_, ?_, ?_, ?_, ?_⟩
  · rw [e.rows, e.rows, h.rows]
  · rw [e.columns, e.columns, h.columns]
  · rw [e.layout, e.layout, h.layout]
  · rw [e.tag, e.tag, h.tag]
  · rw [e.status, e.status, h.status]
  · rw [e.dictionary, e.dictionary, h.dictionary]

theorem check (e : Embeds close) (sel : Selection) (x : σ) : sel.check (close x) = sel.check x := by
  rw [Selection.check, Selection.check, e.columns, e.status, e.rows]

theorem number (e : Embeds close) (sel : Selection) (x : σ) :
    sel.number (close x) = sel.number x :=
  Selection.number_congr (e.columns x) (e.layout x) sel

theorem read (e : Embeds close) (sel : Selection) (x : σ) (d : ScalarType) (length : Nat) :
    sel.read (close x) d length = sel.read x d length := by
  rw [Selection.read, Selection.read, e.readRows, e.readColumn]

theorem write (e : Embeds close) (sel : Selection) (x : σ) (s : ScalarType)
    (values : List s.Value) : sel.write (close x) s values = close <$> sel.write x s values := by
  rcases sel with ⟨column, range⟩
  cases column with
  | none => exact e.writeRows x range s values
  | some column => exact e.writeColumn x column range s values

theorem directType (e : Embeds close) (sel : Selection) (x : σ) :
    sel.directType (close x) = sel.directType x := by
  rw [Selection.directType, Selection.directType, e.directRowType, e.directColumnType]

/-- What is lent out, with the table closed again. -/
def closing (close : σ → τ) {u : ScalarType} (lent : List u.Value × (List u.Value → σ)) :
    List u.Value × (List u.Value → τ) :=
  (lent.1, fun values => close (lent.2 values))

omit [TableLike σ] [TableLike τ] in
theorem values?_map (close : σ → τ) (view : DirectView σ) (u : ScalarType) :
    (view.map close).values? u = (view.values? u).map (closing close) := by
  rw [DirectView.values?, DirectView.values?]
  by_cases htype : view.cells.type = u
  · rw [dif_pos htype]
    exact dif_pos htype
  · rw [dif_neg htype]
    exact dif_neg htype

omit [TableLike σ] [TableLike τ] in
theorem bind_values?_map (close : σ → τ) (view : Option (DirectView σ)) (u : ScalarType) :
    (view.map (·.map close)).bind (·.values? u)
      = (view.bind (·.values? u)).map (closing close) := by
  cases view with
  | none => rfl
  | some view => exact values?_map close view u

theorem direct (e : Embeds close) (sel : Selection) (x : σ) (u : ScalarType) :
    sel.direct (close x) u = (sel.direct x u).map (closing close) := by
  rcases sel with ⟨column, range⟩
  cases column with
  | none =>
      have hrows : directRowValues (close x) u range
          = (directRowValues x u range).map (closing close) := by
        rw [directRowValues, directRowValues, e.directRowType, e.directRows, bind_values?_map,
          apply_ite (Option.map (closing close)), Option.map_none]
      exact hrows
  | some column =>
      have hcolumn : directColumnValues (close x) u column range
          = (directColumnValues x u column range).map (closing close) := by
        rw [directColumnValues, directColumnValues, e.directColumnType, e.directColumn,
          bind_values?_map, apply_ite (Option.map (closing close)), Option.map_none]
      exact hcolumn

theorem lends (e : Embeds close) {P : σ → Prop} {cell : σ → Nat → Nat → Cell} (h : Lends P cell)
    {cell' : τ → Nat → Nat → Cell} (hcell : ∀ x, cell' (close x) = cell x) :
    Lends (fun y => ∃ x, P x ∧ close x = y) cell' := by
  refine ⟨⟨?_, ?_⟩, ?_⟩
  · rintro _ sel d length ⟨x, hx, rfl⟩
    rw [e.read, e.check, e.number, e.columns, hcell]
    exact h.celled.read sel d length hx
  · rintro _ sel s values ⟨x, hx, rfl⟩
    rcases h.celled.write sel s values hx with ⟨y, hy, hwritten⟩
    -- the table is closed after the checks and the write of its kind
    refine ⟨close y, ?_, ?_⟩
    · rw [e.write, e.check, e.number, hy, map_bind]
      refine bind_congr fun _ => ?_
      rw [map_bind]
      refine bind_congr fun _ => ?_
      rw [map_bind]
      rfl
    · rw [e.check, e.number]
      intro hcheck hnumber
      rcases hwritten hcheck hnumber with ⟨hy, hframe, hcells⟩
      refine ⟨⟨y, hy, rfl⟩, e.frame hframe, ?_⟩
      rw [e.columns, hcell, hcell]
      exact hcells
  · rintro _ sel u ⟨x, hx, rfl⟩
    rw [e.check, e.directType]
    intro hcheck hword htype
    rcases h.lent hx hcheck hword htype with ⟨values, put, hdirect, hread, hwrite⟩
    refine ⟨values, fun others => close (put others), ?_, ?_, ?_⟩
    · rw [e.direct, hdirect]
      rfl
    · rw [e.read, e.columns]
      exact hread
    · rw [e.columns]
      intro others hlength
      rw [e.write, hwrite others hlength, map_ok]

end Embeds

namespace Table

/-- The cell at a row and a column, as it is stored or, where the table does not store it, as it
reads. -/
def cell : Table → (row column : Nat) → Cell
  | dense table => table.cell
  | records table => table.cell
  | columns table => table.cell
  | sparse (t := t) table => fun row column => ⟨t, (table.get? row column).getD 0⟩
  | packed (t := t) table => fun row column => ⟨t, (table.get? row column).getD 0⟩

theorem embeds_dense {t : ScalarType} : Embeds (dense (t := t)) :=
  ⟨fun _ => rfl, fun _ => rfl, fun _ => rfl, fun _ => rfl, fun _ => rfl, fun _ => rfl, fun _ => rfl,
    fun _ _ _ _ => rfl, fun _ => rfl, fun _ _ _ _ _ => rfl, fun _ => rfl, fun _ _ => rfl,
    fun _ => rfl, fun _ _ _ => rfl⟩

theorem embeds_columns : Embeds columns :=
  ⟨fun _ => rfl, fun _ => rfl, fun _ => rfl, fun _ => rfl, fun _ => rfl, fun _ => rfl, fun _ => rfl,
    fun _ _ _ _ => rfl, fun _ => rfl, fun _ _ _ _ _ => rfl, fun _ => rfl, fun _ _ => rfl,
    fun _ => rfl, fun _ _ _ => rfl⟩

theorem embeds_records : Embeds records :=
  ⟨fun _ => rfl, fun _ => rfl, fun _ => rfl, fun _ => rfl, fun _ => rfl, fun _ => rfl, fun _ => rfl,
    fun _ _ _ _ => rfl, fun _ => rfl, fun _ _ _ _ _ => rfl, fun _ => rfl, fun _ _ => rfl,
    fun _ => rfl, fun _ _ _ => rfl⟩

theorem embeds_sparse {t : ScalarType} : Embeds (sparse (t := t)) :=
  ⟨fun _ => rfl, fun _ => rfl, fun _ => rfl, fun _ => rfl, fun _ => rfl, fun _ => rfl, fun _ => rfl,
    fun _ _ _ _ => rfl, fun _ => rfl, fun _ _ _ _ _ => rfl, fun _ => rfl, fun _ _ => rfl,
    fun _ => rfl, fun _ _ _ => rfl⟩

/-- Records are never lent out. -/
theorem directType_records (sel : Selection) (r : RecordTable) :
    sel.directType (records r) = none := by
  rcases sel with ⟨column, range⟩
  cases column <;> rfl

theorem directType_sparse (sel : Selection) {t : ScalarType} (s : SparseTable t) :
    sel.directType (sparse s) = none := by
  rcases sel with ⟨column, range⟩
  cases column <;> rfl

theorem directType_packed (sel : Selection) {t : ScalarType} (p : PackedTable t) :
    sel.directType (packed p) = none := by
  rcases sel with ⟨column, range⟩
  cases column <;> rfl

/-- A dense table or a table of columns that has its storage. -/
inductive Contiguous : Table → Prop
  | dense {t : ScalarType} {table : DenseTable t} (h : table.Sound) : Contiguous (dense table)
  | columns {table : ColumnTable} (h : table.Backed) : Contiguous (columns table)

theorem lends : Lends Contiguous cell := by
  refine .of_forall ?_
  intro x hx
  cases hx with
  | dense h =>
      refine ⟨_, embeds_dense.lends DenseTable.lends (fun _ => rfl), ⟨_, h, rfl⟩, ?_⟩
      rintro _ ⟨table, htable, rfl⟩
      exact .dense htable
  | columns h =>
      refine ⟨_, embeds_columns.lends ColumnTable.lends (fun _ => rfl), ⟨_, h, rfl⟩, ?_⟩
      rintro _ ⟨table, htable, rfl⟩
      exact .columns htable

end Table

end Tabular
