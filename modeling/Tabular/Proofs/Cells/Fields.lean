import Tabular.Proofs.Cells.Grid
import Tabular.Proofs.Cells.Records
import Tabular.Proofs.Scalar.Bytes

/-!
# Cells of records whose fields do not meet

In general the fields of a record may share bytes. Where they do not, writing a cell leaves all
other cells alone, so that such records are a grid of cells like any other table: `celled`.
-/

namespace Tabular

namespace Field

/-- The fields share no byte. -/
def Apart (f g : Field) : Prop :=
  f.offset + f.type.size ≤ g.offset ∨ g.offset + g.type.size ≤ f.offset

theorem Apart.symm {f g : Field} (h : f.Apart g) : g.Apart f := Or.symm h

end Field

namespace RecordTable

open PackedTable (placesOf)

variable {r : RecordTable} {f : Field} {range : RowRange}

/-! ## Cells -/

/-- The field of a column. -/
def fieldAt (r : RecordTable) (column : Nat) : Field := (r.fields[column]?).getD ⟨.float64, 0⟩

theorem fieldAt_eq {column : Nat} (hcolumn : column < r.columns) :
    r.fieldAt column = r.fields[column] := by
  have hfield : r.fields[column]? = some r.fields[column] := List.getElem?_eq_getElem hcolumn
  rw [fieldAt, hfield]
  rfl

/-- The value of a field in a row, and a zero beyond the table. -/
def valueAt (r : RecordTable) (row : Nat) (f : Field) : f.type.Value :=
  let start := row * r.recordSize + f.offset
  if row < r.rows then f.type.ofBytes (slice r.bytes start (start + f.type.size)) else 0

/-- The cell at a row and a column. -/
def cell (r : RecordTable) (row column : Nat) : Cell :=
  ⟨(r.fieldAt column).type, r.valueAt row (r.fieldAt column)⟩

/-- The records are stored without gaps, end where the storage does, and have fields that share no
bytes. Records that are too large for storage are of no account: there are none of them. -/
structure Parted (r : RecordTable) : Prop where
  full : r.bytes.length = r.rows * r.recordSize
  room : r.rows * r.recordSize ≤ maxBytes
  allocated : r.status.isAllocated
  inside : r.recordSize ≤ maxBytes → ∀ f ∈ r.fields, f.offset + f.type.size ≤ r.recordSize
  apart : r.recordSize ≤ maxBytes → r.fields.Pairwise Field.Apart

namespace Parted

theorem flat (h : r.Parted) : r.Flat := by
  refine ⟨h.full, ?_⟩
  rw [h.full]
  exact Nat.lt_of_le_of_lt h.room (by decide)

/-- Where there is a row, a record fits in the storage. -/
theorem recordSize_le (h : r.Parted) {row : Nat} (hrow : row < r.rows) :
    r.recordSize ≤ maxBytes :=
  Nat.le_trans (Nat.le_mul_of_pos_left _ (Nat.zero_lt_of_lt hrow)) h.room

theorem fieldAt_mem {column : Nat} (hcolumn : column < r.columns) :
    r.fieldAt column ∈ r.fields := by
  rw [fieldAt_eq hcolumn]
  exact List.getElem_mem hcolumn

theorem fits (h : r.Parted) {row column : Nat} (hrow : row < r.rows)
    (hcolumn : column < r.columns) :
    (r.fieldAt column).offset + (r.fieldAt column).type.size ≤ r.recordSize :=
  h.inside (h.recordSize_le hrow) _ (fieldAt_mem hcolumn)

theorem fieldAt_apart (h : r.Parted) {row column other : Nat} (hrow : row < r.rows)
    (hcolumn : column < r.columns) (hother : other < r.columns) (hne : column ≠ other) :
    (r.fieldAt column).Apart (r.fieldAt other) := by
  have hpairs := List.pairwise_iff_getElem.1 (h.apart (h.recordSize_le hrow))
  rw [fieldAt_eq hcolumn, fieldAt_eq hother]
  rcases Nat.lt_or_gt_of_ne hne with hlt | hlt
  · exact hpairs column other hcolumn hother hlt
  · exact (hpairs other column hother hcolumn hlt).symm

end Parted

/-! ## Places -/

/-- A place of the grid, as a place among the fields. -/
def named (r : RecordTable) (place : Nat × Nat) : Nat × Field := (place.1, r.fieldAt place.2)

/-- The fields that a selection asks for. -/
def asked (r : RecordTable) (sel : Selection) : List Field :=
  match sel.column with
  | none => r.fields
  | some column => [r.fieldAt column]

theorem places_asked (r : RecordTable) (sel : Selection) :
    places (r.asked sel) sel.range = (sel.places r.columns).map r.named := by
  rcases sel with ⟨column, range⟩
  rw [places_eq]
  cases column with
  | none =>
      have hrow : ∀ row, r.fields.map (fun f => (row, f))
          = (List.range r.columns).map fun column => r.named (row, column) := by
        intro row
        apply map_eq_map_range
        intro column f hf
        rw [named, fieldAt, hf, Option.getD_some]
      rw [Selection.places, placesOf, List.map_flatMap]
      refine List.flatMap_congr fun row _ => ?_
      rw [List.map_map]
      exact hrow row
  | some column =>
      rw [Selection.places, List.map_map]
      exact List.map_eq_flatMap.symm

/-! ## Reading -/

theorem Flat.readCell_eq_ok (h : r.Flat) {row column : Nat} (hrow : row < r.rows)
    (hf : (r.fieldAt column).offset + (r.fieldAt column).type.size ≤ r.recordSize)
    (d : ScalarType) :
    r.readCell d row (r.fieldAt column) = .ok ((r.cell row column).as d) := by
  refine readCell_eq_ok_iff.2 ⟨_, h.cellBytes_eq_ok hrow hf, ?_⟩
  rw [Cell.as, cell, valueAt]
  simp only [if_pos hrow]
  rfl

/-- Cells that are asked for are read, also where fields share bytes. -/
theorem Flat.readCells_eq_ok (h : r.Flat) {sel : Selection} (hcheck : sel.check r = .ok ())
    (hfits : ∀ row < r.rows, ∀ column < r.columns,
      (r.fieldAt column).offset + (r.fieldAt column).type.size ≤ r.recordSize) (d : ScalarType) :
    r.readCells (places (r.asked sel) sel.range) d
      = .ok ((sel.places r.columns).map fun place => (r.cell place.1 place.2).as d) := by
  rw [places_asked, readCells, List.mapM_map]
  apply mapM_eq_ok
  intro place hplace
  rcases Selection.inside_of_check hcheck place hplace with ⟨hrow, hcolumn⟩
  exact h.readCell_eq_ok hrow (hfits _ hrow _ hcolumn) d

/-- Looking a field up checks the column. -/
theorem field_bind_eq {β : Type} {column : Nat} {f : Field → Except TableError β}
    {g : Unit → Except TableError β} (h : column < r.columns → f (r.fieldAt column) = g ()) :
    (r.field column >>= f) = (checkColumn column r.columns >>= g) := by
  rw [RecordTable.field, checkColumn]
  by_cases hcolumn : column < r.columns
  · have hfield : r.fields[column]? = some r.fields[column] := List.getElem?_eq_getElem hcolumn
    have hnext := h hcolumn
    rw [fieldAt, hfield, Option.getD_some] at hnext
    rw [if_pos hcolumn, hfield]
    exact hnext
  · rw [if_neg hcolumn, List.getElem?_eq_none (Nat.le_of_not_lt hcolumn)]
    rfl

/-- Cells that are asked for are read when the checks pass. -/
theorem read_eq (r : RecordTable) (sel : Selection) (d : ScalarType) (length : Nat) :
    sel.read r d length = (do
      sel.check r
      checkLength (← sel.number r) length
      r.readCells (places (r.asked sel) sel.range) d) := by
  rcases sel with ⟨column, range⟩
  cases column with
  | none => rfl
  | some column =>
      have hread : Selection.read ⟨some column, range⟩ r d length
          = r.readColumn column range d length := rfl
      rw [hread, readColumn, Selection.check_column, bind_assoc]
      apply field_bind_eq
      intro _
      rfl

/-- Values go to the cells that are asked for when the checks pass. -/
theorem write_eq (r : RecordTable) (sel : Selection) (s : ScalarType) (values : List s.Value) :
    sel.write r s values = (do
      sel.check r
      checkLength (← sel.number r) values.length
      r.writeCells (places (r.asked sel) sel.range) s values) := by
  rcases sel with ⟨column, range⟩
  cases column with
  | none => rfl
  | some column =>
      have hwrite : Selection.write ⟨some column, range⟩ r s values
          = r.writeColumn column range s values := rfl
      rw [hwrite, writeColumn, Selection.check_column, bind_assoc]
      apply field_bind_eq
      intro _
      rfl

section Granted

variable {sel : Selection}

/-- What passes the checks is read. -/
theorem read_of_check (hcheck : sel.check r = .ok ()) (hword : sel.count r.columns < wordLimit)
    (d : ScalarType) :
    sel.read r d (sel.count r.columns) = r.readCells (places (r.asked sel) sel.range) d := by
  have hnumber : sel.number r = .ok (sel.count r.columns) := Selection.number_of_lt hword
  rw [read_eq, bind_of_ok hcheck, hnumber, ok_bind, bind_of_ok (checkLength_eq_ok_iff.2 rfl)]

/-- What passes the checks is written. -/
theorem write_of_check (hcheck : sel.check r = .ok ()) (hword : sel.count r.columns < wordLimit)
    {s : ScalarType} {values : List s.Value} (hlength : values.length = sel.count r.columns) :
    sel.write r s values = r.writeCells (places (r.asked sel) sel.range) s values := by
  have hnumber : sel.number r = .ok (sel.count r.columns) := Selection.number_of_lt hword
  rw [write_eq, bind_of_ok hcheck, hnumber, ok_bind,
    bind_of_ok (checkLength_eq_ok_iff.2 hlength.symm)]

end Granted

/-! ## Writing -/

/-- The table with other bytes. -/
def withBytes (r : RecordTable) (bytes : List UInt8) : RecordTable := { r with bytes }

theorem Parted.withBytes (h : r.Parted) {bytes : List UInt8}
    (hlength : bytes.length = r.bytes.length) : (r.withBytes bytes).Parted :=
  ⟨hlength.trans h.full, h.room, h.allocated, h.inside, h.apart⟩

/-- The table with a value in a cell. -/
def putCell (r : RecordTable) (row column : Nat) (s : ScalarType) (value : s.Value) : RecordTable :=
  r.withBytes (overwrite r.bytes (row * r.recordSize + (r.fieldAt column).offset)
    ((r.fieldAt column).encode s value))

theorem Parted.putCell (h : r.Parted) (row column : Nat) (s : ScalarType) (value : s.Value) :
    (r.putCell row column s value).Parted :=
  h.withBytes (length_overwrite _ _ _)

section Put

variable {row column : Nat} {s : ScalarType} {value : s.Value}

theorem Flat.writeCell_eq_ok (h : r.Flat) (hrow : row < r.rows)
    (hf : f.offset + f.type.size ≤ r.recordSize) :
    r.writeCell row f s value = .ok (r.withBytes
      (overwrite r.bytes (row * r.recordSize + f.offset) (f.encode s value))) := by
  refine writeCell_eq_ok_iff.2 ⟨⟨_, h.cellBytes_eq_ok hrow hf⟩, ?_⟩
  rfl

theorem Parted.writeCell_eq_ok (h : r.Parted) (hrow : row < r.rows) (hcolumn : column < r.columns) :
    r.writeCell row (r.fieldAt column) s value = .ok (r.putCell row column s value) :=
  h.flat.writeCell_eq_ok hrow (h.fits hrow hcolumn)

theorem length_encode (f : Field) (s : ScalarType) (value : s.Value) :
    (f.encode s value).length = f.type.size :=
  f.type.length_toBytes _

/-- A cell that was written has the value. -/
theorem Parted.cell_putCell_self (h : r.Parted) (hrow : row < r.rows)
    (hcolumn : column < r.columns) :
    (r.putCell row column s value).cell row column = (r.cell row column).put s value := by
  have hcell := h.flat.cell_le hrow (h.fits hrow hcolumn)
  have hsize := congrArg (row * r.recordSize + (r.fieldAt column).offset + ·)
    (length_encode (r.fieldAt column) s value)
  have hbytes := slice_overwrite_self hsize hcell
  have hvalue : (r.putCell row column s value).valueAt row (r.fieldAt column)
      = (r.fieldAt column).type.ofBytes ((r.fieldAt column).encode s value) := by
    rw [← hbytes]
    exact if_pos hrow
  rw [Field.encode, ScalarType.ofBytes_toBytes] at hvalue
  exact congrArg (Cell.mk (r.fieldAt column).type) hvalue

/-- A record ends before a later one starts. -/
theorem record_le {row row' : Nat} (size : Nat) (h : row < row') :
    row * size + size ≤ row' * size := by
  rw [← Nat.succ_mul]
  exact Nat.mul_le_mul_right _ h

/-- The bytes of two cells do not meet. -/
theorem Parted.cells_apart (h : r.Parted) (hrow : row < r.rows) (hcolumn : column < r.columns)
    {row' column' : Nat} (hrow' : row' < r.rows) (hcolumn' : column' < r.columns)
    (hne : (row', column') ≠ (row, column)) :
    row' * r.recordSize + (r.fieldAt column').offset + (r.fieldAt column').type.size
        ≤ row * r.recordSize + (r.fieldAt column).offset
      ∨ row * r.recordSize + (r.fieldAt column).offset + (r.fieldAt column).type.size
        ≤ row' * r.recordSize + (r.fieldAt column').offset := by
  have hfits := h.fits hrow hcolumn
  have hfits' := h.fits hrow' hcolumn'
  -- cells of different rows lie in different records
  rcases Nat.lt_trichotomy row' row with hlt | rfl | hlt
  · have hrecord := record_le r.recordSize hlt
    omega
  · have hcolumns : column' ≠ column := by
      rintro rfl
      exact hne rfl
    rcases h.fieldAt_apart hrow hcolumn' hcolumn hcolumns with hapart | hapart
    · omega
    · omega
  · have hrecord := record_le r.recordSize hlt
    omega

/-- All other cells are as they were. -/
theorem Parted.cell_putCell_of_ne (h : r.Parted) (hrow : row < r.rows)
    (hcolumn : column < r.columns) {row' column' : Nat} (hcolumn' : column' < r.columns)
    (hne : (row', column') ≠ (row, column)) :
    (r.putCell row column s value).cell row' column' = r.cell row' column' := by
  have hvalue : (r.putCell row column s value).valueAt row' (r.fieldAt column')
      = r.valueAt row' (r.fieldAt column') := by
    by_cases hrow' : row' < r.rows
    · have hcell := h.flat.cell_le hrow (h.fits hrow hcolumn)
      have hapart := h.cells_apart hrow hcolumn hrow' hcolumn' hne
      rw [← length_encode (r.fieldAt column) s value] at hcell hapart
      have hbytes := slice_overwrite_of_apart hcell hapart
      exact (if_pos hrow').trans ((congrArg _ hbytes).trans (if_pos hrow').symm)
    · exact (if_neg hrow').trans (if_neg hrow').symm
  exact congrArg (Cell.mk (r.fieldAt column').type) hvalue

end Put

/-- Values that are written one after the other to cells that differ all stay. -/
theorem Parted.writeCells_eq_ok (h : r.Parted) {places : List (Nat × Nat)} (hdiffer : places.Nodup)
    (hplaces : ∀ place ∈ places, place.1 < r.rows ∧ place.2 < r.columns) {s : ScalarType}
    (values : List s.Value) :
    ∃ bytes, r.writeCells (places.map r.named) s values = .ok (r.withBytes bytes)
      ∧ (r.withBytes bytes).Parted
      ∧ ∀ row column, column < r.columns → (r.withBytes bytes).cell row column
        = (r.cell row column).afterWrite s ((places.zip values).lookup (row, column)) := by
  induction places generalizing r values with
  | nil => exact ⟨r.bytes, rfl, h, fun _ _ _ => rfl⟩
  | cons place places ih =>
      cases values with
      | nil => exact ⟨r.bytes, rfl, h, fun _ _ _ => rfl⟩
      | cons value values =>
          rcases place with ⟨row, column⟩
          rcases List.forall_mem_cons.1 hplaces with ⟨⟨hrow, hcolumn⟩, hrest⟩
          rcases List.nodup_cons.1 hdiffer with ⟨hfirst, hdiffer⟩
          rcases ih (h.putCell row column s value) hdiffer hrest values
            with ⟨bytes, hbytes, hafter, hcells⟩
          refine ⟨bytes, ?_, hafter, ?_⟩
          · have hwrite : r.writeCell row (r.fieldAt column) s value
                = .ok (r.putCell row column s value) := h.writeCell_eq_ok hrow hcolumn
            rw [writeCells, List.map_cons, List.zip_cons_cons, List.foldlM_cons]
            exact (congrArg (· >>= _) hwrite).trans hbytes
          · intro row' column' hcolumn'
            refine (hcells row' column' hcolumn').trans ?_
            rw [List.zip_cons_cons, List.lookup_cons]
            by_cases hsame : (row', column') = (row, column)
            -- no later value goes to the first cell
            · cases hsame
              rw [h.cell_putCell_self hrow hcolumn, lookup_zip_of_not_mem hfirst, beq_self_eq_true]
              rfl
            · rw [h.cell_putCell_of_ne hrow hcolumn hcolumn' hsame, beq_false_of_ne hsame]

theorem celled : Celled Parted cell := by
  refine ⟨?_, ?_⟩
  · intro r sel d length h
    rw [read_eq]
    refine bind_congr_of_ok fun hcheck => bind_congr fun _ => bind_congr_of_ok fun _ => ?_
    exact h.flat.readCells_eq_ok hcheck (fun row hrow column hcolumn => h.fits hrow hcolumn) d
  · intro r sel s values h
    rw [write_eq, places_asked]
    by_cases hcheck : sel.check r = .ok ()
    · have hinside := Selection.inside_of_check hcheck
      rcases h.writeCells_eq_ok (sel.nodup_places r.columns) hinside values
        with ⟨bytes, hbytes, hafter, hcells⟩
      refine ⟨r.withBytes bytes, ?_, fun _ _ => ⟨hafter, ⟨rfl, rfl, rfl, rfl, rfl, rfl⟩, hcells⟩⟩
      rw [hbytes]
      rfl
    -- what does not pass the checks is refused
    · exact ⟨r, bind_congr_of_ok fun hok => absurd hok hcheck, fun hok => absurd hok hcheck⟩

/-! ## Changing the number of rows -/

/-- The table with another number of rows. -/
def withRowCount (r : RecordTable) (count : Nat) : RecordTable :=
  { r with rows := count, bytes := fitLength r.bytes (count * r.recordSize) 0 }

theorem resize_eq_ok (h : r.Parted) (howned : r.status = .internallyAllocated) {count : Nat}
    (hroom : count * r.recordSize ≤ maxBytes) : r.resize count = .ok (r.withRowCount count) := by
  have hbytes : count * r.recordSize < wordLimit := Nat.lt_of_le_of_lt hroom maxBytes_lt_wordLimit
  have hreserve : reserve (count * r.recordSize) 1 = .ok () := by
    rw [reserve_eq_ok_iff, Nat.mul_one]
    exact hroom
  rw [RecordTable.resize]
  by_cases hsame : count = r.rows
  -- a table that has the rows already is left alone, which is what fitting does too
  · have hfit : fitLength r.bytes (r.rows * r.recordSize) 0 = r.bytes := by
      rw [← h.full, fitLength_length]
    rw [if_pos hsame, withRowCount, hsame, hfit]
    rfl
  · rw [if_neg hsame]
    simp only [howned, cellCount_eq_ok_iff.2 ⟨hbytes, rfl⟩, hreserve, ok_bind, ite_self, pure_eq_ok,
      withRowCount]

theorem Parted.withRowCount (h : r.Parted) {count : Nat} (hroom : count * r.recordSize ≤ maxBytes) :
    (r.withRowCount count).Parted :=
  ⟨length_fitLength _ _ _, hroom, h.allocated, h.inside, h.apart⟩

/-- A row of the table keeps its values, and a row behind the table has zeros. -/
theorem valueAt_withRowCount (hfull : r.bytes.length = r.rows * r.recordSize)
    (hf : f.offset + f.type.size ≤ r.recordSize) {count row : Nat} (hrow : row < count) :
    (r.withRowCount count).valueAt row f = r.valueAt row f := by
  have hcell : row * r.recordSize + f.offset + f.type.size ≤ count * r.recordSize :=
    cell_le_rows hrow hf
  refine (if_pos hrow).trans ?_
  by_cases hold : row < r.rows
  · have hstored : row * r.recordSize + f.offset + f.type.size ≤ r.bytes.length := by
      rw [hfull]
      exact cell_le_rows hold hf
    refine (congrArg _ ?_).trans (if_pos hold).symm
    exact slice_fitLength 0 hstored hcell
  · have hbeyond : r.bytes.length ≤ row * r.recordSize + f.offset := by
      rw [hfull]
      exact Nat.le_trans (Nat.mul_le_mul_right _ (Nat.le_of_not_lt hold)) (Nat.le_add_right _ _)
    refine (ScalarType.ofBytes_zeros _ ?_).trans (if_neg hold).symm
    intro b hb
    exact eq_of_mem_slice_fitLength hbeyond hb

/-- Fields have to end inside the record only if there are rows. -/
theorem resized_withRowCount (hfull : r.bytes.length = r.rows * r.recordSize) {count : Nat}
    (hfits : ∀ row < count, ∀ column < r.columns,
      (r.fieldAt column).offset + (r.fieldAt column).type.size ≤ r.recordSize) :
    Resized cell count r (r.withRowCount count) := by
  refine ⟨rfl, rfl, rfl, ?_⟩
  intro row column hcolumn
  by_cases hrow : row < count
  · rw [if_pos hrow]
    exact congrArg (Cell.mk (r.fieldAt column).type)
      (valueAt_withRowCount hfull (hfits row hrow column hcolumn) hrow)
  · rw [if_neg hrow]
    exact congrArg (Cell.mk (r.fieldAt column).type) (if_neg hrow)

/-- The table owns storage for records of a size. -/
structure Owned (size : Nat) (r : RecordTable) : Prop where
  owned : r.status = .internallyAllocated
  recordSize : r.recordSize = size

/-- Writing changes nothing but bytes. -/
theorem withBytes_of_write {r' : RecordTable} {sel : Selection} {s : ScalarType}
    {values : List s.Value} (h : sel.write r s values = .ok r') :
    ∃ bytes, r.withBytes bytes = r' := by
  rw [write_eq] at h
  rcases check_bind_eq_ok_iff.1 h with ⟨_, h⟩
  rcases bind_eq_ok_iff.1 h with ⟨_, _, h⟩
  rcases check_bind_eq_ok_iff.1 h with ⟨_, h⟩
  refine keeps_of_foldlM (P := fun after => ∃ bytes, r.withBytes bytes = after) ?_ ⟨r.bytes, rfl⟩ h
  rintro before place after ⟨bytes, rfl⟩ hafter
  rcases writeCell_eq_ok_iff.1 hafter with ⟨_, rfl⟩
  exact ⟨_, rfl⟩

theorem elastic (size : Nat) : Elastic size (fun r => r.Parted ∧ r.Owned size) cell := by
  refine ⟨celled.and ?_, ?_⟩
  · intro x y sel s values _ howned hy
    rcases withBytes_of_write hy with ⟨bytes, rfl⟩
    exact ⟨howned.owned, howned.recordSize⟩
  · rintro r count ⟨h, howned⟩ hcount
    rw [← howned.recordSize] at hcount
    have hafter := h.withRowCount hcount
    exact ⟨_, resize_eq_ok h howned.owned hcount, ⟨hafter, howned.owned, howned.recordSize⟩,
      resized_withRowCount h.full fun row hrow column hcolumn => hafter.fits hrow hcolumn⟩

end RecordTable

end Tabular
