import Mathlib.Algebra.Order.BigOperators.Group.List
import Mathlib.Algebra.Order.Group.Nat
import Tabular.Proofs.Call
import Tabular.Proofs.Cells.Columns
import Tabular.Proofs.Cells.Dense
import Tabular.Proofs.Cells.Fields
import Tabular.Proofs.RecordLayout

/-!
# Full layouts are interchangeable

Tables of records, of columns and of one type store their cells in three ways. From the same empty
table on, callers cannot tell them apart: `SameGrid` relates tables with the same cells, each call
is answered the same and keeps them related, and `full_layouts_answer_equally` says what follows for
the three layouts.
-/

namespace Tabular

/-! ## Two tables with the same cells -/

section SameGrid

variable {τ υ : Type} [TableLike τ] [TableLike υ] {size : Nat} {P : τ → Prop} {Q : υ → Prop}
  {cell : τ → Nat → Nat → Cell} {cell' : υ → Nat → Nat → Cell} {x : τ} {y : υ}

/-- The tables have one shape and the same cells. -/
structure SameGrid (cell : τ → Nat → Nat → Cell) (cell' : υ → Nat → Nat → Cell) (x : τ) (y : υ) :
    Prop where
  rows : TableLike.rows y = TableLike.rows x
  columns : TableLike.columns y = TableLike.columns x
  status : TableLike.status y = TableLike.status x
  cells : ∀ row column, column < TableLike.columns x → cell' y row column = cell x row column

namespace SameGrid

theorem check_eq (h : SameGrid cell cell' x y) (sel : Selection) : sel.check y = sel.check x := by
  rcases sel with ⟨column, range⟩
  cases column with
  | none => rw [Selection.check_rows, Selection.check_rows, h.rows, h.status]
  | some column =>
      rw [Selection.check_column, Selection.check_column, h.rows, h.columns, h.status]

/-- Whatever the layouts, the cells of some rows are counted alike where all cells are. -/
theorem number_eq (h : SameGrid cell cell' x y)
    (hroom : TableLike.rows x * TableLike.columns x ≤ maxBytes) {sel : Selection}
    (hcheck : sel.check x = .ok ()) : sel.number y = sel.number x := by
  have hlt : sel.count (TableLike.columns x) < wordLimit := by
    calc
      sel.count (TableLike.columns x) ≤ TableLike.rows x * TableLike.columns x :=
        Selection.count_le_of_check hcheck
      _ ≤ maxBytes := hroom
      _ < wordLimit := maxBytes_lt_wordLimit
  have hlt' : sel.count (TableLike.columns y) < wordLimit := by rwa [h.columns]
  rw [Selection.number_of_lt hlt, Selection.number_of_lt hlt', h.columns]

theorem read_eq (h : SameGrid cell cell' x y) (hP : Celled P cell) (hQ : Celled Q cell') (hx : P x)
    (hy : Q y) (hroom : TableLike.rows x * TableLike.columns x ≤ maxBytes) (sel : Selection)
    (d : ScalarType) (length : Nat) : sel.read x d length = sel.read y d length := by
  rw [hP.read sel d length hx, hQ.read sel d length hy, h.check_eq, h.columns]
  refine bind_congr_of_ok fun hcheck => ?_
  rw [h.number_eq hroom hcheck]
  refine bind_congr fun _ => bind_congr_of_ok fun _ => ?_
  refine congrArg Except.ok (List.map_congr_left fun place hplace => ?_)
  rw [h.cells _ _ (Selection.inside_of_check hcheck place hplace).2]

theorem written (h : SameGrid cell cell' x y) {sel : Selection} {s : ScalarType}
    {values : List s.Value} {x' : τ} {y' : υ} (hx' : Written cell sel s values x x')
    (hy' : Written cell' sel s values y y') : SameGrid cell cell' x' y' := by
  refine ⟨?_, ?_, ?_, ?_⟩
  · rw [hx'.frame.rows, hy'.frame.rows, h.rows]
  · rw [hx'.frame.columns, hy'.frame.columns, h.columns]
  · rw [hx'.frame.status, hy'.frame.status, h.status]
  · intro row column hcolumn
    rw [hx'.frame.columns] at hcolumn
    rw [hx'.cells row column hcolumn, hy'.cells row column (by rwa [h.columns]),
      h.cells row column hcolumn, h.columns]

theorem resized (h : SameGrid cell cell' x y) {count : Nat} {x' : τ} {y' : υ}
    (hx' : Resized cell count x x') (hy' : Resized cell' count y y') :
    SameGrid cell cell' x' y' := by
  refine ⟨?_, ?_, ?_, ?_⟩
  · rw [hx'.rows, hy'.rows]
  · rw [hx'.columns, hy'.columns, h.columns]
  · rw [hx'.status, hy'.status, h.status]
  · intro row column hcolumn
    rw [hx'.columns] at hcolumn
    rw [hx'.cells row column hcolumn, hy'.cells row column (by rwa [h.columns]),
      h.cells row column hcolumn]

end SameGrid

/-- Tables of two kinds with the same cells, and with room for all rows at so many bytes each. -/
structure Twins (size : Nat) (P : τ → Prop) (Q : υ → Prop) (cell : τ → Nat → Nat → Cell)
    (cell' : υ → Nat → Nat → Cell) (x : τ) (y : υ) : Prop where
  left : P x
  right : Q y
  same : SameGrid cell cell' x y
  room : TableLike.rows x * size ≤ maxBytes
  affords : Affords size (TableLike.columns x)

namespace Twins

theorem write (h : Twins size P Q cell cell' x y) (hP : Celled P cell) (hQ : Celled Q cell')
    (sel : Selection) (s : ScalarType) (values : List s.Value) :
    SameOutcome (Twins size P Q cell cell') (sel.write x s values) (sel.write y s values) := by
  rcases hP.write sel s values h.left with ⟨x', hx', hwritten⟩
  rcases hQ.write sel s values h.right with ⟨y', hy', hwritten'⟩
  rw [hx', hy', h.same.check_eq]
  refine SameOutcome.check fun hcheck => ?_
  have hsame := h.same.number_eq (h.affords _ h.room) hcheck
  rw [hsame]
  cases hnumber : sel.number x with
  | error e => exact SameOutcome.refused e
  | ok cells =>
      refine SameOutcome.check fun hlength => ?_
      have hcells : cells = values.length := checkLength_eq_ok_iff.1 hlength
      rw [hcells] at hnumber
      rcases hwritten hcheck hnumber with ⟨hleft, hx'⟩
      rcases hwritten' ((h.same.check_eq sel).trans hcheck) (hsame.trans hnumber)
        with ⟨hright, hy'⟩
      refine SameOutcome.done ⟨hleft, hright, h.same.written hx' hy', ?_, ?_⟩
      · rw [hx'.frame.rows]
        exact h.room
      · rw [hx'.frame.columns]
        exact h.affords

theorem resize (h : Twins size P Q cell cell' x y) (hP : Elastic size P cell)
    (hQ : Elastic size Q cell') {count : Nat} (hcount : count * size ≤ maxBytes) :
    SameOutcome (Twins size P Q cell cell') (TableLike.resize x count)
      (TableLike.resize y count) := by
  rcases hP.resize h.left hcount with ⟨x', hx', hleft, hresized⟩
  rcases hQ.resize h.right hcount with ⟨y', hy', hright, hresized'⟩
  rw [hx', hy']
  refine SameOutcome.done ⟨hleft, hright, h.same.resized hresized hresized', ?_, ?_⟩
  · rw [hresized.rows]
    exact hcount
  · rw [hresized.columns]
    exact h.affords

/-- A call gets one answer from both tables, and they have the same cells after it. -/
theorem run (h : Twins size P Q cell cell' x y) (hP : Elastic size P cell)
    (hQ : Elastic size Q cell') {call : Call}
    (hcall : ∀ count, call = .resize count → count * size ≤ maxBytes) :
    (call.run x).1 = (call.run y).1 ∧ Twins size P Q cell cell' (call.run x).2 (call.run y).2 := by
  have hreads := h.same.read_eq hP.celled hQ.celled h.left h.right (h.affords _ h.room)
  cases call with
  | readRows range d length =>
      have hread := hreads ⟨none, range⟩ d length
      exact ⟨congrArg (fun outcome => (Call.ofRead x outcome).1) hread, h⟩
  | readColumn column range d length =>
      have hread := hreads ⟨some column, range⟩ d length
      exact ⟨congrArg (fun outcome => (Call.ofRead x outcome).1) hread, h⟩
  | writeRows range values =>
      exact Call.ofChange_eq h (h.write hP.celled hQ.celled ⟨none, range⟩ _ values.values)
  | writeColumn column range values =>
      exact Call.ofChange_eq h (h.write hP.celled hQ.celled ⟨some column, range⟩ _ values.values)
  | resize count => exact Call.ofChange_eq h (h.resize hP hQ (hcall count rfl))

/-- `Twins` is the invariant of the run, and `run` its step. -/
theorem answers_eq (hP : Elastic size P cell) (hQ : Elastic size Q cell')
    (h : Twins size P Q cell cell' x y) {calls : List Call}
    (hcalls : ∀ count, Call.resize count ∈ calls → count * size ≤ maxBytes) :
    Call.answers x calls = Call.answers y calls := by
  refine Call.answers_eq (R := Twins size P Q cell cell') (fun call hcall x y hxy => ?_) h
  exact hxy.run hP hQ fun count hresize => hcalls count (hresize ▸ hcall)

end Twins

end SameGrid

/-! ## Tables of zeros -/

/-- The table owns storage for columns of the types, and all its cells are zero. -/
structure Blank {τ : Type} [TableLike τ] (cell : τ → Nat → Nat → Cell) (types : List ScalarType)
    (rows : Nat) (x : τ) : Prop where
  rows : TableLike.rows x = rows
  columns : TableLike.columns x = types.length
  status : TableLike.status x = .internallyAllocated
  cells : ∀ row column t, types[column]? = some t → cell x row column = ⟨t, 0⟩

theorem Blank.sameGrid {τ υ : Type} [TableLike τ] [TableLike υ] {cell : τ → Nat → Nat → Cell}
    {cell' : υ → Nat → Nat → Cell} {types : List ScalarType} {rows : Nat} {x : τ} {y : υ}
    (hx : Blank cell types rows x) (hy : Blank cell' types rows y) : SameGrid cell cell' x y := by
  refine ⟨hy.rows.trans hx.rows.symm, hy.columns.trans hx.columns.symm,
    hy.status.trans hx.status.symm, ?_⟩
  intro row column hcolumn
  rw [hx.columns] at hcolumn
  have htype := List.getElem?_eq_getElem hcolumn
  rw [hx.cells row column _ htype, hy.cells row column _ htype]

/-- Unnamed continuous features of the types. -/
def features (types : List ScalarType) : List Feature := types.map Feature.ofType

/-- Bytes of a packed record with fields of the types. -/
def packedSize (types : List ScalarType) : Nat :=
  (Dictionary.packedRecord (features types)).recordEnd

section Types

variable {types : List ScalarType} {rows : Nat}

theorem length_features (types : List ScalarType) : (features types).length = types.length :=
  List.length_map _

/-- Features that there is room for make a record that there is room for. -/
theorem recordSize_features (h : Describable types.length) :
    (Dictionary.packedRecord (features types)).recordSize = .ok (packedSize types) := by
  have hmemory : Dictionary.InMemory (features types) := by
    rw [Dictionary.InMemory, length_features]
    exact Nat.le_trans (Nat.mul_le_mul_left _ (by decide)) h
  rw [Dictionary.recordSize_packedRecord hmemory, packedSize, Dictionary.recordEnd_packedRecord]

theorem packedSize_lt (h : Describable types.length) : packedSize types < wordLimit := by
  have hsize := recordSize_features h
  rw [Dictionary.recordSize_eq] at hsize
  exact (asWord_eq_ok_iff.1 hsize).1

theorem sum_sizes_le_packedSize (types : List ScalarType) :
    (types.map ScalarType.size).sum ≤ packedSize types := by
  have hsum : ((features types).map fun f => f.type.size).sum ≤ packedSize types :=
    Dictionary.sum_sizes_le_recordEnd (features types)
  rwa [features, List.map_map] at hsum

theorem affords_of_mem {t : ScalarType} (ht : t ∈ types) : Affords (packedSize types) t.size :=
  affords_of_le fun _ => Nat.le_trans (List.le_sum_of_mem (List.mem_map_of_mem ht))
    (sum_sizes_le_packedSize types)

/-- Every column takes a byte of a record. -/
theorem affords_length (types : List ScalarType) : Affords (packedSize types) types.length := by
  refine affords_of_le fun _ => ?_
  have hsum := List.length_le_sum_of_one_le (types.map ScalarType.size) fun size hsize => by
    rcases List.mem_map.1 hsize with ⟨t, _, rfl⟩
    exact t.size_pos
  rw [List.length_map] at hsum
  exact Nat.le_trans hsum (sum_sizes_le_packedSize types)

theorem affords_of_forall_eq {t : ScalarType} (ht : ∀ s ∈ types, s = t) :
    Affords (packedSize types) (types.length * t.size) := by
  refine affords_of_le fun _ => ?_
  have hsizes : types.map ScalarType.size = List.replicate types.length t.size :=
    List.eq_replicate_iff.2 ⟨List.length_map _, by
      intro size hsize
      rcases List.mem_map.1 hsize with ⟨s, hs, rfl⟩
      rw [ht s hs]⟩
  have hsum := sum_sizes_le_packedSize types
  rwa [hsizes, List.sum_replicate_nat] at hsum

/-! ### Records -/

theorem types_packed (types : List ScalarType) :
    (Dictionary.packedRecord (features types)).features.map Feature.type = types := by
  calc
    (Dictionary.packedRecord (features types)).features.map Feature.type
        = (features types).map Feature.type := Dictionary.map_type_place 0 _
    _ = types := by
          rw [features, List.map_map]
          exact List.map_id' types

/-- A table of zeroed packed records. -/
def blankRecords (types : List ScalarType) (rows : Nat) : RecordTable where
  rows
  recordSize := packedSize types
  fields := (Dictionary.packedRecord (features types)).features.map Field.ofFeature
  status := .internallyAllocated
  bytes := List.replicate (rows * packedSize types) 0
  dictionary := Dictionary.packedRecord (features types)

theorem new_records_eq_ok (htypes : Describable types.length)
    (hrows : rows * packedSize types ≤ maxBytes) :
    RecordTable.new (Dictionary.packedRecord (features types)) rows
      = .ok (blankRecords types rows) :=
  RecordTable.new_eq_ok (packedSize_lt htypes) hrows

theorem parted_blankRecords (hrows : rows * packedSize types ≤ maxBytes) :
    (blankRecords types rows).Parted := by
  refine ⟨List.length_replicate, hrows, rfl, ?_, ?_⟩
  · intro _ f hf
    rcases List.mem_map.1 hf with ⟨feature, hfeature, rfl⟩
    exact Dictionary.fieldEnd_le_recordEnd _ feature hfeature
  · intro _
    exact (Dictionary.pairwise_place 0 _).map _ fun _ _ hends => Or.inl hends

theorem blank_blankRecords (types : List ScalarType) (rows : Nat) :
    Blank RecordTable.cell types rows (blankRecords types rows) := by
  refine ⟨rfl, ?_, rfl, ?_⟩
  · have hcount := congrArg List.length (types_packed types)
    rw [List.length_map] at hcount
    exact (List.length_map _).trans hcount
  · intro row column t ht
    have htype : ((blankRecords types rows).fieldAt column).type = t := by
      rw [← types_packed types, List.getElem?_map] at ht
      rcases Option.map_eq_some_iff.1 ht with ⟨f, hf, rfl⟩
      have hfield : (blankRecords types rows).fields[column]? = some (Field.ofFeature f) := by
        rw [blankRecords, List.getElem?_map, hf, Option.map_some]
      rw [RecordTable.fieldAt, hfield]
      rfl
    have hvalue : (blankRecords types rows).valueAt row
        ((blankRecords types rows).fieldAt column) = 0 := by
      rw [RecordTable.valueAt]
      split
      · refine ScalarType.ofBytes_zeros _ fun b hb => ?_
        exact List.eq_of_mem_replicate (List.mem_of_mem_drop (List.mem_of_mem_take hb))
      · rfl
    rw [RecordTable.cell, hvalue, htype]

/-! ### Columns -/

/-- A table of zeroed columns. -/
def blankColumns (types : List ScalarType) (rows : Nat) : ColumnTable where
  rows
  status := .internallyAllocated
  vectors := types.map fun t => ⟨t, List.replicate rows 0⟩
  dictionary := ⟨features types⟩

theorem new_columns_eq_ok (hrows : rows * packedSize types ≤ maxBytes) :
    ColumnTable.new ⟨features types⟩ rows = .ok (blankColumns types rows) := by
  have htypes : Dictionary.types ⟨features types⟩ = types := by
    rw [Dictionary.types, features, List.map_map]
    exact List.map_id' types
  have hvectors : ColumnTable.zeroVectors ⟨features types⟩ rows
      = .ok (types.map fun t => ⟨t, List.replicate rows 0⟩) := by
    rw [ColumnTable.zeroVectors, htypes]
    apply mapM_eq_ok
    intro t ht
    have hroom := affords_of_mem ht rows hrows
    rw [ScalarVector.ofZeros, zeros_of_room hroom]
    rfl
  rw [ColumnTable.new, hvectors]
  rfl

theorem backed_blankColumns (types : List ScalarType) (rows : Nat) :
    (blankColumns types rows).Backed := by
  refine ⟨⟨?_, fun hstatus => by cases hstatus⟩, rfl⟩
  intro vector hvector
  rcases List.mem_map.1 hvector with ⟨t, _, rfl⟩
  exact List.length_replicate

theorem blank_blankColumns (types : List ScalarType) (rows : Nat) :
    Blank ColumnTable.cell types rows (blankColumns types rows) := by
  refine ⟨rfl, List.length_map _, rfl, ?_⟩
  intro row column t ht
  have hvector : (blankColumns types rows).vectors[column]? = some ⟨t, List.replicate rows 0⟩ := by
    rw [blankColumns, List.getElem?_map, ht, Option.map_some]
  rw [ColumnTable.cell_eq hvector, ScalarVector.cellAt, getD_replicate]

theorem roomy_blankColumns (types : List ScalarType) (rows : Nat) :
    (blankColumns types rows).Roomy (packedSize types) := by
  have hblank := blank_blankColumns types rows
  refine ⟨rfl, fun column hcolumn => ?_⟩
  rw [hblank.columns] at hcolumn
  rw [hblank.cells 0 column _ (List.getElem?_eq_getElem hcolumn)]
  exact affords_of_mem (List.getElem_mem hcolumn)

/-! ### One type -/

theorem blank_dense {t : ScalarType} (ht : ∀ s ∈ types, s = t) (rows : Nat) :
    Blank DenseTable.cell types rows (DenseTable.blank t rows types.length) := by
  refine ⟨rfl, rfl, rfl, ?_⟩
  intro row column s hs
  obtain rfl : s = t := ht s (List.mem_of_getElem? hs)
  have hget : ((DenseTable.blank s rows types.length).stored? row column).getD 0 = 0 := by
    rw [DenseTable.stored?]
    split
    · exact getD_replicate _ _ _
    · rfl
  rw [DenseTable.cell, hget]

theorem roomy_dense {t : ScalarType} (ht : ∀ s ∈ types, s = t) (rows : Nat) :
    (DenseTable.blank t rows types.length).Roomy (packedSize types) :=
  ⟨rfl, affords_of_forall_eq ht⟩

end Types

/-! ## From the empty tables on -/

/-- Tables of records with packed fields, of columns and, for columns of one type, of that type
answer every sequence of calls in one and the same way: the same refusals and the same cells, bit
for bit. The features of the columns are in memory. -/
theorem full_layouts_answer_equally (types : List ScalarType) (htypes : Describable types.length)
    {rows : Nat} (calls : List Call) (hrows : rows * packedSize types ≤ maxBytes)
    (hcalls : ∀ count, Call.resize count ∈ calls → count * packedSize types ≤ maxBytes) :
    ∃ r c, RecordTable.new (Dictionary.packedRecord (features types)) rows = .ok r
      ∧ ColumnTable.new ⟨features types⟩ rows = .ok c
      ∧ Call.answers r calls = Call.answers c calls
      ∧ ∀ t, (∀ s ∈ types, s = t) →
        ∃ d, DenseTable.new t rows types.length = .ok d
          ∧ Call.answers r calls = Call.answers d calls := by
  have hrecords := RecordTable.elastic (packedSize types)
  have hparted := parted_blankRecords hrows
  have hblank := blank_blankRecords types rows
  have haffords : Affords (packedSize types) (TableLike.columns (blankRecords types rows)) := by
    rw [hblank.columns]
    exact affords_length types
  refine ⟨_, _, new_records_eq_ok htypes hrows, new_columns_eq_ok hrows, ?_, ?_⟩
  · have hkept := And.intro (backed_blankColumns types rows) (roomy_blankColumns types rows)
    have hsame := hblank.sameGrid (blank_blankColumns types rows)
    exact Twins.answers_eq hrecords (ColumnTable.elastic _)
      ⟨⟨hparted, rfl, rfl⟩, hkept, hsame, hrows, haffords⟩ hcalls
  · intro t ht
    have hroom : rows * types.length * t.size ≤ maxBytes := by
      rw [Nat.mul_assoc]
      exact affords_of_forall_eq ht rows hrows
    have hkept := And.intro (DenseTable.sound_blank t rows types.length) (roomy_dense ht rows)
    have hsame := hblank.sameGrid (blank_dense ht rows)
    refine ⟨_, DenseTable.new_eq_ok hroom htypes, ?_⟩
    exact Twins.answers_eq hrecords (DenseTable.elastic _)
      ⟨⟨hparted, rfl, rfl⟩, hkept, hsame, hrows, haffords⟩ hcalls

/-- Cells of other types than the stored one, fewer and more rows, and calls that are refused: a
range that runs backwards, a column too far and a buffer that is too short. -/
def roundingCalls : List Call :=
  [.writeRows ⟨0, 2⟩ ⟨.float64, [Double.one, Double.negativeZero, Double.one, Double.one]⟩,
    .writeColumn 1 ⟨1, 3⟩ ⟨.uint64, [70000, 7]⟩, .readRows ⟨2, 1⟩ .bool 0, .resize 1, .resize 4,
    .writeColumn 2 ⟨0, 1⟩ ⟨.int8, [1]⟩, .readRows ⟨0, 4⟩ .int8 7, .readRows ⟨0, 4⟩ .float32 8,
    .readColumn 0 ⟨1, 4⟩ .int16 3]

/-- Three rows of two short integers answer these calls equally in all three layouts. -/
theorem full_layouts_answer_roundingCalls_equally :
    Describable [ScalarType.int16, .int16].length
      ∧ 3 * packedSize [.int16, .int16] ≤ maxBytes
      ∧ (∀ count, Call.resize count ∈ roundingCalls →
        count * packedSize [.int16, .int16] ≤ maxBytes)
      ∧ ∃ r c, RecordTable.new (Dictionary.packedRecord (features [.int16, .int16])) 3 = .ok r
        ∧ ColumnTable.new ⟨features [.int16, .int16]⟩ 3 = .ok c
        ∧ Call.answers r roundingCalls = Call.answers c roundingCalls
        ∧ ∃ d, DenseTable.new .int16 3 2 = .ok d
          ∧ Call.answers r roundingCalls = Call.answers d roundingCalls := by
  have hrows : 3 * packedSize [.int16, .int16] ≤ maxBytes := by decide
  have hcalls : ∀ count, Call.resize count ∈ roundingCalls →
      count * packedSize [.int16, .int16] ≤ maxBytes := by
    intro count hcount
    have hcases : count = 1 ∨ count = 4 := by simpa [roundingCalls] using hcount
    rcases hcases with rfl | rfl
    · decide
    · decide
  rcases full_layouts_answer_equally [.int16, .int16] (by decide) roundingCalls hrows hcalls
    with ⟨r, c, hr, hc, hanswers, huniform⟩
  exact ⟨by decide, hrows, hcalls, r, c, hr, hc, hanswers, huniform .int16 (by decide)⟩

end Tabular
