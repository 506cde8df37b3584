import Mathlib.Data.List.Forall2
import Tabular.Proofs.Requirements
import Tabular.Proofs.Undisturbed

/-!
# Two checks of a schema

A table checks a dictionary when it is to use it, and again, when it is asked about its structure,
the dictionary that it uses, which another holder may have edited since. The first check compares
counts, types and places for every kind of table. The second compares types only for records and
columns; tables whose cells all have one type look at the number of features alone.

* `setDictionary_eq_ok_iff`: the dictionaries that a table takes, and what it becomes;
* `isOk_checkStructure_iff`: the dictionaries of which a table with storage reports nothing;
* `checkStructure_agrees_iff`: for which dictionaries both give the same answer.
-/

namespace Tabular

open TableLike

/-! ## Statuses -/

namespace Status

@[simp]
theorem isOk_ok : ok.isOk := rfl

@[simp]
theorem isOk_append {a b : Status} : (a ++ b).isOk ↔ a.isOk ∧ b.isOk := by
  simp only [isOk_iff, errors_append, List.append_eq_nil_iff]

@[simp]
theorem isOk_ofExcept {outcome : Except TableError Unit} :
    (ofExcept outcome).isOk ↔ outcome = .ok () := by
  cases outcome with
  | ok _ => exact iff_of_true rfl rfl
  | error e => exact iff_of_false nofun nofun

end Status

/-! ## Lists side by side -/

/-- Two lists have the same image when what stands side by side has. -/
theorem map_eq_map_iff_zip {α β γ : Type _} {f : α → γ} {g : β → γ} {items : List α}
    {others : List β} (hlength : items.length = others.length) :
    items.map f = others.map g ↔ ∀ a b, (a, b) ∈ items.zip others → f a = g b := by
  rw [← List.forall₂_eq_eq_eq, List.forall₂_map_left_iff, List.forall₂_map_right_iff,
    List.forall₂_iff_zip]
  exact and_iff_right hlength

namespace Dictionary

variable {d : Dictionary} {columns : Nat} {t : ScalarType}

@[simp]
theorem isOk_checkLength : (d.checkLength columns).isOk ↔ d.length = columns := by
  rw [checkLength]
  split
  · rename_i hlength
    exact iff_of_true rfl hlength
  · rename_i hlength
    exact iff_of_false nofun hlength

/-- Columns of one type are described by as many features of that type. -/
theorem checkUniform_eq_ok_iff :
    d.checkUniform columns t = .ok () ↔ d.types = List.replicate columns t :=
  ⟨types_of_checkUniform, checkUniform_of_types⟩

end Dictionary

namespace Table

/-! ## The check of a new dictionary -/

section Accepted

variable {d : Dictionary}

/-- The fields of a table lie in its records, so that features which name them do. -/
theorem setDictionary_records {r r' : RecordTable} (h : r.Sound) :
    r.setDictionary d = .ok r'
      ↔ d.features.map Field.ofFeature = r.fields ∧ { r with dictionary := d } = r' := by
  simp only [RecordTable.setDictionary, bind_eq_ok_iff, Field.ofFeatures_eq_ok_iff, throw_eq_error,
    error_bind, pure_eq_ok, ite_error_eq_ok_iff, not_not, Except.ok.injEq, ne_eq]
  constructor
  · rintro ⟨_, ⟨_, rfl⟩, hsame, rfl⟩
    exact ⟨hsame, rfl⟩
  · rintro ⟨hsame, rfl⟩
    refine ⟨_, ⟨fun f hf => ?_, rfl⟩, hsame, rfl⟩
    exact h.inside (Field.ofFeature f) (hsame ▸ List.mem_map_of_mem hf)

/-- Without storage there are no columns that a dictionary could fail to describe. -/
theorem setDictionary_columns {c c' : ColumnTable} :
    c.setDictionary d = .ok c'
      ↔ (c.status.isAllocated → d.types = c.vectors.map ScalarVector.type)
        ∧ { c with dictionary := d } = c' := by
  by_cases hstatus : c.status.isAllocated
  · have hchecks : (d.checkCount c.vectors.length = .ok ()
        ∧ d.checkTypes (c.vectors.map ScalarVector.type) = .ok ())
        ↔ d.types = c.vectors.map ScalarVector.type := by
      have hvectors : c.vectors.length = (c.vectors.map ScalarVector.type).length :=
        (List.length_map _).symm
      rw [hvectors]
      constructor
      · rintro ⟨hcount, htypes⟩
        exact Dictionary.types_of_checks hcount htypes
      · intro htypes
        have hlength := Dictionary.length_of_types htypes
        exact ⟨Dictionary.checkCount_eq_ok_iff.2 hlength,
          (Dictionary.checkTypes_eq_ok_iff hlength).2 htypes⟩
    simp only [ColumnTable.setDictionary, hstatus, if_true, check_bind_eq_ok_iff, pure_eq_ok,
      Except.ok.injEq, forall_const, ← hchecks, and_assoc]
  · simp [ColumnTable.setDictionary, hstatus]

/-- What an operation gives when its condition holds, it gives as a table of any kind. -/
theorem close_eq_ok_iff {κ : Type} {close : κ → Table} {outcome : Except TableError κ} {p : Prop}
    {after : κ} {y : Table} (h : ∀ z, outcome = .ok z ↔ p ∧ after = z) :
    close <$> outcome = .ok y ↔ p ∧ close after = y := by
  rw [map_eq_ok_iff]
  constructor
  · rintro ⟨z, hz, rfl⟩
    rcases (h z).1 hz with ⟨hp, rfl⟩
    exact ⟨hp, rfl⟩
  · rintro ⟨hp, rfl⟩
    exact ⟨after, (h after).2 ⟨hp, rfl⟩, rfl⟩

/-- A table takes the dictionaries that describe it, and uses them from then on. -/
theorem setDictionary_eq_ok_iff {x y : Table} (h : x.Sound) :
    setDictionary x d = .ok y ↔ (withDictionary x d).InStep ∧ withDictionary x d = y := by
  -- the kinds whose cells have one type check the dictionary alike
  have huniform : ∀ {κ : Type} {columns : Nat} {t : ScalarType} {after z : κ},
      (d.checkUniform columns t >>= fun _ => .ok after) = .ok z
        ↔ d.types = List.replicate columns t ∧ after = z := by
    intro κ columns t after z
    rw [check_bind_eq_ok_iff, Dictionary.checkUniform_eq_ok_iff, Except.ok.injEq]
  cases x with
  | dense table => exact close_eq_ok_iff fun _ => huniform
  | records table => exact close_eq_ok_iff fun _ => setDictionary_records h
  | columns table => exact close_eq_ok_iff fun _ => setDictionary_columns
  | sparse table => exact close_eq_ok_iff fun _ => huniform
  | packed table => exact close_eq_ok_iff fun _ => huniform

/-- With storage, the dictionaries that a table takes are those that describe its columns. -/
theorem exists_setDictionary_iff {x : Table} (h : x.Sound) (hstatus : (status x).isAllocated) :
    (∃ y, setDictionary x d = .ok y) ↔ (withDictionary x d).Described := by
  have hstep : (withDictionary x d).InStep ↔ (withDictionary x d).Described := by
    cases x with
    | columns table => exact forall_prop_of_true hstatus
    | _ => rfl
  simp only [setDictionary_eq_ok_iff h, hstep, exists_and_left, exists_eq', and_true]

end Accepted

/-! ## The check of the structure -/

theorem isOk_checkStructure_dense {t : ScalarType} {table : DenseTable t} (h : table.Sound) :
    table.checkStructure.isOk ↔ table.dictionary.length = table.columns := by
  rw [DenseTable.checkStructure, Status.isOk_append, Dictionary.isOk_checkLength]
  refine and_iff_left ?_
  split
  · rename_i hstatus
    exact Status.isOk_ofExcept.2 (checkLength_eq_ok_iff.2 (h.full hstatus).symm)
  · rfl

theorem isOk_checkStructure_sparse {t : ScalarType} {table : SparseTable t}
    (h : table.WellFormed) :
    table.checkStructure.isOk ↔ table.dictionary.length = table.columns := by
  rw [SparseTable.checkStructure, Status.isOk_append, Dictionary.isOk_checkLength]
  exact and_iff_left (Status.isOk_ofExcept.2 ((SparsePattern.check_eq_ok_iff _ _ _ _).2 h))

theorem isOk_checkStructure_packed {t : ScalarType} {table : PackedTable t} (h : table.Sound) :
    table.checkStructure.isOk ↔ table.dictionary.length = table.dimension := by
  rw [PackedTable.checkStructure, Status.isOk_append, Dictionary.isOk_checkLength, h.full, ok_bind]
  exact and_iff_left (Status.isOk_ofExcept.2 (checkLength_eq_ok_iff.2 rfl))

/-- Features that are as many as the fields have not drifted when each names the field beside it. -/
theorem isOk_checkStructure_records {table : RecordTable} :
    table.checkStructure.isOk ↔ (records table).Described := by
  constructor
  · intro h
    rcases Status.isOk_append.1 h with ⟨hcount, hdrifted⟩
    have hlength : table.dictionary.features.length = table.fields.length :=
      Dictionary.isOk_checkLength.1 hcount
    have hsame : ∀ f field, (f, field) ∈ table.dictionary.features.zip table.fields →
        Field.ofFeature f = id field := by
      intro f field hpair
      by_contra hdiffers
      rw [if_pos (List.any_eq_true.2 ⟨_, hpair, decide_eq_true hdiffers⟩)] at hdrifted
      cases hdrifted
    have hmap := (map_eq_map_iff_zip hlength).2 hsame
    rwa [List.map_id] at hmap
  · intro h
    rw [checkStructure_records h]
    rfl

/-- No mismatch of types is listed when every feature has the type of the vector beside it. -/
theorem isOk_checkStructure_columns {table : ColumnTable} (h : table.Sound)
    (hstatus : table.status.isAllocated) :
    table.checkStructure.isOk ↔ (columns table).Described := by
  constructor
  · intro hok
    rw [ColumnTable.checkStructure, if_pos hstatus] at hok
    rcases Status.isOk_append.1 hok with ⟨hcount, hcolumns⟩
    have hlength : table.dictionary.types.length = table.vectors.length := by
      rw [Dictionary.types, List.length_map]
      exact (Dictionary.isOk_checkLength.1 hcount).trans (if_pos hstatus)
    rcases List.append_eq_nil_iff.1 (Status.isOk_iff.1 hcolumns) with ⟨_, htypes⟩
    have hsame : ∀ t vector, (t, vector) ∈ table.dictionary.types.zip table.vectors →
        id t = vector.type := by
      intro t vector hpair
      by_contra hdiffers
      have hnone := List.filterMap_eq_nil_iff.1 htypes _ hpair
      cases (if_neg hdiffers).symm.trans hnone
    have hmap := (map_eq_map_iff_zip hlength).2 hsame
    rwa [List.map_id] at hmap
  · intro hdescribed
    rw [checkStructure_columns h hdescribed]
    rfl

/-- A table that is described has a feature for each of its columns. -/
theorem Described.length_eq {x : Table} (h : x.Described) (hstatus : (status x).isAllocated) :
    (dictionary x).length = TableLike.columns x := by
  cases x with
  | dense table => exact Dictionary.length_of_uniform h
  | records table =>
      have hfields : table.dictionary.features.map Field.ofFeature = table.fields := h
      calc
        table.dictionary.length = (table.dictionary.features.map Field.ofFeature).length :=
          List.length_map _ |>.symm
        _ = table.columns := congrArg List.length hfields
  | columns table =>
      have htypes : table.dictionary.types = table.vectors.map ScalarVector.type := h
      calc
        table.dictionary.length = (table.vectors.map ScalarVector.type).length :=
          Dictionary.length_of_types htypes
        _ = table.vectors.length := List.length_map _
        _ = table.columns := (if_pos hstatus).symm
  | sparse table => exact Dictionary.length_of_uniform h
  | packed table => exact Dictionary.length_of_uniform h

/-- A table with storage that is otherwise sound reports nothing when there is a feature per column
and, for records and columns, every feature describes its column. -/
theorem isOk_checkStructure_iff {x : Table} (h : x.Sound) (hstatus : (status x).isAllocated) :
    (checkStructure x).isOk ↔ (dictionary x).length = TableLike.columns x
      ∧ (x.cellType? = none → x.Described) := by
  -- records and columns are checked feature by feature, and are counted as well
  have hwhole : x.Described ↔ (dictionary x).length = TableLike.columns x
      ∧ (none = (none : Option ScalarType) → x.Described) :=
    ⟨fun hx => ⟨hx.length_eq hstatus, fun _ => hx⟩, fun hx => hx.2 rfl⟩
  cases x with
  | dense table => exact (isOk_checkStructure_dense h).trans (and_iff_left nofun).symm
  | records table => exact isOk_checkStructure_records.trans hwhole
  | columns table => exact (isOk_checkStructure_columns h hstatus).trans hwhole
  | sparse table => exact (isOk_checkStructure_sparse h).trans (and_iff_left nofun).symm
  | packed table => exact (isOk_checkStructure_packed h).trans (and_iff_left nofun).symm

/-! ## Agreement -/

section WithDictionary

variable {x : Table} {d : Dictionary}

theorem dictionary_withDictionary : dictionary (withDictionary x d) = d := by
  cases x <;> rfl

theorem cellType?_withDictionary : (withDictionary x d).cellType? = x.cellType? := by
  cases x <;> rfl

/-- With storage, the columns are those that are stored. -/
theorem columns_withDictionary (hstatus : (status x).isAllocated) :
    TableLike.columns (withDictionary x d) = TableLike.columns x := by
  cases x with
  | columns table => exact (if_pos hstatus).trans (if_pos hstatus).symm
  | _ => rfl

end WithDictionary

/-- A table takes exactly the dictionaries that describe its columns, and reports nothing about
these. It reports nothing either, when its cells all have one type, about a dictionary that it would
not take because of a type; in every other case both checks give the same answer. -/
theorem checkStructure_agrees_iff {x : Table} (h : x.Sound) (hstatus : (status x).isAllocated)
    (d : Dictionary) :
    ((∃ y, setDictionary x d = .ok y) ↔ (withDictionary x d).Described)
    ∧ ((∃ y, setDictionary x d = .ok y) → (checkStructure (withDictionary x d)).isOk)
    ∧ ((checkStructure (withDictionary x d)).isOk ↔ d.length = TableLike.columns x
      ∧ (x.cellType? = none → (withDictionary x d).Described))
    ∧ (((checkStructure (withDictionary x d)).isOk ↔ ∃ y, setDictionary x d = .ok y)
      ↔ x.cellType? = none
        ∨ (d.length = TableLike.columns x → (withDictionary x d).Described)) := by
  have hsound : (withDictionary x d).Sound := kept_sound.withDictionary d h
  have hallocated : (status (withDictionary x d)).isAllocated := by
    rwa [status_withDictionary]
  have htaken := exists_setDictionary_iff h hstatus (d := d)
  have hreported : (checkStructure (withDictionary x d)).isOk ↔ d.length = TableLike.columns x
      ∧ (x.cellType? = none → (withDictionary x d).Described) := by
    have hchecked := isOk_checkStructure_iff hsound hallocated
    rwa [dictionary_withDictionary, columns_withDictionary hstatus, cellType?_withDictionary]
      at hchecked
  have hcounted : (withDictionary x d).Described → d.length = TableLike.columns x := by
    intro hdescribed
    have hlength := hdescribed.length_eq hallocated
    rwa [dictionary_withDictionary, columns_withDictionary hstatus] at hlength
  refine ⟨htaken, fun hy => ?_, hreported, ?_⟩
  · have hdescribed := htaken.1 hy
    exact hreported.2 ⟨hcounted hdescribed, fun _ => hdescribed⟩
  · rw [htaken, hreported]
    constructor
    · intro hagree
      refine or_iff_not_imp_left.2 fun huniform hlength => ?_
      exact hagree.1 ⟨hlength, fun hnone => absurd hnone huniform⟩
    · intro hcases
      refine ⟨fun hx => ?_, fun hdescribed => ⟨hcounted hdescribed, fun _ => hdescribed⟩⟩
      rcases hcases with hnone | huniform
      · exact hx.2 hnone
      · exact huniform hx.1

/-- A byte beside a number of two bytes. -/
def byteAndShort : ColumnTable :=
  { rows := 1, status := .userAllocated, vectors := [⟨.uint8, [1]⟩, ⟨.int16, [2]⟩]
    dictionary := ⟨[Feature.ofType .uint8, Feature.ofType .int16]⟩ }

/-- The same features in the other order. -/
def shortAndByte : Dictionary := ⟨[Feature.ofType .int16, Feature.ofType .uint8]⟩

/-- A table of columns notices that its features were exchanged, as it notices when it is to use
them so. -/
theorem checkStructure_agrees_byteAndShort :
    Sound (columns byteAndShort) ∧ (status (columns byteAndShort)).isAllocated
      ∧ ¬(checkStructure (withDictionary (columns byteAndShort) shortAndByte)).isOk
      ∧ ¬∃ y, setDictionary (columns byteAndShort) shortAndByte = .ok y := by
  have hattach : ColumnTable.attach byteAndShort.vectors = .ok byteAndShort := rfl
  have hsound : Sound (columns byteAndShort) := ColumnTable.sound_attach hattach
  have hdiffers : ¬(withDictionary (columns byteAndShort) shortAndByte).Described := by
    change ¬[ScalarType.int16, .uint8] = [.uint8, .int16]
    decide
  obtain ⟨htaken, -, hreported, -⟩ := checkStructure_agrees_iff hsound rfl shortAndByte
  exact ⟨hsound, rfl, fun h => hdiffers ((hreported.1 h).2 rfl), fun h => hdiffers (htaken.1 h)⟩

/-- One cell of one byte. -/
def byteCell : DenseTable .uint8 :=
  { rows := 1, columns := 1, status := .internallyAllocated, cells := [0]
    dictionary := ⟨[Feature.ofType .uint8]⟩ }

/-- The cell after another holder of its dictionary gave every feature another type. -/
def signedCell : Table := withDictionary (dense byteCell) (byteCell.dictionary.retype .int8)

/-- The check of the structure finds nothing after the only feature of a byte was given another
type, and the table would not take the dictionary that it uses. -/
theorem signedCell_unnoticed :
    Reachable signedCell ∧ (status signedCell).isAllocated
      ∧ (checkStructure signedCell).isOk
      ∧ setDictionary signedCell (dictionary signedCell)
        = .error (.scalarTypeMismatch .uint8 .int8) := by
  have hnew : DenseTable.new .uint8 1 1 = .ok byteCell := rfl
  have hreachable : Reachable signedCell :=
    (Reachable.built (.filled hnew)).changed (.editDictionary (byteCell.dictionary.retype .int8))
  exact ⟨hreachable, rfl, rfl, rfl⟩

end Table

end Tabular
