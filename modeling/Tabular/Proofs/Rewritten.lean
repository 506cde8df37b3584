import Tabular.Proofs.Cells.Blocks
import Tabular.Proofs.Sparse.Attached

/-!
# Tables with other cells

Whatever way cells are written, what is left of a table is all of it but for their values: its
shape, the owner of the storage, the dictionary, and the lengths of the arrays. Only a sparse table
that owns its arrays may store more cells than before.

* `Rewrites` and `Rewrites.abandon`: a kind of table whose writes leave nothing but other cells, and
  that its blocks leave no more;
* `Table.Rewritten`: a table with other cells;
* `Table.rewrites`: the writes of every kind of table leave nothing else.
-/

namespace Tabular

open TableLike

/-! ## Writes and blocks -/

/-- Writing cells to a table with the property leaves a table that is related to it. -/
structure Rewrites {τ : Type} [TableLike τ] (P : τ → Prop) (R : τ → τ → Prop) : Prop where
  refl : ∀ x : τ, R x x
  writeRows : ∀ {x y : τ} {range : RowRange} {s : ScalarType} {values : List s.Value},
    P x → writeRows x range s values = .ok y → R x y
  writeColumn : ∀ {x y : τ} {column : Nat} {range : RowRange} {s : ScalarType}
    {values : List s.Value}, P x → writeColumn x column range s values = .ok y → R x y
  directRows : ∀ {x : τ} {range : RowRange} {view : DirectView τ}, P x →
    directRows x range = some view → ∀ values, R x (view.put values)
  directColumn : ∀ {x : τ} {column : Nat} {range : RowRange} {view : DirectView τ}, P x →
    directColumn x column range = some view → ∀ values, R x (view.put values)

namespace Rewrites

variable {τ : Type} [TableLike τ] {P : τ → Prop} {R : τ → τ → Prop} {x : τ} {u : ScalarType}
  {region : Region} {mode : AccessMode}

theorem write (h : Rewrites P R) (hx : P x) {sel : Selection} {values : List u.Value} {y : τ}
    (hy : sel.write x u values = .ok y) : R x y := by
  rcases sel with ⟨column, range⟩
  cases column with
  | none => exact h.writeRows hx hy
  | some column => exact h.writeColumn hx hy

theorem direct (h : Rewrites P R) (hx : P x) {sel : Selection} {values : List u.Value}
    {put : List u.Value → τ} (hdirect : sel.direct x u = some (values, put)) :
    ∀ others, R x (put others) := by
  rcases sel with ⟨column, range⟩
  cases column with
  | none =>
      rcases exists_view_of_rows hdirect with ⟨view, hview, hput⟩
      exact put_of_values? (h.directRows hx hview) hput
  | some column =>
      rcases exists_view_of_column hdirect with ⟨view, hview, hput⟩
      exact put_of_values? (h.directColumn hx hview) hput

/-- A block over a buffer keeps the table that it was acquired from. -/
theorem staged_of_stage {block : EditBlock τ u}
    (hblock : region.stage x u mode = .ok block) :
    ∃ values width, block = ⟨values, region, width, mode, .staged x⟩ := by
  rcases bind_eq_ok_iff.1 hblock with ⟨_, _, hblock⟩
  rcases bind_eq_ok_iff.1 hblock with ⟨blank, _, hblock⟩
  dsimp only at hblock
  split at hblock
  · rcases bind_eq_ok_iff.1 hblock with ⟨values, _, hblock⟩
    cases hblock
    exact ⟨values, _, rfl⟩
  · cases hblock
    exact ⟨blank, _, rfl⟩

/-- A block over a buffer is written back like any other cells, or not at all. -/
theorem abandon_stage (h : Rewrites P R) (hx : P x) {block : EditBlock τ u}
    (hblock : region.stage x u mode = .ok block) (values : List u.Value) :
    R x (EditBlock.abandon { block with values }) := by
  obtain ⟨before, width, rfl⟩ := staged_of_stage hblock
  rw [EditBlock.abandon, Region.release_staged]
  split
  · rename_i hrelease
    split at hrelease
    · exact h.write hx hrelease
    · cases hrelease
      exact h.refl x
  · rename_i hdirect _
    cases hdirect
  · rename_i hstaged _
    cases hstaged
    exact h.refl x

/-- However a block ends, it leaves nothing but other cells. -/
theorem abandon (h : Rewrites P R) (hx : P x) {block : EditBlock τ u}
    (hblock : region.edit x u mode = .ok block) (edits : List (Edit u)) :
    R x (edits.foldl EditBlock.edit block).abandon := by
  rcases block.exists_edits edits with ⟨values, _, hedits⟩
  rw [hedits]
  rw [Region.edit_eq] at hblock
  rcases check_bind_eq_ok_iff.1 hblock with ⟨_, hblock⟩
  split at hblock
  · split at hblock
    · rename_i hdirect
      cases hblock
      exact h.direct hx hdirect values
    · cases hblock
  · exact h.abandon_stage hx hblock values

end Rewrites

/-- What the writes of every kind leave, the writes of a table of several kinds leave. -/
theorem rewrites_ofOpened {τ : Type} {opened : τ → OpenTable τ} {P : τ → Prop} {R : τ → τ → Prop}
    (hopened : ∀ x, (opened x).close (opened x).table = x)
    (h : ∀ x, ∃ Q : (opened x).Kind → Prop, (P x → Q (opened x).table)
      ∧ Rewrites Q fun y z => R ((opened x).close y) ((opened x).close z)) :
    @Rewrites τ (.ofOpened opened) P R := by
  let _ := TableLike.ofOpened opened
  refine ⟨?_, ?_, ?_, ?_, ?_⟩
  · intro x
    rcases h x with ⟨Q, _, hrewrites⟩
    have hclosed := hrewrites.refl (opened x).table
    rwa [hopened x] at hclosed
  · intro x y range s values hx hy
    rcases h x with ⟨Q, hopen, hrewrites⟩
    rcases map_eq_ok_iff.1 hy with ⟨table, htable, rfl⟩
    have hclosed := hrewrites.writeRows (hopen hx) htable
    rwa [hopened x] at hclosed
  · intro x y column range s values hx hy
    rcases h x with ⟨Q, hopen, hrewrites⟩
    rcases map_eq_ok_iff.1 hy with ⟨table, htable, rfl⟩
    have hclosed := hrewrites.writeColumn (hopen hx) htable
    rwa [hopened x] at hclosed
  · intro x range view hx hview values
    rcases h x with ⟨Q, hopen, hrewrites⟩
    rcases Option.map_eq_some_iff.1 hview with ⟨inner, hinner, rfl⟩
    have hclosed := hrewrites.directRows (hopen hx) hinner values
    rwa [hopened x] at hclosed
  · intro x column range view hx hview values
    rcases h x with ⟨Q, hopen, hrewrites⟩
    rcases Option.map_eq_some_iff.1 hview with ⟨inner, hinner, rfl⟩
    have hclosed := hrewrites.directColumn (hopen hx) hinner values
    rwa [hopened x] at hclosed

/-! ## Tables of any kind -/

namespace Table

/-- The second table is the first one with other cells. -/
inductive Rewritten : Table → Table → Prop
  | dense {t : ScalarType} {d : DenseTable t} {cells : List t.Value}
      (length : cells.length = d.cells.length) : Rewritten (dense d) (dense { d with cells })
  | records {r : RecordTable} {bytes : List UInt8} (length : bytes.length = r.bytes.length) :
      Rewritten (records r) (records { r with bytes })
  | columns {c : ColumnTable} {vectors : List ScalarVector}
      (types : vectors.map ScalarVector.type = c.vectors.map ScalarVector.type)
      (lengths : vectors.map ScalarVector.length = c.vectors.map ScalarVector.length) :
      Rewritten (columns c) (columns { c with vectors })
  /-- The rows of a sparse table that owns its arrays may have other stored cells. -/
  | sparse {t : ScalarType} {s s' : SparseTable t} (columns : s'.columns = s.columns)
      (rows : s'.rows = s.rows) (status : s'.status = s.status)
      (dictionary : s'.dictionary = s.dictionary)
      (pattern : s.status = .userAllocated → s.SamePattern s') :
      Rewritten (sparse s) (sparse s')
  | packed {t : ScalarType} {p : PackedTable t} {values : List t.Value}
      (length : values.length = p.values.length) : Rewritten (packed p) (packed { p with values })

namespace Rewritten

theorem refl (x : Table) : Rewritten x x := by
  cases x with
  | dense table => exact dense rfl
  | records table => exact records rfl
  | columns table => exact columns rfl rfl
  | sparse table => exact sparse rfl rfl rfl rfl fun _ => .refl table
  | packed table => exact packed rfl

theorem trans {x y z : Table} (h : Rewritten x y) (h' : Rewritten y z) : Rewritten x z := by
  cases h with
  | dense length =>
      cases h' with
      | dense length' => exact dense (length'.trans length)
  | records length =>
      cases h' with
      | records length' => exact records (length'.trans length)
  | columns types lengths =>
      cases h' with
      | columns types' lengths' => exact columns (types'.trans types) (lengths'.trans lengths)
  | sparse hcolumns rows status dictionary pattern =>
      cases h' with
      | sparse hcolumns' rows' status' dictionary' pattern' =>
          refine sparse (hcolumns'.trans hcolumns) (rows'.trans rows) (status'.trans status)
            (dictionary'.trans dictionary) fun huser => ?_
          exact (pattern huser).trans (pattern' (status.trans huser))
  | packed length =>
      cases h' with
      | packed length' => exact packed (length'.trans length)

theorem status_eq {x y : Table} (h : Rewritten x y) : status y = status x := by
  cases h with
  | sparse _ _ status _ _ => exact status
  | _ => rfl

end Rewritten

/-! ### The five kinds -/

section Kinds

variable {t : ScalarType}

theorem rewrites_dense : Rewrites (fun _ : DenseTable t => True)
    fun d d' => Rewritten (dense d) (dense d') := by
  have hrows : ∀ {d : DenseTable t} {range : RowRange} {view : DirectView (DenseTable t)},
      d.directRows range = some view → ∀ values, Rewritten (dense d) (dense (view.put values)) := by
    intro d range view hview values
    rcases Option.map_eq_some_iff.1 hview with ⟨_, _, rfl⟩
    exact .dense (length_overwrite _ _ _)
  refine ⟨fun d => .refl _, ?_, ?_, fun _ => hrows, ?_⟩
  · intro d d' range s values _ hd'
    rcases bind_eq_ok_iff.1 hd' with ⟨_, _, hd'⟩
    rcases bind_eq_ok_iff.1 hd' with ⟨_, _, hd'⟩
    cases hd'
    exact .dense (length_overwrite _ _ _)
  · intro d d' column range s values _ hd'
    rcases bind_eq_ok_iff.1 hd' with ⟨_, _, hd'⟩
    rcases bind_eq_ok_iff.1 hd' with ⟨_, _, hd'⟩
    rcases bind_eq_ok_iff.1 hd' with ⟨_, _, hd'⟩
    cases hd'
    exact .dense (Strided.length_scatter _ _ _ _)
  · intro d column range view _ hview
    have hcolumn : d.directColumn column range = some view := hview
    rw [DenseTable.directColumn] at hcolumn
    split at hcolumn
    · exact hrows hcolumn
    · cases hcolumn

theorem rewrites_records : Rewrites (fun _ : RecordTable => True)
    fun r r' => Rewritten (records r) (records r') := by
  -- cells are written one after the other, each of them in place
  have hcells : ∀ {r r' : RecordTable} {places : List (Nat × Field)} {s : ScalarType}
      {values : List s.Value}, r.writeCells places s values = .ok r' →
      Rewritten (records r) (records r') := by
    intro r r' places s values hr'
    refine keeps_of_foldlM (P := fun after => Rewritten (records r) (records after)) ?_
      (.refl (records r)) hr'
    intro before place after hbefore hafter
    rcases RecordTable.writeCell_eq_ok_iff.1 hafter with ⟨_, rfl⟩
    exact hbefore.trans (.records (length_overwrite _ _ _))
  refine ⟨fun r => .refl _, ?_, ?_, ?_, ?_⟩
  · intro r r' range s values _ hr'
    rcases bind_eq_ok_iff.1 hr' with ⟨_, _, hr'⟩
    rcases bind_eq_ok_iff.1 hr' with ⟨_, _, hr'⟩
    rcases bind_eq_ok_iff.1 hr' with ⟨_, _, hr'⟩
    exact hcells hr'
  · intro r r' column range s values _ hr'
    rcases bind_eq_ok_iff.1 hr' with ⟨_, _, hr'⟩
    rcases bind_eq_ok_iff.1 hr' with ⟨_, _, hr'⟩
    rcases bind_eq_ok_iff.1 hr' with ⟨_, _, hr'⟩
    exact hcells hr'
  · intro r range view _ hview
    cases hview
  · intro r column range view _ hview
    cases hview

theorem rewritten_setVector {c : ColumnTable} {column : Nat} {old : ScalarVector}
    (hold : c.vectors[column]? = some old) (start : Nat) (s : ScalarType) (values : List s.Value) :
    Rewritten (columns c) (columns { c with
      vectors := c.vectors.set column (ColumnTable.writeVector old start s values) }) :=
  .columns (ColumnTable.map_set_of_eq hold rfl)
    (ColumnTable.map_set_of_eq hold (ScalarVector.length_fill _ _ _))

theorem rewrites_columns : Rewrites (fun _ : ColumnTable => True)
    fun c c' => Rewritten (columns c) (columns c') := by
  have hcolumn : ∀ {c : ColumnTable} {column : Nat} {range : RowRange}
      {view : DirectView ColumnTable}, c.directColumn column range = some view →
      ∀ values, Rewritten (columns c) (columns (view.put values)) := by
    intro c column range view hview values
    rw [ColumnTable.directColumn] at hview
    split at hview
    · rcases Option.map_eq_some_iff.1 hview with ⟨old, hold, rfl⟩
      exact rewritten_setVector hold _ _ values
    · cases hview
  refine ⟨fun c => .refl _, ?_, ?_, ?_, fun _ => hcolumn⟩
  · intro c c' range s values _ hc'
    rcases bind_eq_ok_iff.1 hc' with ⟨_, _, hc'⟩
    rcases bind_eq_ok_iff.1 hc' with ⟨_, _, hc'⟩
    rcases bind_eq_ok_iff.1 hc' with ⟨_, _, hc'⟩
    cases hc'
    -- every vector is written over in its place
    refine .columns ?_ ?_
    · refine List.ext_getElem? fun column => ?_
      rw [List.getElem?_map, List.getElem?_mapIdx, List.getElem?_map, Option.map_map]
      rfl
    · refine List.ext_getElem? fun column => ?_
      rw [List.getElem?_map, List.getElem?_mapIdx, List.getElem?_map, Option.map_map]
      refine congrArg (Option.map · _) (funext fun vector => ?_)
      exact ScalarVector.length_fill _ _ _
  · intro c c' column range s values _ hc'
    rcases bind_eq_ok_iff.1 hc' with ⟨old, hold, hc'⟩
    rcases bind_eq_ok_iff.1 hc' with ⟨_, _, hc'⟩
    rcases bind_eq_ok_iff.1 hc' with ⟨_, _, hc'⟩
    cases hc'
    exact rewritten_setVector (ColumnTable.vector_eq_ok hold) _ _ _
  · intro c range view _ hview
    have hrows : c.directRows range = some view := hview
    rw [ColumnTable.directRows] at hrows
    split at hrows
    · exact hcolumn hrows
    · cases hrows

theorem rewritten_writeCells {s s' : SparseTable t} (h : s.WellFormed) {range : RowRange}
    (hrange : range.check s.rows = .ok ()) {cells : List t.Value}
    (hcells : cells.length = range.size * s.columns) (hs' : s.writeCells range cells = .ok s') :
    Rewritten (sparse s) (sparse s') := by
  rcases RowRange.check_eq_ok_iff.1 hrange with ⟨hstart, hstop⟩
  have hrows := (SparseTable.wellFormed_of_writeCells h hstart hstop hcells hs').2
  have hresult := SparseTable.eq_replaceRows_of_writeCells hs'
  refine .sparse ?_ hrows ?_ ?_ fun huser => ?_
  · rw [hresult, SparseTable.replaceRows]
  · rw [hresult, SparseTable.replaceRows]
  · rw [hresult, SparseTable.replaceRows]
  · exact SparseTable.samePattern_of_writeCells h hstart hstop hcells huser hs'

theorem rewrites_sparse : Rewrites (SparseTable.WellFormed (t := t))
    fun s s' => Rewritten (sparse s) (sparse s') := by
  refine ⟨fun s => .refl _, ?_, ?_, ?_, ?_⟩
  · intro s s' range u values h hs'
    rcases bind_eq_ok_iff.1 hs' with ⟨_, hrange, hs'⟩
    rcases bind_eq_ok_iff.1 hs' with ⟨count, hcount, hs'⟩
    rcases bind_eq_ok_iff.1 hs' with ⟨_, hlength, hs'⟩
    rcases bind_eq_ok_iff.1 hs' with ⟨_, _, hs'⟩
    refine rewritten_writeCells h hrange ?_ hs'
    rw [ScalarType.length_convertAll, ← checkLength_eq_ok_iff.1 hlength,
      (cellCount_eq_ok_iff.1 hcount).2]
  · intro s s' column range u values h hs'
    rcases bind_eq_ok_iff.1 hs' with ⟨_, _, hs'⟩
    rcases bind_eq_ok_iff.1 hs' with ⟨_, hrange, hs'⟩
    rcases bind_eq_ok_iff.1 hs' with ⟨_, _, hs'⟩
    rcases bind_eq_ok_iff.1 hs' with ⟨cells, hcells, hs'⟩
    refine rewritten_writeCells h hrange ?_ hs'
    rw [Strided.length_scatter, SparseTable.length_expand hcells]
  · intro s range view _ hview
    cases hview
  · intro s column range view _ hview
    cases hview

theorem rewritten_set (p : PackedTable t) (row column : Nat) (value : t.Value) :
    Rewritten (packed p) (packed (p.set row column value)) := by
  rw [PackedTable.set]
  cases hset : p.set? row column value with
  | none => exact .refl _
  | some p' =>
      rw [PackedTable.set?] at hset
      split at hset
      · rcases Option.bind_eq_some_iff.1 hset with ⟨place, _, hset⟩
        split at hset
        · cases hset
          exact .packed List.length_set
        · cases hset
      · cases hset

theorem rewritten_setAll (p : PackedTable t) (places : List (Nat × Nat)) (values : List t.Value) :
    Rewritten (packed p) (packed (p.setAll places values)) := by
  induction places generalizing p values with
  | nil => exact .refl _
  | cons place places ih =>
      cases values with
      | nil => exact .refl _
      | cons value values => exact (rewritten_set p _ _ value).trans (ih _ values)

theorem rewrites_packed : Rewrites (fun _ : PackedTable t => True)
    fun p p' => Rewritten (packed p) (packed p') := by
  refine ⟨fun p => .refl _, ?_, ?_, ?_, ?_⟩
  · intro p p' range s values _ hp'
    rcases bind_eq_ok_iff.1 hp' with ⟨_, _, hp'⟩
    rcases bind_eq_ok_iff.1 hp' with ⟨_, _, hp'⟩
    rcases bind_eq_ok_iff.1 hp' with ⟨_, _, hp'⟩
    rcases bind_eq_ok_iff.1 hp' with ⟨_, _, hp'⟩
    rcases bind_eq_ok_iff.1 hp' with ⟨_, _, hp'⟩
    cases hp'
    exact rewritten_setAll p _ _
  · intro p p' column range s values _ hp'
    rcases bind_eq_ok_iff.1 hp' with ⟨_, _, hp'⟩
    rcases bind_eq_ok_iff.1 hp' with ⟨_, _, hp'⟩
    rcases bind_eq_ok_iff.1 hp' with ⟨_, _, hp'⟩
    cases hp'
    exact rewritten_setAll p _ _
  · intro p range view _ hview
    cases hview
  · intro p column range view _ hview
    cases hview

end Kinds

/-- Writing cells leaves a table with other cells. -/
theorem rewrites : Rewrites Sound Rewritten := by
  refine rewrites_ofOpened ?_ ?_
  · intro x
    cases x with
    | dense table => rfl
    | records table => rfl
    | columns table => rfl
    | sparse table => rfl
    | packed table => rfl
  · intro x
    cases x with
    | dense table => exact ⟨fun _ => True, fun _ => trivial, rewrites_dense⟩
    | records table => exact ⟨fun _ => True, fun _ => trivial, rewrites_records⟩
    | columns table => exact ⟨fun _ => True, fun _ => trivial, rewrites_columns⟩
    | sparse table => exact ⟨SparseTable.WellFormed, id, rewrites_sparse⟩
    | packed table => exact ⟨fun _ => True, fun _ => trivial, rewrites_packed⟩

end Table

end Tabular
