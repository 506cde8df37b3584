import Tabular.Block.Edit
import Tabular.Proofs.Outcome
import Tabular.Table

/-!
# Properties that operations keep

`Kept P` says of a kind of table that the operations of `TableLike` keep `P`. What follows from it:

* `Kept.editRows`, `Kept.editColumn`: editable blocks keep `P` too, whichever way their values take;
* `kept_ofOpened`: a table of several kinds keeps what the tables of its kinds keep.

`Filled P` says that with `P` no cell is missing from what is read.
-/

namespace Tabular

open TableLike

/-- Every operation of a kind of table keeps the property. -/
structure Kept {τ : Type} [TableLike τ] (P : τ → Prop) : Prop where
  withDictionary : ∀ {x : τ} (d : Dictionary), P x → P (withDictionary x d)
  setDictionary : ∀ {x y : τ} {d : Dictionary}, P x → setDictionary x d = .ok y → P y
  writeRows : ∀ {x y : τ} {range : RowRange} {s : ScalarType} {values : List s.Value},
    P x → writeRows x range s values = .ok y → P y
  writeColumn : ∀ {x y : τ} {column : Nat} {range : RowRange} {s : ScalarType}
    {values : List s.Value}, P x → writeColumn x column range s values = .ok y → P y
  resize : ∀ {x y : τ} {rows : Nat}, P x → resize x rows = .ok y → P y
  directRows : ∀ {x : τ} {range : RowRange} {view : DirectView τ}, P x →
    directRows x range = some view → ∀ values, P (view.put values)
  directColumn : ∀ {x : τ} {column : Nat} {range : RowRange} {view : DirectView τ}, P x →
    directColumn x column range = some view → ∀ values, P (view.put values)

/-- With the property, reading rows or a column gives as many values as there are cells to read. -/
structure Filled {τ : Type} [TableLike τ] (P : τ → Prop) : Prop where
  readRows : ∀ {x : τ} {range : RowRange} {d : ScalarType} {length : Nat} {values : List d.Value},
    P x → readRows x range d length = .ok values → values.length = length
  directRows : ∀ {x : τ} {range : RowRange} {view : DirectView τ}, P x →
    directRows x range = some view → view.cells.length = range.size * columns x
  readColumn : ∀ {x : τ} {column : Nat} {range : RowRange} {d : ScalarType} {length : Nat}
    {values : List d.Value}, P x → readColumn x column range d length = .ok values →
    values.length = length
  directColumn : ∀ {x : τ} {column : Nat} {range : RowRange} {view : DirectView τ}, P x →
    directColumn x column range = some view → view.cells.length = range.size

section Blocks

variable {τ : Type} {P : τ → Prop} {x : τ} {u : ScalarType}

/-- Whatever values go to the target of a block, the table has the property. -/
def EditTarget.Keeps (P : τ → Prop) : EditTarget τ u → Prop
  | direct put => ∀ values, P (put values)
  | staged table => P table

theorem put_of_values? {view : DirectView τ} (h : ∀ values, P (view.put values))
    {values : List u.Value} {put : List u.Value → τ} (hput : view.values? u = some (values, put)) :
    ∀ others, P (put others) := by
  -- the view is used directly only when its cells have the type of the block
  rw [DirectView.values?] at hput
  split at hput
  · cases hput
    intro others
    exact h _
  · cases hput

/-- Whether the table was read or not, values that are staged leave it in the block. -/
theorem keeps_staged (hx : P x) {count width : Nat} {region : Region} {mode : AccessMode}
    {read : Except TableError (List u.Value)} {block : EditBlock τ u}
    (hblock : (do
      let blank ← zeros u count
      let values ← if mode.reads then read else pure blank
      return { values, region, width, mode, target := .staged x } :
        Except TableError (EditBlock τ u)) = .ok block) :
    block.target.Keeps P := by
  rcases bind_eq_ok_iff.1 hblock with ⟨_, _, hblock⟩
  dsimp only at hblock
  split at hblock
  · rcases bind_eq_ok_iff.1 hblock with ⟨_, _, hblock⟩
    cases hblock
    exact hx
  · cases hblock
    exact hx

variable [TableLike τ]

/-- Rows that are lent out are a view of these rows. -/
theorem exists_view_of_rows {range : RowRange} {lent : List u.Value × (List u.Value → τ)}
    (h : directRowValues x u range = some lent) :
    ∃ view, directRows x range = some view ∧ view.values? u = some lent := by
  rw [directRowValues, Option.ite_none_right_eq_some] at h
  exact Option.bind_eq_some_iff.1 h.2

/-- A column that is lent out is a view of this column. -/
theorem exists_view_of_column {column : Nat} {range : RowRange}
    {lent : List u.Value × (List u.Value → τ)}
    (h : directColumnValues x u column range = some lent) :
    ∃ view, directColumn x column range = some view ∧ view.values? u = some lent := by
  rw [directColumnValues, Option.ite_none_right_eq_some] at h
  exact Option.bind_eq_some_iff.1 h.2

theorem Kept.editRows (h : Kept P) (hx : P x) {start count : Nat} {mode : AccessMode}
    {block : EditBlock τ u} (hblock : editRows x u start count mode = .ok block) :
    block.target.Keeps P := by
  rw [Tabular.editRows] at hblock
  rcases bind_eq_ok_iff.1 hblock with ⟨_, _, hblock⟩
  rcases bind_eq_ok_iff.1 hblock with ⟨range, _, hblock⟩
  split at hblock
  · split at hblock
    · rename_i values put hdirect
      cases hblock
      rcases exists_view_of_rows hdirect with ⟨view, hview, hput⟩
      exact put_of_values? (h.directRows hx hview) hput
    · cases hblock
  · rcases bind_eq_ok_iff.1 hblock with ⟨_, _, hblock⟩
    exact keeps_staged hx hblock

theorem Kept.editColumn (h : Kept P) (hx : P x) {column start count : Nat} {mode : AccessMode}
    {block : EditBlock τ u} (hblock : editColumn x u column start count mode = .ok block) :
    block.target.Keeps P := by
  rw [Tabular.editColumn] at hblock
  rcases bind_eq_ok_iff.1 hblock with ⟨_, _, hblock⟩
  rcases bind_eq_ok_iff.1 hblock with ⟨_, _, hblock⟩
  rcases bind_eq_ok_iff.1 hblock with ⟨range, _, hblock⟩
  split at hblock
  · split at hblock
    · rename_i values put hdirect
      cases hblock
      rcases exists_view_of_column hdirect with ⟨view, hview, hput⟩
      exact put_of_values? (h.directColumn hx hview) hput
    · cases hblock
  · exact keeps_staged hx hblock

omit [TableLike τ] in
/-- Edits change the values of a block and not where they go. -/
theorem EditTarget.Keeps.edits {block : EditBlock τ u} (hblock : block.target.Keeps P)
    (edits : List (Edit u)) : (edits.foldl EditBlock.edit block).target.Keeps P := by
  induction edits generalizing block with
  | nil => exact hblock
  | cons change rest ih => exact ih hblock

/-- Letting go of a block does what its release does, when the release succeeds. -/
theorem EditBlock.abandon_of_release {block : EditBlock τ u} {after : τ}
    (h : block.release = .ok after) : block.abandon = after := by
  rw [abandon, h]

/-- The table after a block, whether the block was released or just went out of use. -/
theorem Kept.abandon (h : Kept P) {block : EditBlock τ u} (hblock : block.target.Keeps P) :
    P block.abandon := by
  rcases block with ⟨values, region, width, mode, target⟩
  cases target with
  | direct put => exact hblock values
  | staged table =>
      rw [EditBlock.abandon]
      split
      · rename_i table' hrelease
        rw [EditBlock.release] at hrelease
        -- A staged block writes rows, writes a column, or leaves the table alone.
        split at hrelease
        · rename_i hdirect
          cases hdirect
        · rename_i hstaged
          cases hstaged
          split at hrelease
          · split at hrelease
            · exact h.writeRows hblock hrelease
            · exact h.writeColumn hblock hrelease
          · cases hrelease
            exact hblock
      · rename_i hdirect _
        cases hdirect
      · rename_i hstaged _
        cases hstaged
        exact hblock

omit [TableLike τ] in
/-- Cells that are used directly are as many as the table has there. -/
theorem DirectView.length_of_values? {view : DirectView τ} {values : List u.Value}
    {put : List u.Value → τ} (hput : view.values? u = some (values, put)) :
    values.length = view.cells.length := by
  rcases view with ⟨⟨type, cells⟩, inner⟩
  rw [values?] at hput
  split at hput
  · rename_i htype
    subst htype
    cases hput
    rfl
  · cases hput

theorem Filled.rowBlock (h : Filled P) (hx : P x) {start count : Nat} {block : Block u}
    (hblock : rowBlock x u start count = .ok block) :
    block.values.length = count * columns x := by
  rw [Tabular.rowBlock] at hblock
  rcases bind_eq_ok_iff.1 hblock with ⟨_, _, hblock⟩
  rcases bind_eq_ok_iff.1 hblock with ⟨range, hrange, hblock⟩
  rcases RowRange.ofCount_eq_ok_iff.1 hrange with ⟨_, rfl⟩
  split at hblock
  · rename_i values put hdirect
    cases hblock
    rcases exists_view_of_rows hdirect with ⟨view, hview, hput⟩
    have hlength := h.directRows hx hview
    rw [RowRange.size, Nat.add_sub_cancel_left] at hlength
    exact (DirectView.length_of_values? hput).trans hlength
  · rcases bind_eq_ok_iff.1 hblock with ⟨cells, hcells, hblock⟩
    rcases bind_eq_ok_iff.1 hblock with ⟨_, _, hblock⟩
    rcases bind_eq_ok_iff.1 hblock with ⟨values, hvalues, hblock⟩
    cases hblock
    rw [h.readRows hx hvalues]
    exact (countTerm_eq_ok_iff.1 hcells).2.symm

end Blocks

/-! ## Sums of kinds -/

instance {τ : Type} (x : OpenTable τ) : TableLike x.Kind := x.tableLike

/-- What the tables of every kind keep, a table of several kinds keeps. -/
theorem kept_ofOpened {τ : Type} {opened : τ → OpenTable τ} {P : τ → Prop}
    (h : ∀ x, ∃ Q : (opened x).Kind → Prop, Kept Q ∧ (P x → Q (opened x).table)
      ∧ ∀ table, Q table → P ((opened x).close table)) :
    @Kept τ (.ofOpened opened) P := by
  let _ := TableLike.ofOpened opened
  -- every operation opens the table, acts on the table of its kind, and closes the result
  refine ⟨?_, ?_, ?_, ?_, ?_, ?_, ?_⟩
  · intro x d hx
    rcases h x with ⟨Q, hkept, hopen, hclose⟩
    exact hclose _ (hkept.withDictionary d (hopen hx))
  · intro x y d hx hy
    rcases h x with ⟨Q, hkept, hopen, hclose⟩
    rcases map_eq_ok_iff.1 hy with ⟨table, htable, rfl⟩
    exact hclose _ (hkept.setDictionary (hopen hx) htable)
  · intro x y range s values hx hy
    rcases h x with ⟨Q, hkept, hopen, hclose⟩
    rcases map_eq_ok_iff.1 hy with ⟨table, htable, rfl⟩
    exact hclose _ (hkept.writeRows (hopen hx) htable)
  · intro x y column range s values hx hy
    rcases h x with ⟨Q, hkept, hopen, hclose⟩
    rcases map_eq_ok_iff.1 hy with ⟨table, htable, rfl⟩
    exact hclose _ (hkept.writeColumn (hopen hx) htable)
  · intro x y rows hx hy
    rcases h x with ⟨Q, hkept, hopen, hclose⟩
    rcases map_eq_ok_iff.1 hy with ⟨table, htable, rfl⟩
    exact hclose _ (hkept.resize (hopen hx) htable)
  · intro x range view hx hview values
    rcases h x with ⟨Q, hkept, hopen, hclose⟩
    rcases Option.map_eq_some_iff.1 hview with ⟨inner, hinner, rfl⟩
    exact hclose _ (hkept.directRows (hopen hx) hinner values)
  · intro x column range view hx hview values
    rcases h x with ⟨Q, hkept, hopen, hclose⟩
    rcases Option.map_eq_some_iff.1 hview with ⟨inner, hinner, rfl⟩
    exact hclose _ (hkept.directColumn (hopen hx) hinner values)

/-- Where the tables of every kind read as many values as asked for, so does a table of several
kinds. -/
theorem filled_ofOpened {τ : Type} {opened : τ → OpenTable τ} {P : τ → Prop}
    (h : ∀ x, ∃ Q : (opened x).Kind → Prop, Filled Q ∧ (P x → Q (opened x).table)) :
    @Filled τ (.ofOpened opened) P := by
  let _ := TableLike.ofOpened opened
  refine ⟨?_, ?_, ?_, ?_⟩
  · intro x range d length values hx hvalues
    rcases h x with ⟨Q, hfilled, hopen⟩
    exact hfilled.readRows (hopen hx) hvalues
  · intro x range view hx hview
    rcases h x with ⟨Q, hfilled, hopen⟩
    rcases Option.map_eq_some_iff.1 hview with ⟨inner, hinner, rfl⟩
    exact hfilled.directRows (hopen hx) hinner
  · intro x column range d length values hx hvalues
    rcases h x with ⟨Q, hfilled, hopen⟩
    exact hfilled.readColumn (hopen hx) hvalues
  · intro x column range view hx hview
    rcases h x with ⟨Q, hfilled, hopen⟩
    rcases Option.map_eq_some_iff.1 hview with ⟨inner, hinner, rfl⟩
    exact hfilled.directColumn (hopen hx) hinner

end Tabular
