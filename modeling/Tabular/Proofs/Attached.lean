import Tabular.Proofs.Effect
import Tabular.Proofs.InPlace.Requests

/-!
# Tables over arrays that were handed in

Five builders make a table over arrays that a caller hands in. Whatever is done to such a table, the
arrays keep the size that they have, and those of a sparse table their pattern: a request that could
not be granted without other arrays is refused. This ends only when a dense table gives its storage
back.

* `Table.Attached`: the tables over arrays that were handed in;
* `Table.SameArrays`: the second table has the arrays of the first, with other cells;
* `Effect.sameArrays`: what a change leaves when the arrays are still the caller's;
* `Table.Guarded` and `guarded`: what is refused meanwhile;
* `Attached.keeps_arrays`: the arrays after any changes.
-/

namespace Tabular

open TableLike

/-- A request is refused because the arrays belong to the caller. -/
def OwnershipRefused {α : Type} (outcome : Except TableError α) : Prop :=
  ∃ detail, outcome = .error (.ownershipViolation detail)

theorem OwnershipRefused.map {α β : Type} {outcome : Except TableError α}
    (h : OwnershipRefused outcome) (f : α → β) : OwnershipRefused (f <$> outcome) := by
  obtain ⟨detail, rfl⟩ := h
  exact ⟨detail, rfl⟩

namespace Table

/-! ## Arrays that were handed in -/

/-- Tables over arrays that were handed in. -/
inductive Attached : Table → Prop
  | dense {t : ScalarType} {cells : List t.Value} {rows columns : Nat} {d : DenseTable t}
      (h : DenseTable.attach cells rows columns = .ok d) : Attached (dense d)
  | records {bytes : List UInt8} {rows recordSize : Nat} {dictionary : Dictionary}
      {r : RecordTable} (h : RecordTable.attach bytes rows recordSize dictionary = .ok r) :
      Attached (records r)
  | columns {vectors : List ScalarVector} {c : ColumnTable}
      (h : ColumnTable.attach vectors = .ok c) : Attached (columns c)
  | sparse {t : ScalarType} {values : List t.Value} {columnIndices rowOffsets : List Nat}
      {width : Nat} {base : IndexBase} {s : SparseTable t}
      (h : SparseTable.attach values columnIndices rowOffsets width base = .ok s) :
      Attached (sparse s)
  | packed {t : ScalarType} {layout : StorageLayout} {values : List t.Value} {dimension : Nat}
      {p : PackedTable t} (h : PackedTable.attach layout values dimension = .ok p) :
      Attached (packed p)

theorem Attached.sound {x : Table} (h : x.Attached) : x.Sound := by
  cases h with
  | dense h => exact DenseTable.sound_attach h
  | records h => exact RecordTable.sound_attach h
  | columns h => exact ColumnTable.sound_attach h
  | sparse h => exact SparseTable.wellFormed_attach h
  | packed h => exact PackedTable.sound_attach h

/-- As many rows, in arrays of the same lengths and, for a sparse table, of the same pattern. A
table of columns may have more of them. -/
inductive SameArrays : Table → Table → Prop
  | dense {t : ScalarType} {d d' : DenseTable t} (rows : d'.rows = d.rows)
      (cells : d'.cells.length = d.cells.length) : SameArrays (dense d) (dense d')
  | records {r r' : RecordTable} (rows : r'.rows = r.rows)
      (bytes : r'.bytes.length = r.bytes.length) : SameArrays (records r) (records r')
  | columns {c c' : ColumnTable} (rows : c'.rows = c.rows)
      (types : c.vectors.map ScalarVector.type <+: c'.vectors.map ScalarVector.type)
      (lengths : c.vectors.map ScalarVector.length <+: c'.vectors.map ScalarVector.length) :
      SameArrays (columns c) (columns c')
  /-- The bounds of the rows say how many there are. -/
  | sparse {t : ScalarType} {s s' : SparseTable t} (pattern : s.SamePattern s') :
      SameArrays (sparse s) (sparse s')
  | packed {t : ScalarType} {p p' : PackedTable t} (dimension : p'.dimension = p.dimension)
      (values : p'.values.length = p.values.length) : SameArrays (packed p) (packed p')

namespace SameArrays

theorem refl (x : Table) : SameArrays x x := by
  cases x with
  | dense table => exact dense rfl rfl
  | records table => exact records rfl rfl
  | columns table => exact columns rfl (List.prefix_refl _) (List.prefix_refl _)
  | sparse table => exact sparse (.refl table)
  | packed table => exact packed rfl rfl

theorem trans {x y z : Table} (h : SameArrays x y) (h' : SameArrays y z) : SameArrays x z := by
  cases h with
  | dense rows cells =>
      cases h' with
      | dense rows' cells' => exact dense (rows'.trans rows) (cells'.trans cells)
  | records rows bytes =>
      cases h' with
      | records rows' bytes' => exact records (rows'.trans rows) (bytes'.trans bytes)
  | columns rows types lengths =>
      cases h' with
      | columns rows' types' lengths' =>
          exact columns (rows'.trans rows) (types.trans types') (lengths.trans lengths')
  | sparse pattern =>
      cases h' with
      | sparse pattern' => exact sparse (pattern.trans pattern')
  | packed dimension values =>
      cases h' with
      | packed dimension' values' =>
          exact packed (dimension'.trans dimension) (values'.trans values)

theorem rows_eq {x y : Table} (h : SameArrays x y) : TableLike.rows y = TableLike.rows x := by
  cases h with
  | dense rows _ => exact rows
  | records rows _ => exact rows
  | columns rows _ _ => exact rows
  | sparse pattern => exact congrArg (fun offsets => offsets.length - 1) pattern.offsets
  | packed dimension _ => exact dimension

/-- Another owner has the same arrays. -/
theorem owned (x : Table) : SameArrays x x.owned := by
  cases x with
  | dense table => exact dense rfl rfl
  | records table => exact records rfl rfl
  | columns table => exact columns rfl (List.prefix_refl _) (List.prefix_refl _)
  | sparse table => exact sparse ⟨rfl, rfl, rfl⟩
  | packed table => exact packed rfl rfl

theorem withDictionary (x : Table) (dictionary : Dictionary) :
    SameArrays x (TableLike.withDictionary x dictionary) := by
  cases x with
  | dense table => exact dense rfl rfl
  | records table => exact records rfl rfl
  | columns table => exact columns rfl (List.prefix_refl _) (List.prefix_refl _)
  | sparse table => exact sparse ⟨rfl, rfl, rfl⟩
  | packed table => exact packed rfl rfl

/-- Other cells are in the same arrays, unless a sparse table owns them. -/
theorem of_rewritten {x y : Table} (h : Rewritten x y)
    (hpattern : status x = .userAllocated ∨ tag x ≠ .sparse) : SameArrays x y := by
  cases h with
  | dense length => exact dense rfl length
  | records length => exact records rfl length
  | columns types lengths =>
      exact columns rfl (types ▸ List.prefix_refl _) (lengths ▸ List.prefix_refl _)
  | sparse _ _ _ _ pattern =>
      rcases hpattern with huser | hother
      · exact sparse (pattern huser)
      · exact absurd rfl hother
  | packed length => exact packed rfl length

/-- A column that is added comes after those that were there. -/
theorem of_pushColumn {c c' : ColumnTable} {vector : ScalarVector}
    (h : c.pushColumn vector = .ok c') : SameArrays (.columns c) (.columns c') := by
  rcases check_bind_eq_ok_iff.1 h with ⟨_, h⟩
  rcases check_bind_eq_ok_iff.1 h with ⟨_, h⟩
  cases h
  refine columns rfl ?_ ?_
  · rw [List.map_append]
    exact List.prefix_append _ _
  · rw [List.map_append]
    exact List.prefix_append _ _

end SameArrays

/-! ## Refusals -/

section Refusals

variable {x y : Table}

/-- A table over arrays that were handed in has as many rows as they are for. -/
theorem resize_refused (huser : status x = .userAllocated) {rows : Nat}
    (hrows : rows ≠ TableLike.rows x) :
    if tag x = .packed then TableLike.resize x rows = .error (.unsupported "resize" (layout x))
    else OwnershipRefused (TableLike.resize x rows) := by
  cases x with
  | dense d =>
      replace huser : d.status = .userAllocated := huser
      replace hrows : rows ≠ d.rows := hrows
      have hrefused : OwnershipRefused (d.resize rows) := by
        rw [DenseTable.resize, if_neg hrows, huser]
        exact ⟨_, rfl⟩
      exact hrefused.map dense
  | records r =>
      replace huser : r.status = .userAllocated := huser
      replace hrows : rows ≠ r.rows := hrows
      have hrefused : OwnershipRefused (r.resize rows) := by
        rw [RecordTable.resize, if_neg hrows, huser]
        exact ⟨_, rfl⟩
      exact hrefused.map records
  | columns c =>
      replace huser : c.status = .userAllocated := huser
      replace hrows : rows ≠ c.rows := hrows
      have hrefused : OwnershipRefused (c.resize rows) := by
        rw [ColumnTable.resize, if_neg hrows, if_pos huser]
        exact ⟨_, rfl⟩
      exact hrefused.map columns
  | sparse s =>
      replace huser : s.status = .userAllocated := huser
      replace hrows : rows ≠ s.rows := hrows
      have hrefused : OwnershipRefused (s.resize rows) := by
        rw [SparseTable.resize, if_neg hrows, if_pos huser]
        exact ⟨_, rfl⟩
      exact hrefused.map sparse
  | packed p => exact congrArg (Functor.map packed) (if_neg hrows)

theorem allocate_refused (huser : status x = .userAllocated)
    {outcome : Except TableError Table} (houtcome : x.allocate? = some outcome) :
    OwnershipRefused outcome := by
  cases x with
  | dense d =>
      cases houtcome
      refine OwnershipRefused.map ?_ dense
      simp only [DenseTable.allocate, throw_eq_error, error_bind]
      exact ⟨_, if_pos huser⟩
  | records r =>
      cases houtcome
      refine OwnershipRefused.map ?_ records
      simp only [RecordTable.allocate, throw_eq_error, error_bind]
      exact ⟨_, if_pos huser⟩
  | columns c =>
      cases houtcome
      refine OwnershipRefused.map ?_ columns
      simp only [ColumnTable.allocate, throw_eq_error, error_bind]
      exact ⟨_, if_pos huser⟩
  | sparse s => cases houtcome
  | packed p => cases houtcome

theorem eq_of_resize (huser : status x = .userAllocated) {rows : Nat}
    (hy : TableLike.resize x rows = .ok y) : y = x := by
  by_cases hrows : rows = TableLike.rows x
  · rw [hrows, resize_rows] at hy
    exact (Except.ok.inj hy).symm
  · have hrefused := resize_refused huser hrows
    rw [hy] at hrefused
    split at hrefused
    · cases hrefused
    · obtain ⟨detail, hdetail⟩ := hrefused
      cases hdetail

end Refusals

/-! ## Changes -/

section Effects

variable {change : Change} {x y : Table}

/-- A change leaves the owner of the storage as it is, gives the storage back, or gives the table
storage of its own. -/
theorem Effect.status_eq (h : Effect change x y) :
    status y = status x
      ∨ change = .free ∧ status y = .notAllocated
      ∨ change = .allocate ∧ status x ≠ .userAllocated ∧ status y = .internallyAllocated := by
  cases h with
  | rewritten h => exact .inl h.status_eq
  | redescribed h =>
      obtain ⟨dictionary, rfl⟩ := h.exists_dictionary
      exact .inl (status_withDictionary x dictionary)
  | edited x dictionary => exact .inl (status_withDictionary x dictionary)
  | resized h => exact .inl (resized_of_resize h).status_eq
  | allocated h =>
      refine .inr (.inr ⟨rfl, fun huser => ?_, (allocated_of_allocate h).status_eq⟩)
      obtain ⟨detail, hdetail⟩ := allocate_refused huser h
      cases hdetail
  | freed d => exact .inr (.inl ⟨rfl, rfl⟩)
  | extended h =>
      rcases check_bind_eq_ok_iff.1 h with ⟨_, h⟩
      rcases check_bind_eq_ok_iff.1 h with ⟨_, h⟩
      cases h
      exact .inl rfl

/-- When the storage still belongs to the caller after a change, it did before, and the change left
the arrays as they were. -/
theorem Effect.sameArrays (h : Effect change x y) (huser : status y = .userAllocated) :
    status x = .userAllocated ∧ SameArrays x y := by
  have hbefore : status x = .userAllocated := by
    rcases h.status_eq with hsame | ⟨_, hfree⟩ | ⟨_, _, hown⟩
    · exact hsame.symm.trans huser
    · cases hfree.symm.trans huser
    · cases hown.symm.trans huser
  refine ⟨hbefore, ?_⟩
  cases h with
  | rewritten h => exact .of_rewritten h (.inl hbefore)
  | redescribed h =>
      obtain ⟨dictionary, rfl⟩ := h.exists_dictionary
      exact .withDictionary x dictionary
  | edited x dictionary => exact .withDictionary x dictionary
  | resized h => exact eq_of_resize hbefore h ▸ SameArrays.refl x
  | allocated h =>
      obtain ⟨detail, hdetail⟩ := allocate_refused hbefore h
      cases hdetail
  | freed d => cases huser
  | extended h => exact .of_pushColumn h

/-- The storage stops being the caller's in one way only. -/
theorem Effect.free_of_left (h : Effect change x y) (huser : status x = .userAllocated)
    (hleft : status y ≠ .userAllocated) : change = .free ∧ status y = .notAllocated := by
  rcases h.status_eq with hsame | hfree | ⟨_, hother, _⟩
  · exact absurd (hsame.trans huser) hleft
  · exact hfree
  · exact absurd huser hother

end Effects

/-! ## Requests that need other arrays -/

section Requests

variable {t u : ScalarType} {s : SparseTable t} {y : Table}

/-- A table that is not sparse has the same arrays whatever is written to it. -/
theorem sameArrays_of_rewritten_owned {x : Table} (h : Rewritten x.owned y)
    (hother : tag x ≠ .sparse) : SameArrays x y := by
  have htag : tag x.owned ≠ .sparse := by
    cases x <;> exact hother
  exact (SameArrays.owned x).trans (.of_rewritten h (.inr htag))

/-- A write of rows or of a column that would store more cells is refused. -/
theorem write_refused (h : s.WellFormed) (huser : s.status = .userAllocated) (sel : Selection)
    {values : List u.Value} (hy : sel.write (sparse s.owned) u values = .ok y)
    (hchanged : ¬SameArrays (sparse s) y) : OwnershipRefused (sel.write (sparse s) u values) := by
  rcases sel with ⟨column, range⟩
  cases column with
  | none =>
      rcases map_eq_ok_iff.1 hy with ⟨s', hs', rfl⟩
      have hpattern : ¬s.SamePattern s' := fun hsame => hchanged (.sparse hsame)
      exact OwnershipRefused.map (SparseTable.writeRows_refused h huser hs' hpattern) sparse
  | some column =>
      rcases map_eq_ok_iff.1 hy with ⟨s', hs', rfl⟩
      have hpattern : ¬s.SamePattern s' := fun hsame => hchanged (.sparse hsame)
      exact OwnershipRefused.map (SparseTable.writeColumn_refused h huser hs' hpattern) sparse

/-- A region of a sparse table is edited in a buffer. -/
theorem edit_sparse (region : Region) (s : SparseTable t) (u : ScalarType) (mode : AccessMode) :
    region.edit (sparse s) u mode = (do
      region.grant (sparse s)
      region.stage (sparse s) u mode) := by
  rw [Region.edit_eq, directType_sparse]
  simp

/-- The buffer is the same whoever owns the arrays. -/
theorem stage_of_owned {region : Region} {mode : AccessMode} {block : EditBlock Table u}
    (hblock : region.stage (sparse s.owned) u mode = .ok block) :
    region.stage (sparse s) u mode = .ok { block with target := .staged (sparse s) } := by
  rcases bind_eq_ok_iff.1 hblock with ⟨cells, hcells, hblock⟩
  rcases bind_eq_ok_iff.1 hblock with ⟨blank, hblank, hblock⟩
  replace hcells : region.number (sparse s) = .ok cells := hcells
  rw [Region.stage, hcells, ok_bind, hblank, ok_bind]
  dsimp only at hblock ⊢
  split at hblock
  · rename_i hreads
    rcases bind_eq_ok_iff.1 hblock with ⟨values, hvalues, hblock⟩
    replace hvalues : region.selection.read (sparse s) u cells = .ok values := hvalues
    cases hblock
    rw [if_pos hreads, hvalues]
    rfl
  · rename_i hreads
    cases hblock
    rw [if_neg hreads]
    rfl

/-- A block that would store more cells is refused when it is released. -/
theorem editCells_refused (h : s.WellFormed) (huser : s.status = .userAllocated)
    {region : Region} {mode : AccessMode} {edits : List (Edit u)}
    (hy : (Request.editCells region mode edits).answer (sparse s.owned) = .ok y)
    (hchanged : ¬SameArrays (sparse s) y) :
    OwnershipRefused ((Request.editCells region mode edits).answer (sparse s)) := by
  rcases bind_eq_ok_iff.1 hy with ⟨block, hblock, hrelease⟩
  rw [edit_sparse] at hblock
  rcases check_bind_eq_ok_iff.1 hblock with ⟨hgrant, hstage⟩
  rcases check_bind_eq_ok_iff.1 hgrant with ⟨_, hplaces⟩
  have hallocated : ensureAllocated (status (sparse s)) = .ok () := by
    refine ensureAllocated_eq_ok_iff.2 ?_
    replace huser : status (sparse s) = .userAllocated := huser
    rw [huser]
    rfl
  have hgranted : region.grant (sparse s) = .ok () :=
    check_bind_eq_ok_iff.2 ⟨hallocated, hplaces⟩
  rw [Request.answer, edit_sparse, bind_of_ok hgranted, stage_of_owned hstage, ok_bind,
    EditBlock.foldl_edit]
  -- both blocks are edited alike, and what is left is to write their values
  obtain ⟨before, width, rfl⟩ := Rewrites.staged_of_stage hstage
  rw [EditBlock.foldl_edit, Region.release_staged] at hrelease
  rw [Region.release_staged]
  split at hrelease
  · rename_i hwrites
    rw [if_pos hwrites]
    exact write_refused h huser _ hrelease hchanged
  · cases hrelease
    exact absurd (SameArrays.owned (sparse s)) hchanged

theorem Sound.owned {x : Table} (hx : x.Sound) (hstatus : (status x).isAllocated) :
    x.owned.Sound := by
  cases x with
  | dense d => exact DenseTable.Sound.owned hx hstatus
  | records r => exact RecordTable.Sound.owned hx hstatus
  | columns c => exact ColumnTable.Sound.owned hx
  | sparse s => exact SparseTable.WellFormed.owned hx
  | packed p => exact PackedTable.Sound.owned hx

/-- What would change the arrays, if they were the table's own, is refused while they are not. -/
theorem answer_refused {x : Table} (hx : x.Sound) (huser : status x = .userAllocated)
    {request : Request} (hy : request.answer x.owned = .ok y) (hchanged : ¬SameArrays x y) :
    OwnershipRefused (request.answer x) := by
  have hself : y ≠ x.owned := by
    rintro rfl
    exact hchanged (.owned x)
  have howned : x.owned.Sound := hx.owned (by rw [huser]; rfl)
  cases request with
  -- only a sparse table has no place for some cells
  | writeRows range values =>
      have hrewritten : Rewritten x.owned y := rewrites.writeRows howned hy
      cases x with
      | sparse s => exact write_refused hx huser ⟨none, range⟩ hy hchanged
      | _ => exact absurd (sameArrays_of_rewritten_owned hrewritten nofun) hchanged
  | writeColumn column range values =>
      have hrewritten : Rewritten x.owned y := rewrites.writeColumn howned hy
      cases x with
      | sparse s => exact write_refused hx huser ⟨some column, range⟩ hy hchanged
      | _ => exact absurd (sameArrays_of_rewritten_owned hrewritten nofun) hchanged
  | editCells region mode edits =>
      have hrewritten : Rewritten x.owned y := by
        rcases bind_eq_ok_iff.1 hy with ⟨block, hblock, hrelease⟩
        rw [← EditBlock.abandon_of_release hrelease]
        exact rewrites.abandon howned hblock edits
      cases x with
      | sparse s => exact editCells_refused hx huser hy hchanged
      | _ => exact absurd (sameArrays_of_rewritten_owned hrewritten nofun) hchanged
  | editStored start count mode edits =>
      cases x with
      | sparse s =>
          rcases map_eq_ok_iff.1 hy with ⟨s', hs', rfl⟩
          rcases bind_eq_ok_iff.1 hs' with ⟨block, hblock, hrelease⟩
          cases hrelease
          have hpattern := SparseTable.samePattern_release hblock edits
          exact absurd ((SameArrays.owned (sparse s)).trans (.sparse hpattern)) hchanged
      | _ => exact absurd (Except.ok.inj hy).symm hself
  | resize rows =>
      by_cases hrows : rows = TableLike.rows x
      · have hsame : TableLike.resize x.owned rows = .ok x.owned := by
          rw [hrows, ← (SameArrays.owned x).rows_eq, resize_rows]
        exact absurd (Except.ok.inj (hy.symm.trans hsame)) hself
      · have hrefused := resize_refused huser hrows
        split at hrefused
        -- a packed table has its dimension whoever owns the triangle
        · rename_i htag
          cases x with
          | packed p =>
              rcases map_eq_ok_iff.1 hy with ⟨p', hp', _⟩
              exact absurd (ite_ok_eq_ok_iff.1 hp').1 hrows
          | _ => cases htag
        · exact hrefused
  | setDictionary handle dictionary =>
      obtain ⟨_, rfl⟩ := (redescribed_of_setDictionary hy).exists_dictionary
      exact absurd ((SameArrays.owned x).trans (.withDictionary x.owned _)) hchanged
  | allocate =>
      cases hallocate : x.allocate? with
      | some outcome =>
          rw [Request.answer, hallocate]
          exact allocate_refused huser hallocate
      | none =>
          cases x with
          | sparse s => exact absurd (Except.ok.inj hy).symm hself
          | packed p => exact absurd (Except.ok.inj hy).symm hself
          | _ => cases hallocate
  | pushColumn vector =>
      cases x with
      | columns c =>
          rcases map_eq_ok_iff.1 hy with ⟨c', hc', rfl⟩
          exact absurd ((SameArrays.owned (columns c)).trans (.of_pushColumn hc')) hchanged
      | _ => exact absurd (Except.ok.inj hy).symm hself

end Requests

/-! ## Every history -/

/-- What is refused, and what ends it, while the arrays of a table belong to the caller. -/
structure Guarded (x : Table) : Prop where
  resize : ∀ rows, rows ≠ TableLike.rows x →
    if tag x = .packed then TableLike.resize x rows = .error (.unsupported "resize" (layout x))
    else OwnershipRefused (TableLike.resize x rows)
  allocate : ∀ outcome, x.allocate? = some outcome → OwnershipRefused outcome
  /-- A request is refused if a table that owns its arrays would need other ones for it. -/
  requests : ∀ (request : Request) (y : Table), request.answer x.owned = .ok y →
    ¬SameArrays x y → OwnershipRefused (request.answer x)
  ends : ∀ change : Change, status (change.after x) ≠ .userAllocated →
    change = .free ∧ status (change.after x) = .notAllocated

theorem guarded {x : Table} (hx : x.Sound) (huser : status x = .userAllocated) : Guarded x where
  resize _ hrows := resize_refused huser hrows
  allocate _ houtcome := allocate_refused huser houtcome
  requests _ _ hy hchanged := answer_refused hx huser hy hchanged
  ends change hleft := (Change.effect hx change).free_of_left huser hleft

theorem sound_of_changes {x : Table} (hx : x.Sound) (changes : List Change) :
    (changes.foldl Change.after x).Sound := by
  induction changes generalizing x with
  | nil => exact hx
  | cons change rest ih => exact ih (hx.after change)

/-- If the arrays are the caller's after some changes, they were all along, and are the same. -/
theorem sameArrays_of_changes {x : Table} (hx : x.Sound) {changes : List Change}
    (huser : status (changes.foldl Change.after x) = .userAllocated) :
    status x = .userAllocated ∧ SameArrays x (changes.foldl Change.after x) := by
  induction changes generalizing x with
  | nil => exact ⟨huser, .refl x⟩
  | cons change rest ih =>
      rcases ih (hx.after change) huser with ⟨hafter, hrest⟩
      rcases (Change.effect hx change).sameArrays hafter with ⟨hbefore, hfirst⟩
      exact ⟨hbefore, hfirst.trans hrest⟩

/-- Whatever was done to a table over arrays that were handed in, while they are the caller's they
are the same, and stay so; and once they are not, they never are again. -/
theorem Attached.keeps_arrays {start x : Table} (h : start.Attached) {changes : List Change}
    (hx : changes.foldl Change.after start = x) :
    (status x = .userAllocated →
        TableLike.rows x = TableLike.rows start ∧ SameArrays start x ∧ Guarded x)
      ∧ (status x ≠ .userAllocated → ∀ change : Change,
          status (change.after x) ≠ .userAllocated) := by
  have hsound : x.Sound := hx ▸ sound_of_changes h.sound changes
  refine ⟨?_, ?_⟩
  · intro huser
    have hsame : SameArrays start x := by
      rw [← hx] at huser ⊢
      exact (sameArrays_of_changes h.sound huser).2
    exact ⟨hsame.rows_eq, hsame, guarded hsound huser⟩
  · intro hother change hagain
    exact hother ((Change.effect hsound change).sameArrays hagain).1

/-- Three rows of three columns; the middle row stores no cell. -/
def handedIn (values : List ScalarType.int32.Value) : Table :=
  sparse
    { columns := 3, status := .userAllocated, values, columnIndices := [0, 2, 1]
      rowOffsets := [0, 2, 2, 3], dictionary := .unnamed 3 .int32 }

/-- A row is written over, and neither a new cell nor another number of rows is had. -/
theorem keeps_arrays_handedIn :
    (handedIn [5, 6, 7]).Attached
      ∧ status (handedIn [0, 9, 7]) = .userAllocated
      ∧ [.writeRows ⟨0, 1⟩ ⟨.int32, [0, 0, 9]⟩, .writeRows ⟨1, 2⟩ ⟨.int32, [0, 4, 0]⟩,
          .resize 5].foldl Change.after (handedIn [5, 6, 7]) = handedIn [0, 9, 7]
      ∧ OwnershipRefused
          ((Request.writeRows ⟨1, 2⟩ ⟨.int32, [0, 4, 0]⟩).answer (handedIn [0, 9, 7]))
      ∧ (status (handedIn [0, 9, 7]) = .userAllocated →
          TableLike.rows (handedIn [0, 9, 7]) = TableLike.rows (handedIn [5, 6, 7])
            ∧ SameArrays (handedIn [5, 6, 7]) (handedIn [0, 9, 7]) ∧ Guarded (handedIn [0, 9, 7]))
      ∧ (status (handedIn [0, 9, 7]) ≠ .userAllocated → ∀ change : Change,
          status (change.after (handedIn [0, 9, 7])) ≠ .userAllocated) := by
  have hbuilt : SparseTable.attach (t := .int32) [5, 6, 7] [0, 2, 1] [0, 2, 2, 3] 3 .zero
      = .ok { columns := 3, status := .userAllocated, values := [5, 6, 7]
              columnIndices := [0, 2, 1], rowOffsets := [0, 2, 2, 3]
              dictionary := .unnamed 3 .int32 } := rfl
  have hattached : (handedIn [5, 6, 7]).Attached := .sparse hbuilt
  have hafter : [.writeRows ⟨0, 1⟩ ⟨.int32, [0, 0, 9]⟩, .writeRows ⟨1, 2⟩ ⟨.int32, [0, 4, 0]⟩,
      .resize 5].foldl Change.after (handedIn [5, 6, 7]) = handedIn [0, 9, 7] := rfl
  exact ⟨hattached, rfl, hafter, ⟨_, rfl⟩, hattached.keeps_arrays hafter⟩

end Table

end Tabular
