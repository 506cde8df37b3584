import Tabular.Proofs.Cells.Blocks
import Tabular.Proofs.InPlace.Columns
import Tabular.Proofs.InPlace.Kinds

/-!
# Requests that change a table

A request is refused with an error or changes a table that a caller holds, together with its slots.
Whatever a request did before it was refused is undone when it returns.

* `Table.faithful`: tables of any kind are changed as their kind changes them;
* `Faithful.store`: what a block writes back;
* `Request.follows`: every request does in place what the operations on tables say;
* `Request.left_history`: so a history leaves what its granted requests ask for;
* `Request.refused_leaves_entry`: hence a refused one leaves the table and its slots as they were.
-/

namespace Tabular

/-! ## Tables of any kind -/

namespace Table

/-- What the kinds of table do alike in place, a table of any kind does. -/
theorem follows_opened {x : Table} (hx : x.Sound)
    (operation : (κ : Type) → [TableLike κ] → κ → Except TableError κ)
    (change : (κ : Type) → [TableStore κ] → InPlace κ Unit)
    (h : ∀ (κ : Type) [TableLike κ] [TableStore κ] (P : κ → Prop), Faithful P → ∀ y, P y →
      Follows y (operation κ y) (change κ y)) :
    Follows x (x.opened.close <$> @operation x.opened.Kind x.opened.tableLike x.opened.table)
      (InPlace.within x.openedStore.close
        (@change x.openedStore.Kind x.openedStore.tableStore) x.openedStore.table) := by
  cases x with
  | dense table => exact (h _ _ DenseTable.faithful table trivial).within _
  | records table => exact (h _ _ RecordTable.faithful table trivial).within _
  | columns table => exact (h _ _ ColumnTable.faithful table hx).within _
  | sparse table => exact (h _ _ SparseTable.faithful table trivial).within _
  | packed table => exact (h _ _ PackedTable.faithful table trivial).within _

theorem faithful : Faithful Sound where
  rows hx range s values :=
    follows_opened hx (fun _ [TableLike _] y => TableLike.writeRows y range s values)
      (fun _ [TableStore _] => TableStore.storeRows range s values)
      fun _ _ _ _ h _ hy => h.rows hy range s values
  column hx column range s values :=
    follows_opened hx (fun _ [TableLike _] y => TableLike.writeColumn y column range s values)
      (fun _ [TableStore _] => TableStore.storeColumn column range s values)
      fun _ _ _ _ h _ hy => h.column hy column range s values
  resize hx rows :=
    follows_opened hx (fun _ [TableLike _] y => TableLike.resize y rows)
      (fun _ [TableStore _] => TableStore.resizeRows rows)
      fun _ _ _ _ h _ hy => h.resize hy rows
  dictionary hx dictionary :=
    follows_opened hx (fun _ [TableLike _] y => TableLike.setDictionary y dictionary)
      (fun _ [TableStore _] => TableStore.replaceDictionary dictionary)
      fun _ _ _ _ h _ hy => h.dictionary hy dictionary

theorem follows_allocate (x : Table) :
    Follows x (x.allocate?.getD (.ok x)) (allocateStorage x) := by
  cases x with
  | dense table => exact (DenseTable.follows_allocate table).within _
  | records table => exact (RecordTable.follows_allocate table).within _
  | columns table => exact (ColumnTable.follows_allocate table).within _
  | sparse table => exact Follows.done _
  | packed table => exact Follows.done _

end Table

/-! ## Blocks -/

section Blocks

variable {τ : Type} [TableLike τ] {P : τ → Prop} {x : τ} {u : ScalarType}

/-- The values of a block go to the storage itself, or are staged for the table `x`. -/
def EditTarget.Over (x : τ) : EditTarget τ u → Prop
  | direct _ => True
  | staged table => table = x

theorem Region.over_edit {region : Region} {mode : AccessMode} {block : EditBlock τ u}
    (h : region.edit x u mode = .ok block) : block.target.Over x := by
  rw [edit_eq] at h
  rcases check_bind_eq_ok_iff.1 h with ⟨_, h⟩
  split at h
  · split at h
    · cases h
      trivial
    · cases h
  -- whether the table was read or not, a staged block has the table that it was asked of
  · rcases bind_eq_ok_iff.1 h with ⟨_, _, h⟩
    have hkeeps : block.target.Keeps (Eq x) := keeps_staged rfl h
    cases htarget : block.target with
    | direct put => trivial
    | staged table =>
        rw [htarget] at hkeeps
        exact hkeeps.symm

omit [TableLike τ] in
/-- Edits change the values of a block and not where they go. -/
theorem EditTarget.Over.edits {block : EditBlock τ u} (h : block.target.Over x)
    (edits : List (Edit u)) : (edits.foldl EditBlock.edit block).target.Over x := by
  rcases block.exists_edits edits with ⟨values, _, hedits⟩
  rw [hedits]
  exact h

variable [TableStore τ]

/-- A block is written back as cells are written, or is in the storage already. -/
theorem Faithful.store (h : Faithful P) (hx : P x) {block : EditBlock τ u}
    (hblock : block.target.Over x) : Follows x block.release (block.store x) := by
  rcases block with ⟨values, region, width, mode, target⟩
  cases target with
  | direct put => exact Follows.done _
  | staged table =>
      obtain rfl : table = x := hblock
      rcases region with ⟨column, start, rows⟩
      refine Follows.ite (fun _ => ?_) fun _ => Follows.done _
      cases column with
      | none => exact h.rows hx _ u values
      | some column => exact h.column hx column _ u values

end Blocks

namespace SparseTable

variable {t u : ScalarType}

/-- A block of stored cells is written over them, which cannot fail. -/
theorem follows_store {s : SparseTable t} {edit : SparseEdit t u} (h : edit.table = s) :
    Follows s (.ok edit.release) (edit.store s) := by
  subst h
  rw [SparseEdit.release]
  by_cases hwrites : edit.mode.writes
  · rw [if_pos hwrites, SparseEdit.store, if_pos hwrites]
    exact Follows.done _
  · rw [if_neg hwrites, SparseEdit.store, if_neg hwrites]
    exact Follows.done _

end SparseTable

/-! ## Requests -/

/-- A call that may change a table. -/
inductive Request where
  | writeRows (range : RowRange) (values : ScalarVector)
  | writeColumn (column : Nat) (range : RowRange) (values : ScalarVector)
  | resize (rows : Nat)
  /-- The table is to use a dictionary, which has a handle. -/
  | setDictionary (handle : Handle) (dictionary : Dictionary)
  | allocate
  | pushColumn (vector : ScalarVector)
  /-- A block is acquired, edited and released. -/
  | editCells {u : ScalarType} (region : Region) (mode : AccessMode) (edits : List (Edit u))
  /-- A block of stored cells is acquired, edited and released. -/
  | editStored {u : ScalarType} (start count : Nat) (mode : AccessMode) (edits : List (Edit u))

namespace Request

/-- The table that a request asks for, or why there is none. Kinds of table that do not know the
request are left alone. -/
def answer (x : Table) : Request → Except TableError Table
  | writeRows range values => TableLike.writeRows x range values.type values.values
  | writeColumn column range values =>
      TableLike.writeColumn x column range values.type values.values
  | resize rows => TableLike.resize x rows
  | setDictionary _ dictionary => TableLike.setDictionary x dictionary
  | allocate => x.allocate?.getD (.ok x)
  | pushColumn vector =>
      match x with
      | .columns table => .columns <$> table.pushColumn vector
      | _ => .ok x
  | editCells (u := u) region mode edits => do
      let block ← region.edit x u mode
      (edits.foldl EditBlock.edit block).release
  | editStored (u := u) start count mode edits =>
      match x with
      | .sparse table => .sparse <$> do
        let block ← table.edit u start count mode
        return (edits.foldl SparseEdit.edit block).release
      | _ => .ok x

/-- What a request does to the table. -/
def change : Request → InPlace Table Unit
  | writeRows range values => TableStore.storeRows range values.type values.values
  | writeColumn column range values =>
      TableStore.storeColumn column range values.type values.values
  | resize rows => TableStore.resizeRows rows
  | setDictionary _ dictionary => TableStore.replaceDictionary dictionary
  | allocate => Table.allocateStorage
  | pushColumn vector => Table.appendColumn vector
  | editCells (u := u) region mode edits => do
      let block ← region.edit (← get) u mode
      (edits.foldl EditBlock.edit block).store
  | editStored (u := u) start count mode edits => fun
      | .sparse table =>
          InPlace.within .sparse (do
            let block ← (← get).edit u start count mode
            (edits.foldl SparseEdit.edit block).store) table
      | x => .ok () x

theorem follows_change {x : Table} (hx : x.Sound) (request : Request) :
    Follows x (request.answer x) (request.change x) := by
  cases request with
  | writeRows range values => exact Table.faithful.rows hx range _ _
  | writeColumn column range values => exact Table.faithful.column hx column range _ _
  | resize rows => exact Table.faithful.resize hx rows
  | setDictionary handle dictionary => exact Table.faithful.dictionary hx dictionary
  | allocate => exact x.follows_allocate
  | pushColumn vector =>
      cases x with
      | columns table => exact (ColumnTable.follows_append table vector).within _
      | _ => exact Follows.done _
  | editCells region mode edits =>
      refine Follows.compute fun block hblock => ?_
      exact Table.faithful.store hx ((Region.over_edit hblock).edits edits)
  | editStored start count mode edits =>
      cases x with
      | sparse table =>
          refine Follows.within ?_ _
          refine Follows.compute fun block hblock => ?_
          refine SparseTable.follows_store ?_
          rw [SparseTable.table_edits, SparseTable.edit_table hblock]
      | _ => exact Follows.done _

/-- The entry that a request asks for, or why there is none. -/
def outcome (e : Entry Table) : Request → Except TableError (Entry Table)
  | setDictionary handle dictionary =>
      (fun table => { e with table, handle }) <$> TableLike.setDictionary e.table dictionary
  | request => (fun table => { e with table }) <$> request.answer e.table

/-- What a request does to the entry. -/
def run : Request → InPlace (Entry Table) Unit
  | setDictionary handle dictionary => Entry.adopt handle dictionary
  | request => Entry.inTable request.change

theorem follows {e : Entry Table} (he : e.table.Sound) (request : Request) :
    Follows e (request.outcome e) (request.run e) := by
  have hchange : Follows e ((fun table => { e with table }) <$> request.answer e.table)
      (Entry.inTable request.change e) :=
    (follows_change he request).within fun table => { e with table }
  cases request with
  -- the handle is exchanged last, when the table has the dictionary
  | setDictionary handle dictionary =>
      have hadopted := hchange.andStore fun e => { e with handle }
      rw [Functor.map_map] at hadopted
      exact hadopted
  | _ => exact hchange

/-! ### Histories -/

/-- What a block that was released leaves is one of the tables that can be reached. -/
theorem reachable_release {x : Table} (hx : x.Reachable) {u : ScalarType} {region : Region}
    {mode : AccessMode} {block : EditBlock Table u} (hblock : region.edit x u mode = .ok block)
    (edits : List (Edit u)) {y : Table}
    (hy : (edits.foldl EditBlock.edit block).release = .ok y) : y.Reachable := by
  rw [← EditBlock.abandon_of_release hy]
  rcases region with ⟨column, start, rows⟩
  cases column with
  | none =>
      have hafter := hx.changed (.editRows start rows mode edits)
      have hrows : editRows x u start rows mode = .ok block := hblock
      simp only [Table.Change.after, hrows] at hafter
      exact hafter
  | some column =>
      have hafter := hx.changed (.editColumn column start rows mode edits)
      have hcolumn : editColumn x u column start rows mode = .ok block := hblock
      simp only [Table.Change.after, hcolumn] at hafter
      exact hafter

/-- Requests lead from reachable tables to reachable tables. -/
theorem reachable_answer {x : Table} (hx : x.Reachable) (request : Request) :
    ((request.answer x).toOption.getD x).Reachable := by
  cases request with
  | writeRows range values => exact hx.changed (.writeRows range values)
  | writeColumn column range values => exact hx.changed (.writeColumn column range values)
  | resize rows => exact hx.changed (.resize rows)
  | setDictionary handle dictionary => exact hx.changed (.setDictionary dictionary)
  | allocate =>
      have hafter := hx.changed .allocate
      rw [Table.Change.after] at hafter
      rw [answer]
      cases hallocate : x.allocate? with
      | none => exact hx
      | some outcome =>
          rw [hallocate] at hafter
          exact hafter
  | pushColumn vector =>
      cases x with
      | columns table => exact hx.changed (.pushColumn vector)
      | _ => exact hx
  | editCells region mode edits =>
      refine Table.of_toOption_getD hx fun y hy => ?_
      rcases bind_eq_ok_iff.1 hy with ⟨block, hblock, hrelease⟩
      exact reachable_release hx hblock edits hrelease
  | editStored start count mode edits =>
      cases x with
      | sparse table =>
          refine Table.of_toOption_getD hx fun y hy => ?_
          rcases map_eq_ok_iff.1 hy with ⟨after, hafter, rfl⟩
          rcases bind_eq_ok_iff.1 hafter with ⟨block, hblock, hrelease⟩
          cases hrelease
          have hreached := hx.changed (.editStored start count mode edits)
          simp only [Table.Change.after, hblock] at hreached
          exact hreached
      | _ => exact hx

/-- The entry after a request: the one that it asks for or, when it is refused, the same. -/
def after (e : Entry Table) (request : Request) : Entry Table :=
  (request.outcome e).toOption.getD e

theorem reachable_after {e : Entry Table} (he : e.table.Reachable) (request : Request) :
    (request.after e).table.Reachable := by
  have htable : (request.after e).table = (request.answer e.table).toOption.getD e.table := by
    rw [after]
    cases request with
    | setDictionary handle dictionary =>
        rw [outcome, answer]
        cases TableLike.setDictionary e.table dictionary with
        | ok y => rfl
        | error e => rfl
    | _ =>
        simp only [outcome]
        cases answer e.table _ with
        | ok y => rfl
        | error e => rfl
  rw [htable]
  exact reachable_answer he request

/-- What a request leaves, unless it stops the program. -/
theorem left_run {e : Entry Table} (he : e.table.Reachable) {request : Request}
    (hruns : request.outcome e ≠ .error .fault) : request.run.left e = request.after e :=
  (follows he.sound request).left_eq hruns

/-- No request stops the program, when they are made one after the other. -/
def Runs : Entry Table → List Request → Prop
  | _, [] => True
  | e, request :: rest => request.outcome e ≠ .error .fault ∧ Runs (request.after e) rest

/-- A history leaves what the requests of it that were not refused ask for one after the other. -/
theorem left_history {requests : List Request} {e : Entry Table} (he : e.table.Reachable)
    (hruns : Runs e requests) :
    requests.foldl (fun e request => request.run.left e) e = requests.foldl after e := by
  induction requests generalizing e with
  | nil => rfl
  | cons request rest ih =>
      rw [List.foldl_cons, List.foldl_cons, left_run he hruns.1]
      exact ih (reachable_after he request) hruns.2

/-- A request does in place what the operations on tables say. When it returns an error, the table
and its slots are as they were, also when a vector in the middle of a table of columns cannot grow.
-/
theorem refused_leaves_entry {e : Entry Table} (he : e.table.Reachable) :
    (∀ request : Request,
      (∀ after, request.run e = .ok () after ↔ request.outcome e = .ok after)
      ∧ (∀ cause, (∃ after, request.run e = .error cause after)
          ↔ request.outcome e = .error cause)
      ∧ ∀ cause after, request.run e = .error cause after → cause ≠ .fault → after = e)
    ∧ ∀ (c : ColumnTable) (rows bytes : Nat) (before grown back : List ScalarVector)
        (v : ScalarVector),
      e.table = .columns c → c.status ≠ .userAllocated → c.vectors = before ++ v :: back →
      (before.mapM fun v => v.resize rows) = .ok grown →
      v.resize rows = .error (.allocationFailed bytes) →
      ((List.range before.length).forM (ColumnTable.resizeOrRestore rows) :
          InPlace ColumnTable Unit) c = .ok () { c with vectors := grown ++ v :: back }
        ∧ (resize rows).run e = .error (.allocationFailed bytes) e := by
  have hsound : e.table.Sound := he.sound
  refine ⟨?_, ?_⟩
  -- every error but a fault is one that the operation returns
  · intro request
    have hfollows := follows hsound request
    refine ⟨?_, ?_, ?_⟩
    · intro after
      exact hfollows.ok_iff
    · intro cause
      exact hfollows.error_iff
    · intro cause after hrefused hcause
      exact hfollows.eq_of_error hrefused hcause
  -- the loop of a table of columns, seen just before the vector that cannot grow and at its end
  · intro c rows bytes before grown back v hcolumns hstatus hvectors hgrown hv
    rcases e with ⟨table, handle, statistics⟩
    obtain rfl : table = .columns c := hcolumns
    rcases ColumnTable.Sound.resizeRows_restores hsound hvectors hstatus hgrown hv
      with ⟨hloop, hrefused⟩
    refine ⟨hloop, ?_⟩
    have htable : (TableStore.resizeRows rows : InPlace Table Unit) (.columns c)
        = .error (.allocationFailed bytes) (.columns c) := by
      change InPlace.within Table.columns (ColumnTable.resizeRows rows) c = _
      rw [InPlace.within, hrefused]
    change InPlace.within (fun table => (⟨table, handle, statistics⟩ : Entry Table))
      (TableStore.resizeRows rows) (.columns c) = _
    rw [InPlace.within, htable]

/-- One row of a truth value and a double. -/
def flagAndNumber : ColumnTable :=
  { rows := 1, status := .internallyAllocated
    vectors := [⟨.bool, [1]⟩, ⟨.float64, [0x3FF0000000000000]⟩]
    dictionary := ⟨[Feature.ofType .bool, Feature.ofType .float64]⟩ }

theorem reachable_flagAndNumber : (Table.columns flagAndNumber).Reachable := by
  have hnew : ColumnTable.new ⟨[]⟩ 1 = .ok ⟨1, .internallyAllocated, [], ⟨[]⟩⟩ := rfl
  have hempty := Table.Reachable.built (.zeroColumns hnew)
  have hflag := hempty.changed (.pushColumn ⟨.bool, [1]⟩)
  exact hflag.changed (.pushColumn ⟨.float64, [0x3FF0000000000000]⟩)

/-- There is room for the truth values of so many rows, but not for their doubles. -/
theorem refused_leaves_flagAndNumber :
    (Table.columns flagAndNumber).Reachable
    ∧ ((List.range 1).forM (ColumnTable.resizeOrRestore (twoPow 62)) :
        InPlace ColumnTable Unit) flagAndNumber
      = .ok () { flagAndNumber with vectors :=
          [⟨.bool, fitLength [1] (twoPow 62) 0⟩, ⟨.float64, [0x3FF0000000000000]⟩] }
    ∧ (resize (twoPow 62)).run ⟨.columns flagAndNumber, 0, .empty⟩
      = .error (.allocationFailed wordMax) ⟨.columns flagAndNumber, 0, .empty⟩ := by
  have hflag : ScalarVector.resize ⟨.bool, [1]⟩ (twoPow 62)
      = .ok ⟨.bool, fitLength [1] (twoPow 62) 0⟩ := by
    rw [ScalarVector.resize, if_pos (by decide), reserve_eq_ok_iff.2 (by decide)]
    rfl
  have hflags : ([(⟨.bool, [1]⟩ : ScalarVector)].mapM fun v => v.resize (twoPow 62))
      = .ok [⟨.bool, fitLength [1] (twoPow 62) 0⟩] :=
    mapM_cons_eq_ok_iff.2 ⟨_, [], hflag, rfl, rfl⟩
  have hnumber : ScalarVector.resize ⟨.float64, [0x3FF0000000000000]⟩ (twoPow 62)
      = .error (.allocationFailed wordMax) := by
    rw [ScalarVector.resize, if_pos (by decide), reserve, if_neg (by decide)]
    rfl
  refine ⟨reachable_flagAndNumber, ?_⟩
  have howned : flagAndNumber.status ≠ .userAllocated := by decide
  exact (refused_leaves_entry reachable_flagAndNumber).2 flagAndNumber _ _ _ _ _ _ rfl howned rfl
    hflags hnumber

end Request

end Tabular
