import Tabular.Archive
import Tabular.Proofs.Sound.Table

/-!
# Rebuilt tables

What an archive is rebuilt to. Each builder takes the arrays over as attached storage is taken over,
so that a table that is read from an archive is sound: `sound_of_build` for the built-in builders,
and `sound_of_read` for archives.
-/

namespace Tabular

namespace Archive

theorem tableResult_eq_ok_iff {α : Type} {outcome : Except TableError α} {a : α} :
    tableResult outcome = .ok a ↔ outcome = .ok a := by
  cases outcome with
  | ok b => simp [tableResult]
  | error cause => simp [tableResult]

theorem finish_eq_ok_iff {τ : Type} [TableLike τ] {close : τ → Table} {record : TableRecord}
    {table : Except TableError τ} {x : Table} :
    finish close record table = .ok x ↔
      ∃ y z, table = .ok y ∧ TableLike.setDictionary y record.dictionary = .ok z ∧ close z = x := by
  rw [finish, tableResult_eq_ok_iff, bind_eq_ok_iff]
  constructor
  · rintro ⟨y, hy, hz⟩
    rcases bind_eq_ok_iff.1 hz with ⟨z, hz, hx⟩
    exact ⟨y, z, hy, hz, Except.ok.inj hx⟩
  · rintro ⟨y, z, hy, hz, rfl⟩
    exact ⟨y, hy, bind_eq_ok_iff.2 ⟨z, hz, rfl⟩⟩

/-- Taking over sound storage with a dictionary gives a sound table. -/
theorem sound_of_finish {τ : Type} [TableLike τ] {close : τ → Table} {P : τ → Prop} (hkept : Kept P)
    (hclose : ∀ y, P y → (close y).Sound) {record : TableRecord} {table : Except TableError τ}
    (htable : ∀ y, table = .ok y → P y) {x : Table} (hx : finish close record table = .ok x) :
    x.Sound := by
  rcases finish_eq_ok_iff.1 hx with ⟨y, z, hy, hz, rfl⟩
  exact hclose z (hkept.setDictionary (htable y hy) hz)

theorem sound_of_buildDense {record : TableRecord} {x : Table} (h : buildDense record = .ok x) :
    x.Sound := by
  rw [buildDense] at h
  split at h
  · refine sound_of_finish DenseTable.kept_sound (fun _ => id) ?_ h
    intro y hy
    rcases map_eq_ok_iff.1 hy with ⟨d, hd, rfl⟩
    -- attached storage is there, so that it can change its owner
    refine (DenseTable.sound_attach hd).owned ?_
    rcases DenseTable.attach_eq_ok_iff.1 hd with ⟨_, _, rfl⟩
    rfl
  · cases h

theorem sound_of_buildRecords {record : TableRecord} {x : Table} (h : buildRecords record = .ok x) :
    x.Sound := by
  rw [buildRecords] at h
  split at h
  · rcases bind_eq_ok_iff.1 (tableResult_eq_ok_iff.1 h) with ⟨r, hr, h⟩
    cases h
    refine (RecordTable.sound_attach hr).owned ?_
    rcases RecordTable.ofParts_eq_ok_iff.1 hr with ⟨_, _, rfl⟩
    rfl
  · cases h

theorem sound_of_buildColumns {record : TableRecord} {x : Table} (h : buildColumns record = .ok x) :
    x.Sound := by
  rw [buildColumns] at h
  split at h
  · rcases bind_eq_ok_iff.1 h with ⟨c, hc, h⟩
    have hsound := (ColumnTable.sound_attach (tableResult_eq_ok_iff.1 hc)).owned
    simp only [throw_eq_error, error_bind] at h
    refine sound_of_finish ColumnTable.kept_sound (fun _ => id) ?_ (ite_error_eq_ok_iff.1 h).2
    intro y hy
    cases hy
    exact hsound
  · cases h

theorem sound_of_buildSparse {record : TableRecord} {x : Table} (h : buildSparse record = .ok x) :
    x.Sound := by
  rw [buildSparse] at h
  split at h
  · refine sound_of_finish SparseTable.kept_wellFormed (fun _ => id) ?_ h
    intro y hy
    rcases map_eq_ok_iff.1 hy with ⟨s, hs, rfl⟩
    exact (SparseTable.wellFormed_attach hs).owned
  · cases h

theorem sound_of_buildPacked {record : TableRecord} {x : Table} (h : buildPacked record = .ok x) :
    x.Sound := by
  rw [buildPacked] at h
  split at h
  · refine sound_of_finish PackedTable.kept_sound (fun _ => id) ?_ h
    intro y hy
    rcases map_eq_ok_iff.1 hy with ⟨p, hp, rfl⟩
    exact (PackedTable.sound_attach hp).owned
  · cases h

theorem sound_of_build (tag : TableTag) {record : TableRecord} {x : Table}
    (h : builtinBuilder tag record = .ok x) : x.Sound := by
  cases tag with
  | dense => exact sound_of_buildDense h
  | records => exact sound_of_buildRecords h
  | columns => exact sound_of_buildColumns h
  | sparse => exact sound_of_buildSparse h
  | packed => exact sound_of_buildPacked h

theorem Registry.find?_builtin (tag : TableTag) :
    Registry.builtin.find? tag = some (builtinBuilder tag) := by
  cases tag with
  | dense => rfl
  | records => rfl
  | columns => rfl
  | sparse => rfl
  | packed => rfl

theorem Registry.create_builtin (tag : TableTag) (record : TableRecord) :
    Registry.builtin.create tag record = builtinBuilder tag record := by
  rw [Registry.create, Registry.find?_builtin]

/-- The frame and the record that a table was read from, and the builder that it comes from. -/
theorem exists_record_of_read {source : Source} {x : Table} (h : read .builtin source = .ok x) :
    ∃ header payload rest record, readFrame source = .ok ((header, payload), rest)
      ∧ readRecord payload = .ok record ∧ builtinBuilder header.tag record = .ok x := by
  rcases bind_eq_ok_iff.1 h with ⟨⟨⟨header, payload⟩, rest⟩, hframe, h⟩
  dsimp only at h
  split at h
  · cases h
  · rename_i record hrecord
    rcases bind_eq_ok_iff.1 h with ⟨table, htable, h⟩
    rcases bind_eq_ok_iff.1 h with ⟨_, _, h⟩
    cases h
    rw [Registry.create_builtin] at htable
    exact ⟨header, payload, rest, record, hframe, hrecord, htable⟩

/-- Whatever header and record are read, the table comes from a builder. -/
theorem exists_build_of_read {source : Source} {x : Table} (h : read .builtin source = .ok x) :
    ∃ tag record, builtinBuilder tag record = .ok x := by
  obtain ⟨header, _, _, record, _, _, hbuild⟩ := exists_record_of_read h
  exact ⟨header.tag, record, hbuild⟩

/-- A table that is read from an archive is sound, whatever bytes the archive has. -/
theorem sound_of_read {source : Source} {x : Table} (h : read .builtin source = .ok x) :
    x.Sound := by
  obtain ⟨tag, record, hbuild⟩ := exists_build_of_read h
  exact sound_of_build tag hbuild

end Archive

end Tabular
