import Tabular.Proofs.Window
import Tabular.Scalar.Vector

/-!
# Transfer between vectors

The values of a vector get into another one of the same length on many routes: all at once, cell by
cell, through doubles, or cut into parts that go routes of their own. The bulk routes convert a list
of values, and the copy of a single cell compares the types of the vectors for itself.

* `copyCell_of_lt`, `copyCell_of_le`: what the copy of a single cell does;
* `foldl_range_length`, `within_within_eq`: cell by cell, and in two parts;
* `Route`, `Route.transfer`: the routes, and where they lead;
* `Route.transfer_eq`: all routes lead to the same values, by induction on the route;
* `transfers_agree`: these are the values of the source between equal types, and have passed through
  doubles between others.
-/

namespace Tabular

namespace ScalarVector

open ScalarType

variable {s d : ScalarType} {values : List s.Value} {old : List d.Value} {start : Nat}

/-! ## Single cells -/

theorem values?_self (values : List s.Value) : values? ⟨s, values⟩ s = some values :=
  dif_pos rfl

theorem values?_of_ne (h : s ≠ d) (values : List s.Value) : values? ⟨s, values⟩ d = none :=
  dif_neg h

theorem double?_of_lt (h : start < values.length) :
    double? ⟨s, values⟩ start = some (s.toDouble values[start]) := by
  rw [double?, List.getElem?_eq_getElem h, Option.map_some]

theorem copyCell_of_lt (h : start < values.length) (old : List d.Value) (place : Nat) :
    copyCell ⟨d, old⟩ place ⟨s, values⟩ start
      = ⟨d, old.set place (convert s d values[start])⟩ := by
  by_cases hsame : s = d
  · subst hsame
    simp only [copyCell, values?_self, List.getElem?_eq_getElem h, convert_self]
  · simp only [copyCell, values?_of_ne hsame, double?_of_lt h, setDouble, convert_of_ne hsame]

/-- Nothing is copied from behind the source. -/
theorem copyCell_of_le (h : values.length ≤ start) (v : ScalarVector) (place : Nat) :
    v.copyCell place ⟨s, values⟩ start = v := by
  by_cases hsame : s = v.type
  · subst hsame
    simp only [copyCell, values?_self, List.getElem?_eq_none h]
  · simp only [copyCell, values?_of_ne hsame, double?, List.getElem?_eq_none h, Option.map_none]

/-- The vector with the value `source[start]` read as a double and written at a place. -/
def passCell (v : ScalarVector) (place : Nat) (source : ScalarVector) (start : Nat) :
    ScalarVector :=
  match source.double? start with
  | some x => v.setDouble place x
  | none => v

/-- What passes through a double between different types is what is copied. -/
theorem passCell_of_lt (hpivot : s ≠ d) (h : start < values.length) (old : List d.Value)
    (place : Nat) :
    passCell ⟨d, old⟩ place ⟨s, values⟩ start
      = ⟨d, old.set place (convert s d values[start])⟩ := by
  simp only [passCell, double?_of_lt h, setDouble, convert_of_ne hpivot]

/-! ## Many cells -/

section Cells

variable {step : ScalarVector → Nat → ScalarVector}
  (hstep : ∀ (old : List d.Value) (place : Nat) (h : place < values.length),
    step ⟨d, old⟩ place = ⟨d, old.set place (convert s d values[place])⟩)
  (hlength : values.length = old.length)

include hstep hlength

/-- Cells are written one after the other: those before a place have the converted values, and those
from there on are as they were. -/
theorem foldl_range_eq {count : Nat} (hcount : count ≤ values.length) :
    (List.range count).foldl step ⟨d, old⟩
      = ⟨d, (convertAll s d values).take count ++ old.drop count⟩ := by
  induction count with
  | zero => rfl
  | succ count ih =>
      have hplace : count < (convertAll s d values).length := by rwa [length_convertAll]
      have hfront : ((convertAll s d values).take count).length = count :=
        List.length_take_of_le (Nat.le_of_lt hplace)
      have hvalue : convert s d values[count] = (convertAll s d values)[count] := by
        simp only [convertAll, List.getElem_map]
      rw [List.range_succ, List.foldl_append, ih (Nat.le_of_lt hcount), List.foldl_cons,
        List.foldl_nil, hstep _ _ hcount, List.set_append_right _ _ (Nat.le_of_eq hfront), hfront,
        Nat.sub_self, List.drop_eq_getElem_cons (hlength ▸ hcount), List.set_cons_zero,
        List.take_succ_eq_append_getElem hplace, List.append_assoc, List.singleton_append, hvalue]

theorem foldl_range_length :
    (List.range values.length).foldl step ⟨d, old⟩ = ⟨d, convertAll s d values⟩ := by
  have hwhole : (convertAll s d values).take values.length = convertAll s d values :=
    List.take_of_length_le (Nat.le_of_eq (length_convertAll s d values))
  rw [foldl_range_eq hstep hlength (Nat.le_refl _), hwhole, hlength, List.drop_length,
    List.append_nil]

end Cells

/-- A part of a vector that is changed as a vector of its own takes its place again. -/
theorem within_eq {part : List d.Value} {stop : Nat} {change : ScalarVector → ScalarVector}
    (h : change ⟨d, Tabular.slice old start stop⟩ = ⟨d, part⟩) :
    within ⟨d, old⟩ start stop change = ⟨d, overwrite old start part⟩ := by
  rw [within, slice, h, fill, valuesAs, convertAll_self]

/-- Two parts that are changed one after the other are the whole, if each change makes what belongs
there of any values. -/
theorem within_within_eq {whole : List d.Value} {cut : Nat}
    {front back : ScalarVector → ScalarVector}
    (hlength : old.length = whole.length) (hcut : cut ≤ whole.length)
    (hfront : ∀ part : List d.Value, part.length = cut →
      front ⟨d, part⟩ = ⟨d, Tabular.slice whole 0 cut⟩)
    (hback : ∀ part : List d.Value, part.length = whole.length - cut →
      back ⟨d, part⟩ = ⟨d, Tabular.slice whole cut whole.length⟩) :
    (within ⟨d, old⟩ 0 cut front).within cut whole.length back = ⟨d, whole⟩ := by
  have hfirst : (Tabular.slice old 0 cut).length = cut := length_slice (hlength ▸ hcut)
  let changed := overwrite old 0 (Tabular.slice whole 0 cut)
  have hchanged : changed.length = whole.length := (length_overwrite _ _ _).trans hlength
  have hsecond : (Tabular.slice changed cut whole.length).length = whole.length - cut :=
    length_slice (Nat.le_of_eq hchanged.symm)
  rw [within_eq (hfront _ hfirst), within_eq (hback _ hsecond), overwrite_parts hlength hcut]

/-! ## Routes -/

/-- A way for the values of a vector into another one of the same length. -/
inductive Route where
  /-- A list of values of known types. -/
  | listed
  /-- The source gives its values as values of the other type. -/
  | given
  /-- The other vector is filled with the source. -/
  | filled
  /-- The cells are copied one after the other. -/
  | cells
  /-- The cells are read as doubles and written as doubles, one after the other. -/
  | doubles
  /-- Both vectors are cut at a place, and the parts go routes of their own. -/
  | split (cut : Nat) (front back : Route)

namespace Route

/-- The second vector with the values of the first. -/
def transfer : Route → ScalarVector → ScalarVector → ScalarVector
  | listed, source, target => ⟨target.type, convertAll source.type target.type source.values⟩
  | given, source, target => ⟨target.type, source.valuesAs target.type⟩
  | filled, source, target => target.fill 0 source
  | cells, source, target =>
    (List.range source.length).foldl (fun v place => v.copyCell place source place) target
  | doubles, source, target =>
    (List.range source.length).foldl (fun v place => v.passCell place source place) target
  | split cut front back, source, target =>
    (target.within 0 cut (front.transfer (source.slice 0 cut))).within cut source.length
      (back.transfer (source.slice cut source.length))

/-- The route can be taken by a number of values of one type to another: vectors are cut inside, and
values pass through doubles only if the types differ. -/
def Passable (s d : ScalarType) : (length : Nat) → Route → Prop
  | _, listed => True
  | _, given => True
  | _, filled => True
  | _, cells => True
  | _, doubles => s ≠ d
  | length, split cut front back =>
    cut ≤ length ∧ front.Passable s d cut ∧ back.Passable s d (length - cut)

/-- All routes lead to the same values. -/
theorem transfer_eq {route : Route} (hroute : route.Passable s d values.length)
    (hlength : values.length = old.length) :
    route.transfer ⟨s, values⟩ ⟨d, old⟩ = ⟨d, convertAll s d values⟩ := by
  induction route generalizing values old with
  | listed => rfl
  | given => rfl
  | filled =>
      have hwhole : overwrite old 0 (convertAll s d values) = convertAll s d values :=
        overwrite_zero ((length_convertAll s d values).trans hlength)
      rw [transfer, fill, valuesAs, hwhole]
  | cells =>
      change (List.range values.length).foldl
        (fun v place => copyCell v place ⟨s, values⟩ place) ⟨d, old⟩ = _
      exact foldl_range_length (fun old place h => copyCell_of_lt h old place) hlength
  | doubles =>
      change (List.range values.length).foldl
        (fun v place => passCell v place ⟨s, values⟩ place) ⟨d, old⟩ = _
      exact foldl_range_length (fun old place h => passCell_of_lt hroute h old place) hlength
  | split cut front back ihfront ihback =>
      obtain ⟨hcut, hfront, hback⟩ := hroute
      have hcount := length_convertAll s d values
      -- each part goes its route to values of any kind that are as many
      have hfirst : (Tabular.slice values 0 cut).length = cut := length_slice hcut
      have hleft : ∀ part : List d.Value, part.length = cut →
          front.transfer (slice ⟨s, values⟩ 0 cut) ⟨d, part⟩
            = ⟨d, Tabular.slice (convertAll s d values) 0 cut⟩ := by
        intro part hpart
        rw [slice, ihfront (hfirst.symm ▸ hfront) (hfirst.trans hpart.symm), convertAll,
          convertAll, slice_map]
      have hsecond : (Tabular.slice values cut values.length).length = values.length - cut :=
        length_slice (Nat.le_refl _)
      have hright : ∀ part : List d.Value, part.length = values.length - cut →
          back.transfer (slice ⟨s, values⟩ cut values.length) ⟨d, part⟩
            = ⟨d, Tabular.slice (convertAll s d values) cut values.length⟩ := by
        intro part hpart
        rw [slice, ihback (hsecond.symm ▸ hback) (hsecond.trans hpart.symm), convertAll,
          convertAll, slice_map]
      have hwhole := within_within_eq (hlength.symm.trans hcount.symm) (hcount.symm ▸ hcut) hleft
        (by rwa [hcount])
      rwa [hcount] at hwhole

end Route

/-- All routes between vectors of one length lead to the same values. Between equal types these are
the values of the source, bit for bit, and between others every value has passed through a double. A
single cell is copied to its place and no other, and not at all from or to behind a vector. -/
theorem transfers_agree (values : List s.Value) (old : List d.Value) :
    (values.length = old.length → ∀ route : Route, route.Passable s d values.length →
        route.transfer ⟨s, values⟩ ⟨d, old⟩ = ⟨d, convertAll s d values⟩)
      ∧ (s = d → (⟨d, convertAll s d values⟩ : ScalarVector) = ⟨s, values⟩)
      ∧ (s ≠ d → convertAll s d values = values.map fun v => d.ofDouble (s.toDouble v))
      ∧ ∀ place start, ∃ copied : List d.Value,
          copyCell ⟨d, old⟩ place ⟨s, values⟩ start = ⟨d, copied⟩
          ∧ (∀ (_ : place < old.length) (h : start < values.length),
              copied[place]? = some (convert s d values[start]))
          ∧ (∀ other, other ≠ place → copied[other]? = old[other]?)
          ∧ (¬(place < old.length ∧ start < values.length) → copied = old) := by
  refine ⟨fun hlength route hroute => Route.transfer_eq hroute hlength, ?_, ?_, ?_⟩
  · intro hsame
    subst hsame
    rw [convertAll_self]
  · intro hpivot
    exact List.map_congr_left fun v _ => convert_of_ne hpivot v
  · intro place start
    by_cases hstart : start < values.length
    · refine ⟨_, copyCell_of_lt hstart old place, ?_, ?_, ?_⟩
      · intro hplace _
        exact List.getElem?_set_self hplace
      · intro other hother
        exact List.getElem?_set_ne (Ne.symm hother)
      · intro houtside
        exact List.set_eq_of_length_le (Nat.le_of_not_lt fun hplace => houtside ⟨hplace, hstart⟩)
    · refine ⟨old, copyCell_of_le (Nat.le_of_not_lt hstart) _ place, ?_, ?_, fun _ => rfl⟩
      · intro _ h
        exact absurd h hstart
      · intro _ _
        rfl

/-- Integers that no double holds, and their way to bytes in three parts. -/
theorem transfers_agree_wide :
    Route.Passable .int64 .int64 3 (.split 2 .cells .filled)
      ∧ (Route.split 2 .cells .filled).transfer ⟨.int64, [9007199254740993, -1, 300]⟩
          ⟨.int64, [0, 0, 0]⟩ = ⟨.int64, [9007199254740993, -1, 300]⟩
      ∧ Route.Passable .int64 .uint8 3 (.split 1 .cells (.split 1 .doubles .given))
      ∧ (Route.split 1 .cells (.split 1 .doubles .given)).transfer
          ⟨.int64, [9007199254740993, -1, 300]⟩ ⟨.uint8, [1, 2, 3]⟩ = ⟨.uint8, [255, 0, 255]⟩ := by
  have hsame : Route.Passable .int64 .int64 3 (.split 2 .cells .filled) := by
    simp [Route.Passable]
  have hparts : Route.Passable .int64 .uint8 3 (.split 1 .cells (.split 1 .doubles .given)) := by
    simp [Route.Passable]
  obtain ⟨hcopied, hexact, -, -⟩ := transfers_agree (s := .int64) (d := .int64)
    [9007199254740993, -1, 300] [0, 0, 0]
  obtain ⟨hpassed, -, hpivot, -⟩ := transfers_agree (s := .int64) (d := .uint8)
    [9007199254740993, -1, 300] [1, 2, 3]
  refine ⟨hsame, (hcopied rfl _ hsame).trans (hexact rfl), hparts, ?_⟩
  rw [hpassed rfl _ hparts, hpivot (by decide)]
  decide +kernel

end ScalarVector

end Tabular
