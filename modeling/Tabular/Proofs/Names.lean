import Mathlib.Data.List.Induction
import Mathlib.Order.Bounds.Basic
import Tabular.Dictionary

/-!
# Features and their names

A dictionary finds the feature with a name in two ways: `indexOf?` looks through the features, and
`nameIndex` collects every named feature under its name. Features may share a name. Then the first
way finds the first of them and the second way the last, so that the two agree about a name just
when at most one feature has it.

* `Named.lookup_collect_concat`: the item that was collected last stands for its name;
* `Dictionary.push_induction`: dictionaries as they grow, feature by feature;
* `Dictionary.lookup_nameIndex_eq_some_iff`, `Dictionary.indexOf?_eq_some_iff`: what each way finds;
* `Dictionary.name_lookups`: when they agree.
-/

namespace Tabular

/-! ## Collected items -/

namespace Named

variable {α : Type} {name other : String} {item : α} {items entries : List (String × α)}

theorem lookup_filter_of_ne (h : other ≠ name) (entries : List (String × α)) :
    (entries.filter fun entry => entry.1 ≠ name).lookup other = entries.lookup other := by
  induction entries with
  | nil => rfl
  | cons entry rest ih =>
      rcases entry with ⟨key, kept⟩
      rw [List.filter_cons]
      split
      · rw [List.lookup_cons, List.lookup_cons, ih]
      -- an entry that was taken out is not looked for
      · rename_i hout
        have hkey : key = name := of_not_not fun hkey => hout (decide_eq_true hkey)
        have hskip : (other == key) = false := beq_false_of_ne (hkey ▸ h)
        rw [List.lookup_cons, hskip]
        exact ih

theorem lookup_assign_of_ne (h : other ≠ name) :
    (assign name item entries).lookup other = entries.lookup other := by
  have hhead : (other == name) = false := beq_false_of_ne h
  rw [assign, List.lookup_cons, hhead]
  exact lookup_filter_of_ne h entries

theorem keys_assign (name : String) (item : α) (entries : List (String × α)) :
    (assign name item entries).map Prod.fst
      = name :: (entries.map Prod.fst).filter fun key => key ≠ name := by
  rw [assign, List.map_cons, List.filter_map]
  rfl

theorem collect_concat (items : List (String × α)) (name : String) (item : α) :
    collect (items ++ [(name, item)]) = assign name item (collect items) := by
  rw [collect, List.foldl_append]
  rfl

/-- The item that was collected last stands for its name. -/
theorem lookup_collect_concat :
    (collect (items ++ [(name, item)])).lookup other
      = if name = other then some item else (collect items).lookup other := by
  rw [collect_concat]
  split
  · rename_i hsame
    subst hsame
    exact lookup_assign_self name item _
  · rename_i hdiffer
    exact lookup_assign_of_ne (Ne.symm hdiffer)

/-- Every name is collected once. -/
theorem nodup_collect (items : List (String × α)) : ((collect items).map Prod.fst).Nodup := by
  induction items using List.reverseRecOn with
  | nil => exact List.nodup_nil
  | append_singleton items item ih =>
      rw [collect_concat, keys_assign, List.nodup_cons]
      refine ⟨fun hmem => ?_, ih.filter _⟩
      simpa using (List.mem_filter.1 hmem).2

end Named

/-! ## Dictionaries -/

namespace Dictionary

variable {d : Dictionary} {f : Feature} {name : String} {index : Nat}

/-- The feature at an index is called by a name. -/
def Calls (d : Dictionary) (index : Nat) (name : String) : Prop :=
  ∃ f, d.features[index]? = some f ∧ f.name = some name

theorem Calls.lt_length (h : d.Calls index name) : index < d.length := by
  rcases h with ⟨f, hf, _⟩
  exact (List.getElem?_eq_some_iff.1 hf).1

/-- A property of the empty dictionary that every new feature leaves is one of all dictionaries. -/
theorem push_induction {P : Dictionary → Prop} (hempty : P empty)
    (hpush : ∀ d f, P d → P (d.push f)) (d : Dictionary) : P d := by
  rcases d with ⟨features⟩
  induction features using List.reverseRecOn with
  | nil => exact hempty
  | append_singleton features f ih => exact hpush ⟨features⟩ f ih

theorem calls_push : (d.push f).Calls index name
    ↔ d.Calls index name ∨ index = d.length ∧ f.name = some name := by
  constructor
  · rintro ⟨g, hg, hname⟩
    rw [push, List.getElem?_append] at hg
    split at hg
    · exact .inl ⟨g, hg, hname⟩
    · rename_i hbehind
      rw [List.getElem?_singleton, Option.ite_none_right_eq_some] at hg
      rcases hg with ⟨hzero, hg⟩
      cases hg
      exact .inr ⟨by unfold length; omega, hname⟩
  · rintro (h | ⟨rfl, hname⟩)
    · rcases h with ⟨g, hg, hname⟩
      refine ⟨g, ?_, hname⟩
      rw [push, List.getElem?_append_left (List.getElem?_eq_some_iff.1 hg).1, hg]
    · exact ⟨f, List.getElem?_concat_length, hname⟩

theorem not_calls_empty : ¬empty.Calls index name := by
  rintro ⟨f, hf, _⟩
  cases hf

/-! ### The collected index -/

theorem named_push (d : Dictionary) (f : Feature) :
    (d.push f).named = d.named ++ (f.name.map fun name => (name, d.length)).toList := by
  rw [named, push, List.zipIdx_append, List.filterMap_append, ← named]
  cases hname : f.name with
  | none => simp [hname]
  | some name => simp [hname, length]

/-- A new feature is what its name stands for from then on. -/
theorem lookup_nameIndex_push : (d.push f).nameIndex.lookup name
    = if f.name = some name then some d.length else d.nameIndex.lookup name := by
  rw [nameIndex, named_push]
  cases hname : f.name with
  | none =>
      rw [Option.map_none, Option.toList_none, List.append_nil, if_neg nofun]
      rfl
  | some other =>
      rw [Option.map_some, Option.toList_some, Named.lookup_collect_concat]
      simp only [Option.some.injEq]
      rfl

/-- The collected index has the last feature with a name. -/
theorem lookup_nameIndex_eq_some_iff :
    d.nameIndex.lookup name = some index ↔ IsGreatest {i | d.Calls i name} index := by
  induction d using push_induction generalizing index with
  | hempty => exact iff_of_false nofun fun h => not_calls_empty h.1
  | hpush d f ih =>
      rw [lookup_nameIndex_push]
      split
      · rename_i hname
        -- no index of a feature is beyond the new one
        have hlast : IsGreatest {i | (d.push f).Calls i name} d.length := by
          refine ⟨calls_push.2 (.inr ⟨rfl, hname⟩), fun i hi => ?_⟩
          rcases calls_push.1 hi with hbefore | ⟨rfl, _⟩
          · exact Nat.le_of_lt hbefore.lt_length
          · exact Nat.le_refl _
        constructor
        · rintro ⟨⟩
          exact hlast
        · intro h
          rw [h.unique hlast]
      · rename_i hname
        have hcalls : {i | (d.push f).Calls i name} = {i | d.Calls i name} := by
          refine Set.ext fun i => calls_push.trans ?_
          exact or_iff_left fun h => hname h.2
        rw [hcalls]
        exact ih

theorem isSome_lookup_nameIndex :
    (d.nameIndex.lookup name).isSome ↔ ∃ index, d.Calls index name := by
  induction d using push_induction with
  | hempty => exact iff_of_false nofun fun ⟨_, h⟩ => not_calls_empty h
  | hpush d f ih =>
      rw [lookup_nameIndex_push]
      split
      · rename_i hname
        exact iff_of_true rfl ⟨d.length, calls_push.2 (.inr ⟨rfl, hname⟩)⟩
      · rename_i hname
        rw [ih]
        refine exists_congr fun i => ?_
        exact (calls_push.trans (or_iff_left fun h => hname h.2)).symm

/-! ### The search -/

/-- The search finds the first feature with a name. -/
theorem indexOf?_eq_some_iff :
    d.indexOf? name = some index ↔ IsLeast {i | d.Calls i name} index := by
  rw [indexOf?, List.findIdx?_eq_some_iff_getElem]
  constructor
  · rintro ⟨hindex, hname, hbefore⟩
    refine ⟨⟨_, List.getElem?_eq_getElem hindex, of_decide_eq_true hname⟩, ?_⟩
    rintro i ⟨f, hf, hf'⟩
    apply Nat.le_of_not_lt
    intro hi
    rcases List.getElem?_eq_some_iff.1 hf with ⟨_, rfl⟩
    exact hbefore i hi (decide_eq_true hf')
  · rintro ⟨⟨f, hf, hname⟩, hleast⟩
    rcases List.getElem?_eq_some_iff.1 hf with ⟨hindex, rfl⟩
    refine ⟨hindex, decide_eq_true hname, fun i hi hearlier => ?_⟩
    have hcalls : d.Calls i name :=
      ⟨_, List.getElem?_eq_getElem (Nat.lt_trans hi hindex), of_decide_eq_true hearlier⟩
    exact Nat.not_lt.2 (hleast hcalls) hi

theorem isSome_indexOf? : (d.indexOf? name).isSome ↔ ∃ index, d.Calls index name := by
  rw [indexOf?, List.findIdx?_isSome, List.any_eq_true]
  constructor
  · rintro ⟨f, hf, hname⟩
    rcases List.mem_iff_getElem?.1 hf with ⟨index, hindex⟩
    exact ⟨index, f, hindex, of_decide_eq_true hname⟩
  · rintro ⟨index, f, hf, hname⟩
    exact ⟨f, List.mem_of_getElem? hf, decide_eq_true hname⟩

/-! ### Both -/

/-- Both ways know the same names, each of which the collected index has once. The search finds the
first feature with a name and the collected index the last, both of them inside the dictionary. They
find the same if and only if no two features have the name. -/
theorem name_lookups (d : Dictionary) (name : String) :
    (d.nameIndex.map Prod.fst).Nodup
      ∧ ((d.nameIndex.lookup name).isSome ↔ (d.indexOf? name).isSome)
      ∧ (∀ index, d.indexOf? name = some index ↔ IsLeast {i | d.Calls i name} index)
      ∧ (∀ index, d.nameIndex.lookup name = some index ↔ IsGreatest {i | d.Calls i name} index)
      ∧ (∀ index, d.Calls index name → index < d.length)
      ∧ (d.nameIndex.lookup name = d.indexOf? name
          ↔ ∀ i j, d.Calls i name → d.Calls j name → i = j) := by
  refine ⟨Named.nodup_collect _, isSome_lookup_nameIndex.trans isSome_indexOf?.symm,
    fun _ => indexOf?_eq_some_iff, fun _ => lookup_nameIndex_eq_some_iff,
    fun _ h => h.lt_length, fun hagree => ?_, fun hunique => ?_⟩
  -- every feature with the name is between the first and the last
  · intro i j hi hj
    rcases Option.isSome_iff_exists.1 (isSome_indexOf?.2 ⟨i, hi⟩) with ⟨index, hindex⟩
    have hleast := indexOf?_eq_some_iff.1 hindex
    have hgreatest := lookup_nameIndex_eq_some_iff.1 (hagree.trans hindex)
    have honly : ∀ k, d.Calls k name → k = index := fun k hk =>
      Nat.le_antisymm (hgreatest.2 hk) (hleast.2 hk)
    calc
      i = index := honly i hi
      _ = j := (honly j hj).symm
  · refine Option.ext fun index => ?_
    rw [lookup_nameIndex_eq_some_iff, indexOf?_eq_some_iff]
    constructor
    · intro h
      exact ⟨h.1, fun i hi => Nat.le_of_eq (hunique index i h.1 hi)⟩
    · intro h
      exact ⟨h.1, fun i hi => Nat.le_of_eq (hunique i index hi h.1)⟩

/-- Two features of one name, which are found apart. -/
theorem repeatedName_found_apart :
    ((empty.push { Feature.ofType .float64 with name := some "a" }).push
        { Feature.ofType .float64 with name := some "a" }).indexOf? "a" = some 0
      ∧ ((empty.push { Feature.ofType .float64 with name := some "a" }).push
          { Feature.ofType .float64 with name := some "a" }).nameIndex.lookup "a" = some 1 := by
  decide

end Dictionary

end Tabular
