import Tabular.Proofs.Scalar.Order
import Tabular.Proofs.Scalar.SameCell
import Tabular.Proofs.Scalar.Sum
import Tabular.Statistics

/-!
# Summaries in parts

The values of a column are summarised block by block, each block from the identity, and summaries
of blocks are merged. The blocks stay in order, but it is open which summaries are merged first, and
how many identities are merged with them: `Reduction`. Whatever is done, the summary that comes out
is one of all values, `Summary.Describes`, which leaves open only what rounding of sums and the sign
of zeros leave open.

* `Double.Extreme`: the least or the largest of some values, of which there is only one if the two
  zeros are not mixed, `Extreme.unique`;
* `Summary.Describes.add`, `Summary.Describes.merge`: one value more, and the values of both;
* `Reduction.describes_summary`: every reduction gives a summary of all values.
-/

namespace Tabular

/-! ## Extrema -/

namespace Double

/-- Place in the order of numbers, which the two zeros share. -/
def rank (x : Double) : Int := BinaryFormat.double.rank x.toNat

/-- The place in the opposite order. -/
def reverseRank (x : Double) : Int := -x.rank

theorem rank_le_iff {x y : Double} {a b : ℚ} (hx : x.number.value? = some a)
    (hy : y.number.value? = some b) : x.rank ≤ y.rank ↔ a ≤ b :=
  BinaryFormat.rank_le_iff hx hy

theorem isNaN_of_value {x : Double} {a : ℚ} (h : x.number.value? = some a) : x.isNaN = false := by
  by_contra hnumber
  have hbeyond : BinaryFormat.double.infinity < BinaryFormat.double.magnitude x.toNat := by
    simpa [isNaN, BinaryFormat.isNaN] using hnumber
  rw [number, BinaryFormat.read, if_pos hbeyond] at h
  cases h

theorem eq_or_isZero_of_rank {x y : Double} (h : x.rank = y.rank) :
    x = y ∨ (x.isZero ∧ y.isZero) := by
  have hx : BinaryFormat.double.signed _ _ = x.toNat := BinaryFormat.signed_magnitude x.isLt
  have hy : BinaryFormat.double.signed _ _ = y.toNat := BinaryFormat.signed_magnitude y.isLt
  rw [rank, rank, BinaryFormat.rank, BinaryFormat.rank] at h
  by_cases hsign : BinaryFormat.double.isNegative x.toNat = BinaryFormat.double.isNegative y.toNat
  · have hmagnitude : BinaryFormat.double.magnitude x.toNat
        = BinaryFormat.double.magnitude y.toNat := by
      rw [hsign] at h
      split at h <;> omega
    rw [hsign, hmagnitude, hy] at hx
    exact .inl (BitVec.eq_of_toNat_eq hx.symm)
  -- on both sides of zero, no magnitude is left
  · have hnone : BinaryFormat.double.magnitude x.toNat = 0
        ∧ BinaryFormat.double.magnitude y.toNat = 0 := by
      cases hleft : BinaryFormat.double.isNegative x.toNat <;>
        cases hright : BinaryFormat.double.isNegative y.toNat <;> simp_all
    exact .inr ⟨decide_eq_true hnone.1, decide_eq_true hnone.2⟩

/-- The number that comes first in an order, or the one that is a number. -/
def pick (order : Double → Int) (x y : Double) : Double :=
  if x.isNaN then y else if y.isNaN = false ∧ order y < order x then y else x

theorem minimum_eq_pick (x y : Double) : x.minimum y = pick rank x y := by
  rw [minimum, pick]
  split
  · rfl
  · next hx => exact if_congr (by simp [before, rank, hx]) rfl rfl

theorem maximum_eq_pick (x y : Double) : x.maximum y = pick reverseRank x y := by
  rw [maximum, pick]
  split
  · rfl
  · next hx => exact if_congr (by simp [before, reverseRank, rank, hx]) rfl rfl

/-- Not both zeros are among the values. -/
def Unmixed (values : List Double) : Prop := ¬(zero ∈ values ∧ negativeZero ∈ values)

variable {order : Double → Int} {start x y : Double} {values others : List Double}

theorem pick_cases (order : Double → Int) (hx : x.isNaN = false) (y : Double) :
    (pick order x y = x ∧ (y.isNaN = false → order x ≤ order y))
      ∨ (pick order x y = y ∧ y.isNaN = false ∧ order y < order x) := by
  rw [pick, if_neg (by simp [hx])]
  split
  · next h => exact .inr ⟨rfl, h⟩
  · next h => exact .inl ⟨rfl, fun hy => not_lt.1 fun hlt => h ⟨hy, hlt⟩⟩

/-- The number comes first in an order among some values and the one that they are compared with at
the start. What is no number does not count. -/
structure Extreme (order : Double → Int) (start : Double) (values : List Double) (x : Double) :
    Prop where
  mem : x ∈ start :: values
  number : x.isNaN = false
  first : ∀ v ∈ start :: values, v.isNaN = false → order x ≤ order v

namespace Extreme

theorem nil (hstart : start.isNaN = false) : Extreme order start [] start :=
  ⟨List.mem_singleton_self _, hstart, by simp⟩

/-- One value more. -/
theorem concat (h : Extreme order start values x) (y : Double) :
    Extreme order start (values ++ [y]) (pick order x y) := by
  have hmem : ∀ v, v ∈ start :: (values ++ [y]) ↔ v ∈ start :: values ∨ v = y := by
    simp [or_assoc]
  rcases pick_cases order h.number y with ⟨hpick, hle⟩ | ⟨hpick, hnumber, hlt⟩
  · rw [hpick]
    refine ⟨(hmem x).2 (.inl h.mem), h.number, fun v hv hvalue => ?_⟩
    rcases (hmem v).1 hv with hv | rfl
    · exact h.first v hv hvalue
    · exact hle hvalue
  · rw [hpick]
    refine ⟨(hmem y).2 (.inr rfl), hnumber, fun v hv hvalue => ?_⟩
    rcases (hmem v).1 hv with hv | rfl
    · exact le_trans (le_of_lt hlt) (h.first v hv hvalue)
    · exact le_refl _

/-- The values of both. -/
theorem append (hx : Extreme order start values x) (hy : Extreme order start others y) :
    Extreme order start (values ++ others) (pick order x y) := by
  have hmem : ∀ v, v ∈ start :: (values ++ others) ↔ v ∈ start :: values ∨ v ∈ start :: others := by
    intro v
    simp only [List.mem_cons, List.mem_append]
    tauto
  -- the first of the others is one value more, and stands for all of them
  have hpicked := hx.concat y
  have hle : order (pick order x y) ≤ order y := hpicked.first y (by simp) hy.number
  refine ⟨(hmem _).2 ?_, hpicked.number, fun v hv hvalue => ?_⟩
  · rcases pick_cases order hx.number y with ⟨hpick, -⟩ | ⟨hpick, -⟩
    · exact .inl (hpick.symm ▸ hx.mem)
    · exact .inr (hpick.symm ▸ hy.mem)
  · rcases (hmem v).1 hv with hv | hv
    · exact hpicked.first v (List.mem_append_left [y] hv) hvalue
    · exact le_trans hle (hy.first v hv hvalue)

/-- Where the two zeros are not mixed only one number comes first. -/
theorem unique (horder : ∀ v w, order v = order w → v.rank = w.rank)
    (hstart : start.isZero = false) (hx : Extreme order start values x)
    (hy : Extreme order start values y)
    (hunmixed : Unmixed values) : x = y := by
  have hplace : order x = order y :=
    le_antisymm (hx.first y hy.mem hy.number) (hy.first x hx.mem hx.number)
  rcases eq_or_isZero_of_rank (horder x y hplace) with hsame | ⟨hxzero, hyzero⟩
  · exact hsame
  · have hinside : ∀ z, z ∈ start :: values → z.isZero → z ∈ values := by
      intro z hz hzero
      rcases List.mem_cons.1 hz with rfl | hz
      · cases hstart.symm.trans hzero
      · exact hz
    have hxmem := hinside x hx.mem hxzero
    have hymem := hinside y hy.mem hyzero
    rcases (isZero_iff x).1 hxzero with rfl | rfl <;> rcases (isZero_iff y).1 hyzero with rfl | rfl
    · rfl
    · exact absurd ⟨hxmem, hymem⟩ hunmixed
    · exact absurd ⟨hymem, hxmem⟩ hunmixed
    · rfl

end Extreme

end Double

/-! ## Summaries -/

namespace Summary

/-- The summary of some values, taken one after the other. -/
def ofValues (values : List Double) : Summary := values.foldl add identity

/-- A summary of all the values. -/
structure Describes (s : Summary) (values : List Double) : Prop where
  minimum : Double.Extreme Double.rank .infinity values s.minimum
  maximum : Double.Extreme Double.reverseRank .negativeInfinity values s.maximum
  sum : SumOf values s.sum
  sumSquares : SumOf (values.map fun v => v.mul v) s.sumSquares

variable {values others : List Double} {s r : Summary}

theorem describes_identity : identity.Describes [] where
  minimum := .nil (by decide +kernel)
  maximum := .nil (by decide +kernel)
  sum := .nil
  sumSquares := .nil

theorem minimum_add (s : Summary) (x : Double) :
    (s.add x).minimum = Double.pick Double.rank s.minimum x :=
  Double.minimum_eq_pick _ _

theorem maximum_add (s : Summary) (x : Double) :
    (s.add x).maximum = Double.pick Double.reverseRank s.maximum x :=
  Double.maximum_eq_pick _ _

theorem minimum_merge (s r : Summary) :
    (s.merge r).minimum = Double.pick Double.rank s.minimum r.minimum :=
  Double.minimum_eq_pick _ _

theorem maximum_merge (s r : Summary) :
    (s.merge r).maximum = Double.pick Double.reverseRank s.maximum r.maximum :=
  Double.maximum_eq_pick _ _

theorem Describes.add (h : s.Describes values) (x : Double) :
    (s.add x).Describes (values ++ [x]) where
  minimum := s.minimum_add x ▸ h.minimum.concat x
  maximum := s.maximum_add x ▸ h.maximum.concat x
  sum := h.sum.concat x
  sumSquares := by
    rw [List.map_append]
    exact h.sumSquares.concat _

theorem Describes.merge (hs : s.Describes values) (hr : r.Describes others) :
    (s.merge r).Describes (values ++ others) where
  minimum := s.minimum_merge r ▸ hs.minimum.append hr.minimum
  maximum := s.maximum_merge r ▸ hs.maximum.append hr.maximum
  sum := hs.sum.append hr.sum
  sumSquares := by
    rw [List.map_append]
    exact hs.sumSquares.append hr.sumSquares

theorem ofValues_concat (values : List Double) (x : Double) :
    ofValues (values ++ [x]) = (ofValues values).add x := by
  rw [ofValues, List.foldl_append]
  rfl

theorem describes_ofValues (values : List Double) : (ofValues values).Describes values := by
  induction values using List.reverseRecOn with
  | nil => exact describes_identity
  | append_singleton values x ih =>
      rw [ofValues_concat]
      exact ih.add x

/-- A part of the summary to which every value adds a term is the total of the terms. -/
theorem total_ofValues (part : Summary → Double) (term : Double → Double)
    (hidentity : part identity = .zero) (hadd : ∀ s x, part (s.add x) = (part s).add (term x))
    (values : List Double) : part (ofValues values) = Double.total (values.map term) := by
  induction values using List.reverseRecOn with
  | nil => exact hidentity
  | append_singleton values x ih =>
      rw [ofValues_concat, hadd, ih, List.map_append, List.map_singleton, Double.total_concat]

theorem sum_ofValues (values : List Double) : (ofValues values).sum = Double.total values := by
  rw [total_ofValues Summary.sum id rfl fun _ _ => rfl, List.map_id]

theorem sumSquares_ofValues (values : List Double) :
    (ofValues values).sumSquares = Double.total (values.map fun v => v.mul v) :=
  total_ofValues Summary.sumSquares (fun v => v.mul v) rfl (fun _ _ => rfl) values

/-- Summaries of the same values have the same extrema, unless the two zeros are mixed. -/
theorem Describes.extrema_eq (hs : s.Describes values) (hr : r.Describes values)
    (hunmixed : Double.Unmixed values) :
    s.minimum = r.minimum ∧ s.maximum = r.maximum :=
  ⟨hs.minimum.unique (fun _ _ => id) (by decide +kernel) hr.minimum hunmixed,
    hs.maximum.unique (fun _ _ => neg_injective.eq_iff.1) (by decide +kernel) hr.maximum hunmixed⟩

/-- As numbers, the values are not below the minimum and not above the maximum. -/
theorem Describes.value_between (h : s.Describes values) {v : Double} (hv : v ∈ values) {b : ℚ}
    (hvalue : v.number.value? = some b) :
    (∀ a, s.minimum.number.value? = some a → a ≤ b)
      ∧ ∀ c, s.maximum.number.value? = some c → b ≤ c := by
  have hmem : ∀ start, v ∈ start :: values := fun start => List.mem_cons_of_mem start hv
  have hnumber := Double.isNaN_of_value hvalue
  refine ⟨fun a ha => (Double.rank_le_iff ha hvalue).1 (h.minimum.first v (hmem _) hnumber),
    fun c hc => (Double.rank_le_iff hvalue hc).1 ?_⟩
  exact neg_le_neg_iff.1 (h.maximum.first v (hmem _) hnumber)

end Summary

/-! ## Reductions -/

/-- A way to reduce blocks without changing their order: summaries are merged two at a time, and the
summary of no values can be merged with them anywhere. -/
inductive Reduction (α : Type) where
  | identity
  | block (item : α)
  | merge (left right : Reduction α)

namespace Reduction

variable {α : Type} {values : α → List Double}

def blocks : Reduction α → List α
  | identity => []
  | block item => [item]
  | merge left right => left.blocks ++ right.blocks

/-- The summary that comes out. -/
def summary (values : α → List Double) : Reduction α → Summary
  | identity => .identity
  | block item => .ofValues (values item)
  | merge left right => (left.summary values).merge (right.summary values)

theorem describes_summary (tree : Reduction α) :
    (tree.summary values).Describes (tree.blocks.flatMap values) := by
  induction tree with
  | identity => exact Summary.describes_identity
  | block item =>
      rw [blocks, List.flatMap_singleton]
      exact Summary.describes_ofValues _
  | merge left right ihleft ihright =>
      rw [blocks, List.flatMap_append]
      exact ihleft.merge ihright

/-- One block after the other, from the identity. -/
def inOrder (items : List α) : Reduction α :=
  items.foldl (fun tree item => merge tree (block item)) identity

theorem inOrder_concat (items : List α) (item : α) :
    inOrder (items ++ [item]) = merge (inOrder items) (block item) := by
  rw [inOrder, List.foldl_append]
  rfl

@[simp]
theorem blocks_inOrder (items : List α) : (inOrder items).blocks = items := by
  induction items using List.reverseRecOn with
  | nil => rfl
  | append_singleton items item ih => rw [inOrder_concat, blocks, ih, blocks]

/-- A part of the summaries that merging adds up is added up over the blocks in order. -/
theorem total_inOrder (part : Summary → Double) (hidentity : part .identity = .zero)
    (hmerge : ∀ s r, part (s.merge r) = (part s).add (part r)) (items : List α) :
    part ((inOrder items).summary values)
      = Double.total (items.map fun item => part (.ofValues (values item))) := by
  induction items using List.reverseRecOn with
  | nil => exact hidentity
  | append_singleton items item ih =>
      rw [inOrder_concat, summary, hmerge, ih, List.map_append, List.map_singleton,
        Double.total_concat]
      rfl

theorem sum_inOrder (items : List α) :
    ((inOrder items).summary values).sum
      = Double.total (items.map fun item => Double.total (values item)) := by
  rw [total_inOrder Summary.sum rfl fun _ _ => rfl]
  simp only [Summary.sum_ofValues]

theorem sumSquares_inOrder (items : List α) :
    ((inOrder items).summary values).sumSquares
      = Double.total (items.map fun item => Double.total ((values item).map fun v => v.mul v)) := by
  rw [total_inOrder Summary.sumSquares rfl fun _ _ => rfl]
  simp only [Summary.sumSquares_ofValues]

end Reduction

end Tabular
