import Tabular.Proofs.InPlace.Follows
import Tabular.Proofs.Resize.Storage

/-!
# Faithful changes of tables of columns

Vectors are resized one after the other, and one that cannot grow is found only after those before
it have grown. They are cut back to what they were, which cannot fail.

* `mapM_restored`: cutting back vectors that have grown gives the vectors that they were;
* `follows_resizeVectors`: what the loop has resized so far decides where it ends;
* `faithful`: hence a table of columns, too, is left as it was when a change is refused.
-/

namespace Tabular

namespace ScalarVector

variable {v : ScalarVector} {rows : Nat}

/-- Only a vector that has to grow can be refused. -/
theorem lt_of_resize_error {e : TableError} (h : v.resize rows = .error e) : v.length < rows := by
  by_contra hshort
  rw [resize, if_neg hshort] at h
  cases h

end ScalarVector

/-- Vectors that have all grown are all cut back to what they were. -/
theorem mapM_restored {rows old : Nat} {vectors grown : List ScalarVector}
    (hold : ∀ v ∈ vectors, v.length = old) (hgrown : old ≤ rows)
    (h : (vectors.mapM fun v => v.resize rows) = .ok grown) :
    (grown.mapM fun v => v.resize old) = .ok vectors := by
  have hback := ScalarVector.mapM_resize_resize h fun v _ =>
    Nat.le_trans (Nat.min_le_right v.length old) hgrown
  rw [hback, ScalarVector.mapM_resize_length hold]

namespace ColumnTable

variable {c : ColumnTable} {rows : Nat}

/-! ## One vector after the other -/

/-- A vector that the table has is resized in its place. -/
theorem resizeVector_eq {column : Nat} {v : ScalarVector} (hv : c.vectors[column]? = some v) :
    resizeVector rows column c
      = (InPlace.compute (v.resize rows) >>= fun w =>
          modify fun (c : ColumnTable) => { c with vectors := c.vectors.set column w }) c := by
  have hvector : c.vector column = .ok v := by rw [ColumnTable.vector, hv]
  change (InPlace.compute (c.vector column) >>= fun vector =>
    InPlace.compute (vector.resize rows) >>= fun w =>
      modify fun (c : ColumnTable) => { c with vectors := c.vectors.set column w }) c = _
  rw [hvector]
  rfl

section Loop

variable (c)

/-- The vector behind those in front is resized. -/
theorem resizeVector_of_ok {v w : ScalarVector} (h : v.resize rows = .ok w)
    (front back : List ScalarVector) :
    resizeVector rows front.length { c with vectors := front ++ v :: back }
      = .ok () { c with vectors := front ++ [w] ++ back } := by
  have hv : (front ++ v :: back)[front.length]? = some v := by simp
  have hset : (front ++ v :: back).set front.length w = front ++ [w] ++ back := by simp
  rw [resizeVector_eq hv, h, ← hset]
  rfl

/-- Vectors that can all be resized are resized one after the other, by any step that resizes one.
The induction is on them; each joins those in front when it is done. -/
theorem forM_of_step {step : Nat → InPlace ColumnTable Unit}
    (hstep : ∀ {v w : ScalarVector}, v.resize rows = .ok w → ∀ front back : List ScalarVector,
      step front.length { c with vectors := front ++ v :: back }
        = .ok () { c with vectors := front ++ [w] ++ back })
    {vectors resized : List ScalarVector}
    (h : (vectors.mapM fun v => v.resize rows) = .ok resized) (front back : List ScalarVector) :
    ((List.range' front.length vectors.length).forM step : InPlace ColumnTable Unit)
        { c with vectors := front ++ (vectors ++ back) }
      = .ok () { c with vectors := front ++ (resized ++ back) } := by
  induction vectors generalizing front resized with
  | nil =>
      cases h
      rfl
  | cons v rest ih =>
      rcases mapM_cons_eq_ok_iff.1 h with ⟨w, others, hw, hothers, rfl⟩
      have hfirst := hstep hw front (rest ++ back)
      have hrest := ih hothers (front ++ [w])
      rw [List.length_append] at hrest
      rw [List.cons_append, List.cons_append, List.append_cons front w]
      exact (InPlace.bind_of_ok hfirst _).trans hrest

/-- The same from the first vector on. -/
theorem forM_range_of_step {step : Nat → InPlace ColumnTable Unit}
    (hstep : ∀ {v w : ScalarVector}, v.resize rows = .ok w → ∀ front back : List ScalarVector,
      step front.length { c with vectors := front ++ v :: back }
        = .ok () { c with vectors := front ++ [w] ++ back })
    {vectors resized : List ScalarVector}
    (h : (vectors.mapM fun v => v.resize rows) = .ok resized) (back : List ScalarVector) :
    ((List.range vectors.length).forM step : InPlace ColumnTable Unit)
        { c with vectors := vectors ++ back }
      = .ok () { c with vectors := resized ++ back } := by
  have hloop := forM_of_step c hstep h [] back
  rw [List.length_nil, ← List.range_eq_range'] at hloop
  exact hloop

theorem resizeOrRestore_of_ok {v w : ScalarVector} (h : v.resize rows = .ok w)
    (front back : List ScalarVector) :
    resizeOrRestore rows front.length { c with vectors := front ++ v :: back }
      = .ok () { c with vectors := front ++ [w] ++ back } := by
  change EStateM.tryCatch _ _ _ = _
  rw [EStateM.tryCatch, resizeVector_of_ok c h front back]

/-- A vector that cannot grow, behind those that have grown. -/
theorem resizeOrRestore_of_error {before front : List ScalarVector} {v : ScalarVector}
    {e : TableError} (hbefore : (before.mapM fun v => v.resize rows) = .ok front)
    (hlengths : ∀ vector ∈ before, vector.length = c.rows) (hv : v.length = c.rows)
    (h : v.resize rows = .error e) (back : List ScalarVector) :
    resizeOrRestore rows front.length { c with vectors := front ++ v :: back }
      = .error e { c with vectors := before ++ v :: back } := by
  -- only growth is refused, so that cutting back asks for no room
  have hgrown : c.rows < rows := hv ▸ ScalarVector.lt_of_resize_error h
  have hback : (front.mapM fun v => v.resize c.rows) = .ok before :=
    mapM_restored hlengths (Nat.le_of_lt hgrown) hbefore
  have hplace : (front ++ v :: back)[front.length]? = some v := by simp
  have hrefused : resizeVector rows front.length { c with vectors := front ++ v :: back }
      = .error e { c with vectors := front ++ v :: back } := by
    rw [resizeVector_eq hplace, h]
    rfl
  have hrestored := forM_range_of_step c (resizeVector_of_ok c) hback (v :: back)
  change EStateM.tryCatch _ _ _ = _
  rw [EStateM.tryCatch, hrefused]
  exact InPlace.bind_of_ok hrestored _

/-- What the loop has resized so far decides where it ends: with all vectors resized, or with those
that it found. The induction is on the vectors that are left. -/
theorem follows_forM {before front rest : List ScalarVector}
    (hbefore : (before.mapM fun v => v.resize rows) = .ok front)
    (hlengths : ∀ vector ∈ before ++ rest, vector.length = c.rows) :
    Follows { c with vectors := before ++ rest }
      ((fun vectors => { c with vectors }) <$> (before ++ rest).mapM fun v => v.resize rows)
      (((List.range' front.length rest.length).forM (resizeOrRestore rows) :
          InPlace ColumnTable Unit)
        { c with vectors := front ++ rest }) := by
  induction rest generalizing before front with
  | nil =>
      rw [List.append_nil, List.append_nil, hbefore]
      exact Follows.done _
  | cons v rest ih =>
      change Follows _ _ ((resizeOrRestore rows front.length >>= fun _ =>
        (List.range' (front.length + 1) rest.length).forM (resizeOrRestore rows)) _)
      cases hresize : v.resize rows with
      -- the vector joins those that are done
      | ok w =>
          have hdone : ((before ++ [v]).mapM fun v => v.resize rows) = .ok (front ++ [w]) := by
            rw [List.mapM_append, hbefore, ok_bind, List.mapM_cons, hresize]
            rfl
          rw [List.append_cons before v rest] at hlengths ⊢
          rw [InPlace.bind_of_ok (resizeOrRestore_of_ok c hresize front rest)]
          have hrest := ih hdone hlengths
          rw [List.length_append] at hrest
          exact hrest
      -- the vectors that were done are cut back, and the loop ends
      | error e =>
          have hv : v.length = c.rows := hlengths v (by simp)
          have hfront : ∀ vector ∈ before, vector.length = c.rows :=
            fun vector hvector => hlengths vector (by simp [hvector])
          have hall : ((before ++ v :: rest).mapM fun v => v.resize rows) = .error e := by
            rw [List.mapM_append, hbefore, ok_bind, List.mapM_cons, hresize]
            rfl
          have hstep := resizeOrRestore_of_error c hbefore hfront hv hresize rest
          rw [hall, InPlace.bind_of_error hstep]
          exact Follows.refused e

end Loop

theorem Sound.follows_resizeVectors (h : c.Sound) (rows : Nat) :
    Follows c ((fun vectors => { c with vectors }) <$> c.vectors.mapM fun v => v.resize rows)
      (resizeVectors rows c) := by
  have hnone : (([] : List ScalarVector).mapM fun v => v.resize rows) = .ok [] := rfl
  have hloop := follows_forM c hnone h.lengths
  rw [List.length_nil, ← List.range_eq_range'] at hloop
  exact hloop

theorem Sound.follows_resize (h : c.Sound) (rows : Nat) :
    Follows c (c.resize rows) (resizeRows rows c) := by
  refine Follows.ite (fun _ => Follows.done c) fun _ => ?_
  refine Follows.ite (fun _ => Follows.refused _) fun _ => ?_
  have hloop := (h.follows_resizeVectors rows).andStore fun c => { c with rows }
  change Follows c ((c.vectors.mapM fun v => v.resize rows) >>= fun vectors =>
    .ok { c with rows, vectors }) _
  cases hvectors : c.vectors.mapM fun v => v.resize rows with
  | ok vectors =>
      rw [hvectors] at hloop
      exact hloop
  | error e =>
      rw [hvectors] at hloop
      exact hloop

/-- A vector that cannot grow, found when those before it have grown: in the end they are what they
were. -/
theorem Sound.resizeRows_restores (h : c.Sound) {before grown back : List ScalarVector}
    {v : ScalarVector} {bytes : Nat} (hvectors : c.vectors = before ++ v :: back)
    (hstatus : c.status ≠ .userAllocated)
    (hgrown : (before.mapM fun v => v.resize rows) = .ok grown)
    (hv : v.resize rows = .error (.allocationFailed bytes)) :
    ((List.range before.length).forM (resizeOrRestore rows) : InPlace ColumnTable Unit) c
        = .ok () { c with vectors := grown ++ v :: back }
      ∧ resizeRows rows c = .error (.allocationFailed bytes) c := by
  have hc : { c with vectors := before ++ v :: back } = c := by rw [← hvectors]
  refine ⟨?_, ?_⟩
  · have hloop := forM_range_of_step c (resizeOrRestore_of_ok c) hgrown (v :: back)
    rw [hc] at hloop
    exact hloop
  · have hmember : v ∈ c.vectors := by simp [hvectors]
    have hrows : rows ≠ c.rows := by
      have hgrows := ScalarVector.lt_of_resize_error hv
      rw [h.lengths v hmember] at hgrows
      exact Nat.ne_of_gt hgrows
    have hmapM : (c.vectors.mapM fun v => v.resize rows) = .error (.allocationFailed bytes) := by
      rw [hvectors, List.mapM_append, hgrown, ok_bind, List.mapM_cons, hv]
      rfl
    have hrefused : c.resize rows = .error (.allocationFailed bytes) := by
      rw [ColumnTable.resize, if_neg hrows, if_neg hstatus, hmapM]
      rfl
    have hfollows := h.follows_resize rows
    rw [hrefused] at hfollows
    exact hfollows.eq_of_refused fun hfault => by cases hfault

theorem follows_allocate (c : ColumnTable) : Follows c c.allocate (allocateStorage c) := by
  refine Follows.ite (fun _ => Follows.refused _) fun _ => ?_
  refine Follows.compute fun vectors _ => ?_
  exact Follows.done _

theorem follows_append (c : ColumnTable) (vector : ScalarVector) :
    Follows c (c.pushColumn vector) (appendColumn vector c) := by
  refine Follows.compute fun _ _ => ?_
  refine Follows.compute fun _ _ => ?_
  exact Follows.done _

theorem faithful : Faithful Sound where
  rows _ range s values := by
    refine Follows.compute fun _ _ => ?_
    refine Follows.compute fun _ _ => ?_
    refine Follows.compute fun _ _ => ?_
    exact Follows.done _
  column _ column range s values := by
    refine Follows.compute fun vector _ => ?_
    refine Follows.compute fun _ _ => ?_
    refine Follows.compute fun _ _ => ?_
    exact Follows.done _
  resize h rows := h.follows_resize rows
  dictionary _ dictionary := by
    refine Follows.ite (fun _ => ?_) fun _ => Follows.done _
    refine Follows.compute fun _ _ => ?_
    refine Follows.compute fun _ _ => ?_
    exact Follows.done _

end ColumnTable

end Tabular
