import Tabular.Bounds

/-!
# Triangles of a square matrix

A packed table keeps the cells of one triangle, diagonal included, row after row. Here is the place
of a cell in that order, for the upper triangle (`col` at least `row`) and the lower one. Places are
computed with machine words, and the program stops where a step of the computation leaves them.
-/

namespace Tabular

namespace Triangle

/-- How two factors are computed whose product is `n * (n + 1) / 2`; the even one of `n` and `n + 1`
is halved, so that no step exceeds the result. -/
def factorTerms (n : Nat) : WordTerm × WordTerm :=
  if n % 2 = 0 then (.half (.word n), .add (.word n) (.word 1))
  else (.word n, .add (.half (.word n)) (.word 1))

def factors (n : Nat) : Except TableError (Nat × Nat) := do
  let (a, b) := factorTerms n
  return (← a.value, ← b.value)

/-- Number of cells of a triangle, when a machine word holds it. -/
def length (n : Nat) : Except TableError Nat := do
  let (a, b) ← factors n
  cellCount a b

/-- How the place of a cell is computed. Rows above row `i` of the upper triangle hold `n`, `n - 1`,
…, `n - i + 1` cells. -/
def placeTerm (upper : Bool) (row col n : Nat) : WordTerm :=
  if upper then
    .add (.sub (.mul (.word row) (.word n)) (.half (.mul (.word row) (.word (row - 1)))))
      (.sub (.word col) (.word row))
  else
    .add (.half (.mul (.word row) (.add (.word row) (.word 1)))) (.word col)

/-- Place of a cell among the kept ones; `none` outside the triangle. -/
def index? (upper : Bool) (row col n : Nat) : Except TableError (Option Nat) :=
  if (if upper then row ≤ col else col ≤ row) then some <$> (placeTerm upper row col n).value
  else .ok none

/-- Place of a cell, or of the transposed cell when that is the one inside the triangle. -/
def symmetricIndex (upper : Bool) (row col n : Nat) : Except TableError Nat := do
  let inside := upper = decide (row ≤ col)
  let (r, c) := if inside then (row, col) else (col, row)
  return (← index? upper r c n).getD 0

end Triangle

end Tabular
