/-!
# Storage layouts

The eight arrangements a table's storage can have, and sets of them. Each layout owns one bit, so
that membership in a set is one conjunction.
-/

namespace Tabular

/-- How a table arranges its storage. The last four keep one triangle of a square matrix. -/
inductive StorageLayout where
  | dense
  | records
  | columns
  | sparse
  | upperTriangular
  | upperSymmetric
  | lowerSymmetric
  | lowerTriangular
  deriving DecidableEq, Repr, Inhabited

namespace StorageLayout

/-- Every layout, in the order of their bits. -/
def all : List StorageLayout :=
  [dense, records, columns, sparse, upperTriangular, upperSymmetric, lowerSymmetric,
    lowerTriangular]

/-- The layout's own bit. -/
def bit : StorageLayout → BitVec 32
  | dense => 1
  | records => 2
  | columns => 4
  | sparse => 16
  | upperTriangular => 128
  | upperSymmetric => 256
  | lowerSymmetric => 512
  | lowerTriangular => 1024

/-- The layout that owns a bit. -/
def ofBit? (bit : BitVec 32) : Option StorageLayout := all.find? (·.bit = bit)

/-- The short name used in messages. -/
def name : StorageLayout → String
  | dense => "dense"
  | records => "aos"
  | columns => "soa"
  | sparse => "csr"
  | upperTriangular => "upper-packed-triangular"
  | upperSymmetric => "upper-packed-symmetric"
  | lowerSymmetric => "lower-packed-symmetric"
  | lowerTriangular => "lower-packed-triangular"

instance : ToString StorageLayout := ⟨name⟩

/-- The layout keeps one triangle of a square matrix. -/
def isPacked : StorageLayout → Bool
  | upperTriangular | upperSymmetric | lowerSymmetric | lowerTriangular => true
  | _ => false

/-- The kept triangle is the upper one. -/
def isUpper : StorageLayout → Bool
  | upperTriangular | upperSymmetric => true
  | _ => false

/-- The triangle that is not kept is the transpose of the kept one. -/
def isSymmetric : StorageLayout → Bool
  | upperSymmetric | lowerSymmetric => true
  | _ => false

def isSparse (layout : StorageLayout) : Bool := layout = sparse

end StorageLayout

/-- A set of layouts, as the union of their bits. -/
structure LayoutMask where
  bits : BitVec 32
  deriving DecidableEq, Repr

namespace LayoutMask

def empty : LayoutMask := ⟨0⟩

def ofLayout (layout : StorageLayout) : LayoutMask := ⟨layout.bit⟩

def union (a b : LayoutMask) : LayoutMask := ⟨a.bits ||| b.bits⟩

def inter (a b : LayoutMask) : LayoutMask := ⟨a.bits &&& b.bits⟩

def ofLayouts (layouts : List StorageLayout) : LayoutMask :=
  layouts.foldl (fun mask layout => mask.union (ofLayout layout)) empty

/-- The packed layouts whose other triangle is zero. -/
def packedTriangular : LayoutMask := ofLayouts [.upperTriangular, .lowerTriangular]

/-- The packed layouts whose other triangle is the transpose of the kept one. -/
def packedSymmetric : LayoutMask := ofLayouts [.upperSymmetric, .lowerSymmetric]

def packed : LayoutMask := packedTriangular.union packedSymmetric

/-- The layouts that keep every cell. -/
def full : LayoutMask := ofLayouts [.dense, .records, .columns]

def all : LayoutMask := ofLayouts StorageLayout.all

def isEmpty (mask : LayoutMask) : Bool := mask.bits = 0

def contains (mask : LayoutMask) (layout : StorageLayout) : Bool := mask.bits &&& layout.bit ≠ 0

/-- The layouts outside the set. -/
def complement (mask : LayoutMask) : LayoutMask := ⟨~~~mask.bits &&& all.bits⟩

/-- The layouts of the set, in the order of their bits. -/
def layouts (mask : LayoutMask) : List StorageLayout := StorageLayout.all.filter mask.contains

end LayoutMask

end Tabular
