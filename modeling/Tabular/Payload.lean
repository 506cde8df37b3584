import Tabular.Dictionary
import Tabular.Scalar.Vector

/-!
# Payloads

The arrays behind a table, as data. A payload holds what is needed to build a table of the same kind
again; together with the layout and the dictionary it is the record that an archive stores.
-/

namespace Tabular

/-- The kinds of table that archives can hold. -/
inductive TableTag where
  | dense
  | records
  | columns
  | sparse
  | packed
  deriving DecidableEq, Repr, Inhabited

namespace TableTag

def all : List TableTag := [dense, records, columns, sparse, packed]

/-- The number that stands for the kind in a header. -/
def number : TableTag → Nat
  | dense => 1
  | records => 2
  | columns => 3
  | sparse => 4
  | packed => 5

def ofNumber? (n : Nat) : Option TableTag := all.find? (·.number = n)

/-- The name used in messages. -/
def name : TableTag → String
  | dense => "Dense"
  | records => "Aos"
  | columns => "Soa"
  | sparse => "Csr"
  | packed => "Packed"

end TableTag

/-- The arrays of one kind of table. -/
inductive Payload where
  /-- All cells, row after row. -/
  | dense (rows columns : Nat) (values : ScalarVector)
  /-- All records, one after the other. -/
  | records (rows recordSize : Nat) (bytes : List UInt8)
  /-- One vector per column. -/
  | columns (rows : Nat) (columns : List ScalarVector)
  /-- The stored cells of a sparse table, with their columns and the bounds of its rows. -/
  | sparse (columns : Nat) (values : ScalarVector) (columnIndices rowOffsets : List Nat)
  /-- The kept triangle of a square matrix. -/
  | packed (layout : StorageLayout) (dimension : Nat) (values : ScalarVector)
  deriving DecidableEq

namespace Payload

/-- Rows of the table that the payload describes. -/
def rows : Payload → Nat
  | dense rows .. | records rows .. | columns rows .. => rows
  | sparse _ _ _ rowOffsets => rowOffsets.length - 1
  | packed _ dimension _ => dimension

/-- Equality with values compared as numbers. -/
def sameNumbers : Payload → Payload → Bool
  | dense r c v, dense r' c' v' => r = r' && c = c' && v.sameNumbers v'
  | records r s b, records r' s' b' => r = r' && s = s' && b = b'
  | columns r vs, columns r' vs' =>
    r = r' && vs.length = vs'.length && (vs.zip vs').all fun (v, v') => v.sameNumbers v'
  | sparse c v i o, sparse c' v' i' o' => c = c' && v.sameNumbers v' && i = i' && o = o'
  | packed l n v, packed l' n' v' => l = l' && n = n' && v.sameNumbers v'
  | _, _ => false

end Payload

/-- What an archive stores about a table. -/
structure TableRecord where
  layout : StorageLayout
  dictionary : Dictionary
  body : Payload
  deriving DecidableEq

namespace TableRecord

/-- Equality with values compared as numbers. -/
def sameNumbers (a b : TableRecord) : Bool :=
  a.layout = b.layout && a.dictionary = b.dictionary && a.body.sameNumbers b.body

end TableRecord

end Tabular
