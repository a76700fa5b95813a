import C10K.Http.Section

/-!
# What stands behind the section

The scan for the end of a line that is not the first goes one byte too far: with another byte than
a carriage return behind the section, that byte becomes part of the last line.
-/

namespace C10K

open Scan

variable {l r : List UInt8} {b : UInt8} {dst : List HttpHeader} {dstSize : ℕ}
variable {before : List HeaderLine} {last : HeaderLine}

/-! ### The last line with one more byte -/

namespace HeaderLine

variable {line : HeaderLine} (hb : b ≠ carriageReturn)

end HeaderLine

/-! ### The run with another byte behind the section -/

section Extend

variable (l r before last)

end Extend

section Runs

variable (hdst : dstSize ≤ dst.length)

include hdst

end Runs

/-! ### The line before the last one -/

section Second

variable {line : HeaderLine}

end Second

/-! ### When the bytes behind the section do not matter -/

section Needed

variable {n : ℕ} (hdst : dstSize ≤ dst.length)
include hdst

end Needed

end C10K
