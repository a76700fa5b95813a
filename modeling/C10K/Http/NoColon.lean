import C10K.Http.Section

/-!
# A line without a colon

The scan for the colon stops at `str_len`, and the check behind it rejects only an index above
`str_len`. So such a line goes through the trimming loops with a value of negative length, and is
rejected only if its text is too long for a key.
-/

namespace C10K

open Scan

variable {l r line mem : List UInt8} {str strLen i : ℕ} {dst : HttpHeader}

/-! ### The scans -/

end C10K
