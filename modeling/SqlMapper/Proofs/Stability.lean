import SqlMapper.Proofs.Calendar.Order
import SqlMapper.Proofs.Text.Blanks

/-! # What was read is stored as it was

A cell is stable under a declaration if the value that is read from it is stored as this cell again.
Storing yields stable cells, however leniently it takes a value: a number column holds a number or a
text that spells none, and a date column holds a written date or a text that is none. For this the
text of a truth value or a number must not pass for a date, nor a written date for a number.
Documents and bytes are left out: the text of a document in a number column can be a numeral, and
bytes can spell a date.
-/

namespace SqlMapper

open Text

namespace Text

end Text

namespace Scan

variable {cs rest : List Char}

end Scan

namespace Instant

end Instant

/-! ## Texts that are no numbers -/

namespace Text

variable {cs : List Char}

end Text

namespace Stored

variable {p : Property}

end Stored

section Storing

variable {p : Property} {v : Value}

end Storing

end SqlMapper
