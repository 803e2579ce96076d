/-
This file gives the table that hands payloads over as they are.

The last group of a codeword is always filled up, so a payload may end in zeros that nobody
sent. A verbatim table can remove them; it then does not count them as used.
-/

import ZeroFrame.Table

namespace ZeroFrame

/-- The table whose frames are the payloads themselves. -/
structure Verbatim where
  /-- Whether trailing zeros are removed. -/
  strip : Bool
  deriving DecidableEq, Repr

namespace Verbatim

def frame (table : Verbatim) (payload : Bytes) : Bytes :=
  if table.strip then payload.stripZeros else payload

instance : Table Verbatim Bytes where
  decode table payload := (.ok (table.frame payload, (table.frame payload).length), table)

end Verbatim

end ZeroFrame
