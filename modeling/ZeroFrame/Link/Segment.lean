/-
This file reads the frames of a stream off its bytes alone.

The separators cut a stream into segments. The segments that hold a byte and are ended by a
separator are the frames of the stream; the bytes after the last separator are still open.
Nothing here depends on how the stream arrives.
-/

import ZeroFrame.Bytes

namespace ZeroFrame

/-- The segments of a stream. -/
structure Segments where
  /-- The ended segments with at least one byte, in order. -/
  ended : List Bytes
  /-- The bytes after the last separator. -/
  rest : Bytes
  deriving DecidableEq, Repr

/-- The segments of a stream that goes on after `begun`, which has no separator. -/
def segmentsAfter (begun : Bytes) : Bytes → Segments
  | [] => ⟨[], begun⟩
  | byte :: rest =>
    if byte = separator then
      let segments := segmentsAfter [] rest
      if begun.isEmpty then segments else ⟨begun :: segments.ended, segments.rest⟩
    else segmentsAfter (begun ++ [byte]) rest

def segments (stream : Bytes) : Segments := segmentsAfter [] stream

end ZeroFrame
