/-
This file lists the frames of a stream, one line for each.

A line shows the number of the frame, how many bytes it has encoded and decoded, whether it
was decoded, and its payload, or the encoded bytes if there is no payload to show. Bytes
after the last separator are counted in a line of their own. The stream is read in chunks,
and the lines do not depend on where one chunk ends and the next begins.
-/

import ZeroFrame.Link.Observer
import ZeroFrame.Table.Verbatim
import ZeroFrame.Text.Hex

namespace ZeroFrame.Command

/-! ### Lines -/

/-- The text followed by spaces up to a width. -/
def padRight (width : Nat) (text : String) : String :=
  text ++ String.ofList (List.replicate (width - text.length) ' ')

/-- A line without the spaces at its end. -/
def trimRight (line : String) : String :=
  String.ofList (line.toList.reverse.dropWhile (· = ' ')).reverse

/-- What became of a frame. -/
inductive Status where
  | ok
  /-- There is a payload, but the table refused it. -/
  | tableError
  | malformed
  deriving DecidableEq, Repr

def Status.word : Status → String
  | ok => "ok"
  | tableError => "table-error"
  | malformed => "malformed"

/-- What became of a reported frame, and the bytes to show for it. -/
def statusOf (report : Report Bytes) : Status × Bytes :=
  match report.frame with
  | some payload => (.ok, payload)
  | none => if report.size = 0 then (.malformed, report.raw) else (.tableError, [])

/-- The line of the frame with the given number. -/
def frameLine (number : Nat) (report : Report Bytes) : String :=
  let (status, shown) := statusOf report
  trimRight ("#" ++ padRight 5 (toString number) ++
    " enc=" ++ padRight 4 (toString report.raw.length) ++
    " dec=" ++ padRight 4 (toString report.size) ++
    " " ++ padRight 11 status.word ++ " " ++ Text.Hex.spaced shown)

/-- The line that counts the bytes after the last separator, if there are any. -/
def trailingLines (pending : Nat) : List String :=
  if pending = 0 then [] else [toString pending ++ " trailing bytes without separator"]

/-! ### Streams -/

/-- The bytes in chunks of at least one byte, and of `size` bytes if there are so many. -/
def chunks (size : Nat) (bytes : Bytes) : List Bytes :=
  match bytes with
  | [] => []
  | first :: rest => (first :: rest.take (size - 1)) :: chunks size (rest.drop (size - 1))
termination_by bytes.length
decreasing_by simp only [List.length_cons, List.length_drop]; omega

/-- The reports among some events that are given latest first, first to last. -/
def reportsOf {φ : Type} (heard : List (Event φ)) : List (Report φ) :=
  heard.reverse.filterMap fun
    | .report report => some report
    | _ => none

/-- Hands a chunk over and takes the reports that it leads to. -/
def feed (receiver : Receiver Verbatim) (chunk : Bytes) :
    List (Report Bytes) × Receiver Verbatim :=
  let receiver := receiver.receive chunk
  let (_, exchange) :=
    (Exchange.start receiver).reportAll (.silent Bytes) 1 (receiver.pending.length + 1)
  (reportsOf exchange.heard, exchange.receiver)

/-- Hands chunks over one after the other and takes all reports. -/
def feedAll (receiver : Receiver Verbatim) : List Bytes → List (Report Bytes) × Receiver Verbatim
  | [] => ([], receiver)
  | chunk :: chunks =>
    let (reports, receiver) := feed receiver chunk
    let (others, receiver) := feedAll receiver chunks
    (reports ++ others, receiver)

/-- The lines of a stream, the number of its frames and what was recorded meanwhile. -/
structure Listing where
  lines : List String
  count : Nat
  log : List Record
  deriving DecidableEq, Repr

/-- Lists the frames of a stream that comes in chunks. -/
def Listing.ofChunks (strip : Bool) (chunks : List Bytes) : Listing :=
  let (reports, receiver) := feedAll (.fresh none ⟨strip⟩) chunks
  ⟨reports.mapIdx frameLine ++ trailingLines receiver.pending.length, reports.length, receiver.log⟩

end ZeroFrame.Command
