/-
This file carries orders out.

Everything that a run prints, and the number with which it ends, follows from the words of
the command line, the content of the one source that they may name and the memory for its
chunks. A run is therefore planned first: either its outcome is settled, or it needs the
content of a source. Mistakes of the user have a result of their own; a run that breaks off
with a fault has none.
-/

import ZeroFrame.Command.Arguments
import ZeroFrame.Command.Listing
import ZeroFrame.Command.Path

namespace ZeroFrame.Command

/-! ### Results -/

/-- What a run prints, and the number with which it ends. -/
structure Result where
  exit : Nat
  output : String
  errors : String
  deriving DecidableEq, Repr

/-- A run that prints a text and ends well. -/
def Result.success (output : String) : Result := ⟨0, output, ""⟩

/-- A run that ends with an error. -/
def Result.failure (message : String) : Result := ⟨1, "", joinLines ["Error: " ++ message]⟩

/-- What a run prints when the command line leads to no order. -/
def Stop.result : Stop → Result
  | help page => .success page.help
  | version => .success (joinLines [versionLine])
  | mistake page message =>
    ⟨2, "", joinLines [page.usage, page.program ++ ": error: " ++ message]⟩

/-! ### Sources -/

/-- Where a stream comes from. -/
inductive Source where
  | input
  | file (path : String)
  deriving DecidableEq, Repr

/-- The path of a source as it is told. -/
def Source.path : Source → String
  | input => "-"
  | file path => path

/-- What is found at a source. -/
inductive Content where
  | bytes (bytes : Bytes)
  | folder
  | missing
  /-- The path, or a name on the way, has too many bytes. -/
  | nameTooLong
  deriving DecidableEq, Repr

/-- The source of a name on the command line. -/
def Source.ofName (name : String) : Source :=
  if name = "-" then .input else .file (normalPath name)

/-! ### Tasks -/

/-- The place in a log line from which it comes. -/
def logName : String := "rzcobs.stream.decoder"

def levelWord : Level → String
  | .debug => "DEBUG"
  | .warning => "WARNING"

/-- The records as lines; without the wish for more, only warnings are shown. -/
def logLines (verbose : Bool) (log : List Record) : List String :=
  (log.filter fun record => verbose ∨ record.level ≠ .debug).map fun record =>
    levelWord record.level ++ " " ++ logName ++ ": " ++ record.text

/-- What keeps chunks of so many bytes from being read. Those of a file are read into a block of
that size, those of the input are cut out of what is there. -/
def Source.shortage? (memory : Memory) (size : Nat) : Source → Option Shortage
  | input => Shortage.ofNumber? size
  | file _ => Shortage.ofBlock? memory size

/-- Lists the frames of a content that is read in chunks of `size` bytes. -/
def dump (memory : Memory) (settings : Settings) (size : Nat) (source : Source) :
    Content → Except Fault Result
  | .missing => .ok (.failure ("File not found: " ++ source.path))
  | .folder => .ok (.failure ("[Errno 21] Is a directory: " ++ Text.quoted source.path))
  | .nameTooLong => .ok (.failure ("[Errno 36] File name too long: " ++ Text.quoted source.path))
  | .bytes bytes =>
    match source.shortage? memory size with
    | some shortage => .error (.shortage shortage)
    | none =>
      let listing := Listing.ofChunks settings.strip (chunks size bytes)
      .ok ⟨0, joinLines listing.lines, joinLines (logLines settings.verbose listing.log)⟩

/-- Decodes the frame that some words spell together. -/
def decode (words : List String) : Result :=
  match Text.Hex.read (words.flatMap String.toList) with
  | .error position =>
    .failure ("invalid hex: non-hexadecimal number found in fromhex() arg at position " ++
      toString position)
  | .ok codeword =>
    match Codeword.decode codeword with
    | .error flaw => .failure (Fault.codeword flaw).message
    | .ok payload => .success (joinLines [Text.Hex.spaced payload])

/-! ### Plans -/

/-- How a run goes on. -/
inductive Plan where
  | finished (outcome : Except Fault Result)
  /-- It needs what is found at a source. -/
  | reading (source : Source) (resume : Content → Except Fault Result)

def Order.plan (memory : Memory) (order : Order) : Plan :=
  match order.task with
  | .help => .finished (.ok (.success Page.main.help))
  | .decode words => .finished (.ok (decode words))
  | .dump name =>
    match order.settings.chunkSize with
    | none => .finished (.error .noChunkSize)
    | some size =>
      if size ≤ 0 then
        .finished (.ok (.failure ("--chunk-size must be > 0, got " ++ toString size)))
      else
        let source := Source.ofName name
        .reading source (dump memory order.settings size.toNat source)

def plan (memory : Memory) (arguments : List String) : Plan :=
  match Order.ofArguments arguments with
  | .ok order => order.plan memory
  | .error stop => .finished (.ok stop.result)

end ZeroFrame.Command
