/-
This file is the command line itself.

It hands the words to the library, fetches the one source that a run may need, and prints
what the library says.
-/

import ZeroFrame.Command.Run

namespace ZeroFrame.Command

/-- Reads a stream to its end. -/
partial def readAll (stream : IO.FS.Stream) (read : ByteArray) : IO ByteArray := do
  let chunk ← stream.read 65536
  if chunk.isEmpty then return read else readAll stream (read ++ chunk)

/-- What is found at a source outside. -/
def fetch : Source → IO Content
  | .input => do return .bytes (← readAll (← IO.getStdin) ByteArray.empty).toList
  | .file path => do
    try
      return .bytes (← IO.FS.readBinFile path).toList
    catch
      | .noFileOrDirectory .. => return .missing
      | .inappropriateType _ 21 _ => return .folder
      | .inappropriateType .. => return .missing
      | .invalidArgument .. => return .nameTooLong
      | fault => throw fault

def Plan.run : Plan → IO (Except Fault Result)
  | finished outcome => return outcome
  | reading source resume => do return resume (← fetch source)

end ZeroFrame.Command

/-- Runs the command line with the given words. -/
def main (arguments : List String) : IO UInt32 := do
  match ← (ZeroFrame.Command.plan .boundless arguments).run with
  | .ok result =>
    (← IO.getStdout).putStr result.output
    (← IO.getStderr).putStr result.errors
    return UInt32.ofNat result.exit
  | .error fault =>
    (← IO.getStderr).putStrLn fault.message
    return 1
