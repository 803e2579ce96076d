/-
This file gives observers that follow a script.

A script has a cue for some of the reports, counted from zero. A cue lists what the observer
does when that report comes. Since a cue is used once, a script bounds how deeply reports
can be nested and how many of them there can be, and so every run with it comes to an end.
-/

import ZeroFrame.Link.Observer

namespace ZeroFrame

/-- What an observer does at one report, in the order of the fields. -/
structure Cue where
  receive : Option Bytes
  decode : Bool
  /-- Whether to ask for the next report; a fault there is passed on. -/
  reportNext : Bool
  raise : Option Fault
  deriving Repr

namespace Cue

variable {φ : Type}

def ending (cue : Cue) : Reaction φ :=
  match cue.raise with
  | none => .done
  | some fault => .raise fault

/-- What a cue does from the next report on. -/
def fromReport (cue : Cue) : Reaction φ :=
  if cue.reportNext then
    .reportNext fun
      | .ok _ => cue.ending
      | .error fault => .raise fault
  else cue.ending

/-- What a cue does from the taking of a frame on. -/
def fromDecode (cue : Cue) : Reaction φ :=
  if cue.decode then .decode fun _ => cue.fromReport else cue.fromReport

def reaction (cue : Cue) : Reaction φ :=
  match cue.receive with
  | none => cue.fromDecode
  | some chunk => .receive chunk cue.fromDecode

end Cue

/-- Cues by the number of their report. -/
structure Script where
  cues : List (Nat × Cue)
  deriving Repr

namespace Script

variable {φ : Type}

def observer (script : Script) : Observer φ := fun heard =>
  match script.cues.lookup (heard.countP Event.isReport - 1) with
  | none => .done
  | some cue => cue.reaction

/-- How deeply the script can nest reports: each further level takes a cue. -/
def depth (script : Script) : Nat := script.cues.length + 1

/-- The number of bytes that the script hands over. -/
def supply (script : Script) : Nat :=
  (script.cues.map fun (_, cue) => (cue.receive.getD []).length).foldr (· + ·) 0

/-- How many rounds reporting all frames can take with the script: each round but the last uses up
a byte. -/
def rounds {τ : Type} (script : Script) (receiver : Receiver τ) : Nat :=
  receiver.pending.length + script.supply + 1

end Script

end ZeroFrame
