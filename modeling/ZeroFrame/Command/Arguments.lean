/-
This file reads the words of a command line into an order to carry out.

The words of a page are taken from left to right. An option takes effect where it stands, so
an option that asks for help wins over a mistake further on. The operands of a page are the
first words that can be operands; what is neither an option nor an operand is left over, and
words that are left over are a mistake once everything else has been read.
-/

import ZeroFrame.Command.Word
import ZeroFrame.Text.Integer
import ZeroFrame.Text.Quoted

namespace ZeroFrame.Command

/-! ### Options -/

/-- What the options of all pages have settled. -/
structure Settings where
  verbose : Bool
  /-- The number of bytes in a chunk; there is none if the divider was given in its place. -/
  chunkSize : Option Int
  strip : Bool
  deriving DecidableEq, Repr

/-- The settings if no option is given. -/
def Settings.initial : Settings := ⟨false, some 4096, false⟩

def complaint (switch : Switch) (message : String) : String :=
  "argument " ++ switch.label ++ ": " ++ message

namespace Page

def apply (page : Page) (settings : Settings) (switch : Switch) (value : String) :
    Except Stop Settings :=
  match switch.wish with
  | .help => .error (.help page)
  | .version => .error .version
  | .verbose => .ok { settings with verbose := true }
  | .stripPadding => .ok { settings with strip := true }
  | .chunkSize =>
    if value = divider then .ok { settings with chunkSize := none }
    else
      match Text.Integer.read? value with
      | some size => .ok { settings with chunkSize := some size }
      | none =>
        .error (.mistake page (complaint switch ("invalid int value: " ++ Text.quoted value)))

/-- The complaint about something behind an option that takes no value. -/
def ignored (page : Page) (switch : Switch) (text : List Char) : Stop :=
  .mistake page
    (complaint switch ("ignored explicit argument " ++ Text.quoted (String.ofList text)))

/-- What a word that is an option leads to. -/
structure Grant where
  /-- The options that the word stands for, each with its value. -/
  switches : List (Switch × String)
  /-- How many of the words after it belong to it. -/
  used : Nat
  deriving DecidableEq, Repr

/-- Grants an option with nothing attached to it, where `next` is the word after it. -/
def grantBare (page : Page) (switch : Switch) (next : Option Word) : Except Stop Grant :=
  if switch.takesValue then
    match next with
    | some ⟨text, .value⟩ => .ok ⟨[(switch, text)], 1⟩
    | _ => .error (.mistake page (complaint switch "expected one argument"))
  else .ok ⟨[(switch, "")], 0⟩

/-- Grants an option with a long name and a text attached to it. -/
def grantLong (page : Page) (switch : Switch) (text : List Char) : Except Stop Grant :=
  if switch.takesValue then .ok ⟨[(switch, String.ofList text)], 0⟩
  else .error (page.ignored switch text)

/-- Grants an option with a short name and a text attached to it: the text is the value of the
option or, if it takes none, names further options by one character each. -/
def grantShort (page : Page) (switch : Switch) (next : Option Word) :
    List Char → Except Stop Grant
  | [] => page.grantLong switch []
  | char :: rest =>
    if switch.takesValue then page.grantLong switch (char :: rest)
    else
      match page.find? (String.ofList ['-', char]) with
      | none => .error (page.ignored switch (char :: rest))
      | some other =>
        let granted := match rest with
          | [] => page.grantBare other next
          | _ => page.grantShort other next rest
        granted.map fun grant => ⟨(switch, "") :: grant.switches, grant.used⟩

/-- The options that a word stands for, where `next` is the word after it. -/
def grant (page : Page) (reading : Reading) (next : Option Word) : Except Stop Grant :=
  match reading.attached with
  | none => page.grantBare reading.switch next
  | some text =>
    if isLong reading.name then page.grantLong reading.switch text
    else page.grantShort reading.switch next text

/-! ### Operands -/

/-- How many words at the front are the operands of the page; the first of them is no option. -/
def operandCount (page : Page) (words : List Word) : Option Nat :=
  let dividers := if (words.head?.map Word.mark) = some .divider then 1 else 0
  match words.drop dividers with
  | [] => none
  | _ :: rest =>
    match page.operand with
    | .command => some words.length
    | .one _ =>
      some (dividers + 1 + (if (rest.head?.map Word.mark) = some .divider then 1 else 0))
    | .many _ => some (dividers + 1 + (rest.takeWhile (·.mark.isOperand)).length)

/-- The texts of operands. A page with a command hands every word on, the others leave the divider
out. -/
def operandTexts (page : Page) (words : List Word) : List String :=
  match page.operand with
  | .command => words.map Word.text
  | _ => (words.filter (·.mark ≠ .divider)).map Word.text

/-! ### Whole pages -/

/-- What has been read of a page. -/
structure Progress where
  settings : Settings
  operands : Option (List String)
  /-- The words that are left over. -/
  extra : List String
  deriving DecidableEq, Repr

def read (page : Page) (words : List Word) (progress : Progress) : Except Stop Progress :=
  match words with
  | [] => .ok progress
  | word :: rest =>
    match word.mark with
    | .unknown => page.read rest { progress with extra := progress.extra ++ [word.text] }
    | .option reading => do
      let grant ← page.grant reading rest.head?
      let settings ← grant.switches.foldlM (fun settings (switch, value) =>
        page.apply settings switch value) progress.settings
      page.read (rest.drop grant.used) { progress with settings := settings }
    | _ =>
      match progress.operands, page.operandCount words with
      | none, some count =>
        page.read (rest.drop (count - 1))
          { progress with operands := some (page.operandTexts (words.take count)) }
      | _, _ =>
        let others := rest.takeWhile (·.mark.isOperand)
        page.read (rest.drop others.length)
          { progress with extra := progress.extra ++ (word :: others).map Word.text }
termination_by words.length
decreasing_by all_goals simp only [List.length_cons, List.length_drop]; omega

/-- Reads a page whose words have no marks yet. -/
def readTexts (page : Page) (settings : Settings) (texts : List String) :
    Except Stop Progress := do
  page.read (← page.words texts) ⟨settings, none, []⟩

/-- The operands that a page has found, which it needs. -/
def operandsOf (page : Page) (progress : Progress) : Except Stop (List String) :=
  match progress.operands, page.operand with
  | some texts, _ => .ok texts
  | none, .command => .ok []
  | none, .one label =>
    .error (.mistake page ("the following arguments are required: " ++ label))
  | none, .many label =>
    .error (.mistake page ("the following arguments are required: " ++ label))

end Page

/-! ### Orders -/

/-- What is to be done. -/
inductive Task where
  | help
  /-- Lists the frames of a source. -/
  | dump (source : String)
  /-- Decodes the frame that the words spell. -/
  | decode (words : List String)
  deriving DecidableEq, Repr

/-- A task with the settings for it. -/
structure Order where
  task : Task
  settings : Settings
  deriving DecidableEq, Repr

/-- The complaint about a name that is no command. -/
def noCommand (name : String) : Stop :=
  .mistake .main ("argument command: invalid choice: " ++ Text.quoted name ++
    " (choose from 'dump', 'decode')")

/-- Reads the page of a command: its task, its settings and the words that are left over. -/
def readCommand (settings : Settings) : List String → Except Stop (Task × Settings × List String)
  | [] => .ok (.help, settings, [])
  | name :: texts =>
    if name = "dump" then do
      let progress ← Page.dump.readTexts settings texts
      let operands ← Page.dump.operandsOf progress
      return (.dump (operands.headD ""), progress.settings, progress.extra)
    else if name = "decode" then do
      let progress ← Page.decode.readTexts settings texts
      let operands ← Page.decode.operandsOf progress
      return (.decode operands, progress.settings, progress.extra)
    else .error (noCommand name)

/-- The order that the words of a command line give. -/
def Order.ofArguments (arguments : List String) : Except Stop Order := do
  let progress ← Page.main.readTexts .initial arguments
  let (task, settings, extra) ← readCommand progress.settings (progress.operands.getD [])
  match progress.extra ++ extra with
  | [] => return ⟨task, settings⟩
  | extra =>
    throw (.mistake .main ("unrecognized arguments: " ++ " ".intercalate extra))

end ZeroFrame.Command
