/-
This file describes the pages of the command line: what can be written on each of them.

The first page has a few options and takes the name of a command; each command has a page of
its own. A page knows its options and operands, and the texts that explain it.
-/

namespace ZeroFrame.Command

/-! ### Options -/

/-- What an option asks for. -/
inductive Wish where
  | help
  | version
  | verbose
  | chunkSize
  | stripPadding
  deriving DecidableEq, Repr

/-- An option with all its names. -/
structure Switch where
  names : List String
  wish : Wish
  deriving DecidableEq, Repr

namespace Switch

/-- Whether the option comes with a value. -/
def takesValue (switch : Switch) : Bool := switch.wish = .chunkSize

/-- The option as it is called in a complaint. -/
def label (switch : Switch) : String := "/".intercalate switch.names

def help : Switch := ⟨["-h", "--help"], .help⟩

def version : Switch := ⟨["--version"], .version⟩

def verbose : Switch := ⟨["-v", "--verbose"], .verbose⟩

def chunkSize : Switch := ⟨["--chunk-size"], .chunkSize⟩

def stripPadding : Switch := ⟨["--strip-padding"], .stripPadding⟩

end Switch

/-! ### Pages -/

/-- What a page takes beside its options. -/
inductive Operand where
  /-- The name of a command and everything after it. -/
  | command
  /-- One word. -/
  | one (label : String)
  /-- At least one word, and all words up to the next option. -/
  | many (label : String)
  deriving DecidableEq, Repr

/-- A page of the command line. -/
structure Page where
  program : String
  switches : List Switch
  operand : Operand
  /-- The line that sums the page up. -/
  usage : String
  /-- The lines of explanation after it. -/
  explanation : List String
  deriving DecidableEq, Repr

/-- The lines of a text, each with its end. -/
def joinLines (lines : List String) : String := String.join (lines.map (· ++ "\n"))

namespace Page

def main : Page where
  program := "rzcobs"
  switches := [.help, .version, .verbose]
  operand := .command
  usage := "usage: rzcobs [-h] [--version] [-v] \x7bdump,decode\x7d ..."
  explanation := [
    "",
    "rzcobs: rzCOBS stream decoder",
    "",
    "positional arguments:",
    "  \x7bdump,decode\x7d",
    "    dump         List the frames in a byte stream",
    "    decode       Decode one encoded frame",
    "",
    "options:",
    "  -h, --help     show this help message and exit",
    "  --version      show program's version number and exit",
    "  -v, --verbose  Enable debug logging",
    "",
    "Examples:",
    "  rzcobs dump capture.bin               List frames in a captured stream",
    "  cat /dev/ttyACM0 | rzcobs dump -      Decode frames from stdin",
    "  rzcobs decode 01020304050607 80       Decode a single encoded frame",
    "        "]

/-- The page of the command that lists frames. -/
def dump : Page where
  program := "rzcobs dump"
  switches := [.help, .chunkSize, .stripPadding]
  operand := .one "FILE"
  usage := "usage: rzcobs dump [-h] [--chunk-size CHUNK_SIZE] [--strip-padding] FILE"
  explanation := [
    "",
    "positional arguments:",
    "  FILE                  Stream capture, or - for stdin",
    "",
    "options:",
    "  -h, --help            show this help message and exit",
    "  --chunk-size CHUNK_SIZE",
    "                        Bytes fed to the decoder per read (default 4096)",
    "  --strip-padding       Drop trailing zero padding from payloads"]

/-- The page of the command that decodes one frame. -/
def decode : Page where
  program := "rzcobs decode"
  switches := [.help]
  operand := .many "HEX"
  usage := "usage: rzcobs decode [-h] HEX [HEX ...]"
  explanation := [
    "",
    "positional arguments:",
    "  HEX         Encoded frame as hex",
    "",
    "options:",
    "  -h, --help  show this help message and exit"]

def help (page : Page) : String := joinLines (page.usage :: page.explanation)

/-- Every name of an option of the page, in the order in which they are listed. -/
def names (page : Page) : List (String × Switch) :=
  page.switches.flatMap fun switch => switch.names.map (·, switch)

end Page

def versionLine : String := "rzcobs 0.1.0"

/-- Why the words of a command line do not lead to a run. -/
inductive Stop where
  | help (page : Page)
  | version
  /-- The words do not fit the page. -/
  | mistake (page : Page) (message : String)
  deriving DecidableEq, Repr

end ZeroFrame.Command
