import CodeChart.Chart.Source
import CodeChart.CommandLine.Arguments
import CodeChart.CommandLine.Directory
import CodeChart.Page
import CodeChart.Text.Encoding

/-! The program behind the command line: it reads code from a file or from standard input, draws the
chart, and shows it or writes it to a page. The world around it is a set of actions, so that the
same program runs on files and on a directory that is a value. -/
namespace CodeChart.CommandLine

open Text (Raw)

/-- What the program does to the world. A file that is opened for writing is empty from then on. -/
structure World (m : Type → Type) where
  File : Type
  /-- The bytes of a file, if it can be opened. -/
  read : Raw → m (Option (List UInt8))
  input : m (List UInt8)
  create : Raw → ExceptT Fault m File
  append : File → List UInt8 → m Unit
  say : Raw → ExceptT Fault m Unit

structure Settings where
  field : Raw := []
  inner : Bool := false
  output : Raw := []
  simplify : Bool := true
  align : Bool := false
  deriving Inhabited

def usage : List String := [
  "usage: pyflowchart [-h] [-f FIELD] [-i] [-o OUTPUT] [--no-simplify]",
  "                   [--conds-align]",
  "                   code_file"]

def helpLines : List String := usage ++ [
  "",
  "Python code to flowchart.",
  "",
  "positional arguments:",
  "  code_file",
  "",
  "options:",
  "  -h, --help            show this help message and exit",
  "  -f FIELD, --field FIELD",
  "                        field to draw flowchart. (e.g. Class.method)",
  "  -i, --inner           parse the body of field",
  "  -o OUTPUT, --output OUTPUT",
  "                        Output the flowchart to specific file with a format",
  "                        indicating by the extension name. (available: *.html)",
  "  --no-simplify         do not simplify the one-line-body If/Loop",
  "  --conds-align         align consecutive If statements"]

def helpText : String := "\n".intercalate helpLines ++ "\n"

def extension (name : Raw) : Raw := name.afterLast (.char '.')

def isPageName (name : Raw) : Bool :=
  [Raw.ofText "html", Raw.ofText "htm"].contains (extension name)

def unsupportedText (name : Raw) : Raw :=
  Raw.ofText "\n*** Error: " ++ extension name
    ++ Raw.ofText (" is not a supported output file format.\n"
      ++ "    Currently only .htm or .html are supported.\n")

def savedText (name : Raw) : Raw := Raw.ofText "Saved HTML to " ++ name ++ Raw.ofText "\n"

section

variable {m : Type → Type} [Monad m]

def writeText (w : World m) (file : w.File) (text : Raw) : ExceptT Fault m Unit := do
  w.append file (← ofExcept text.encode)

/-- Writes a chart to a page, piece by piece. -/
def writePage (w : World m) (name field : Raw) (chart : String) : ExceptT Fault m Unit := do
  let file ← w.create name
  (Page.pieces (Page.title field name) chart).forM (writeText w file)
  w.say (savedText name)

/-- Shows a chart, or writes it to a page if a file name is given. -/
def deliver (w : World m) (chart : String) (name field : Raw) : ExceptT Fault m Unit := do
  if !name.isEmpty && isPageName name then writePage w name field chart
  else
    w.say (Raw.ofText (chart ++ "\n"))
    if !name.isEmpty then w.say (unsupportedText name)

/-- What is to be drawn under the given settings. No name holds a backslash, so a stray byte in a
field finds no more when it is shown as an escape. -/
def Settings.source (s : Settings) (code : String) : Chart.Source where
  code
  field := s.field.shown
  inner := s.inner || s.field.isEmpty
  options := { simplify := s.simplify, align := s.align }

/-- The chart of some bytes. -/
def Settings.draw (s : Settings) (reader : Text.Reader) (bytes : List UInt8) :
    Graph.Action String := do
  (s.source (← ofExcept (reader.decode bytes))).draw

def convert (w : World m) (reader : Text.Reader) (s : Settings) (bytes : List UInt8) :
    ExceptT Fault m Unit := do
  match (s.draw reader bytes).run {} with
  | .error f store =>
    store.printed.forM fun text => w.say (Raw.ofText text)
    throw f
  | .ok chart store =>
    store.printed.forM fun text => w.say (Raw.ofText text)
    deliver w chart s.output s.field

def badUsage : Nat := 2

/-- Follows the events of the arguments. The result is the exit status. -/
def follow (w : World m) (reader : Text.Reader) (s : Settings) (code : Option (List UInt8)) :
    List Event → ExceptT Fault m Nat
  | [] =>
    match code with
    | none => return badUsage
    | some bytes => do
      convert w reader s bytes
      return 0
  | .help :: _ => do
    w.say (Raw.ofText helpText)
    return 0
  | .fail :: _ => return badUsage
  | .field value :: rest => follow w reader { s with field := value } code rest
  | .inner :: rest => follow w reader { s with inner := true } code rest
  | .output value :: rest => follow w reader { s with output := value } code rest
  | .noSimplify :: rest => follow w reader { s with simplify := false } code rest
  | .align :: rest => follow w reader { s with align := true } code rest
  | .codeFile name :: rest => do
    if name = Raw.ofText "-" then follow w reader s (some (← w.input)) rest
    else
      match ← w.read name with
      | some bytes => follow w reader s (some bytes) rest
      | none => return badUsage

/-- Runs the program on its arguments. -/
def run (w : World m) (reader : Text.Reader) (arguments : List Raw) : ExceptT Fault m Nat :=
  follow w reader {} none (eventsOf arguments)

end

/-- A directory, the standard input, and what has been said so far. A strict desk refuses to say
what is not made of characters alone. -/
structure Desk where
  directory : Directory
  input : List UInt8 := []
  said : Raw := []
  strict : Bool := true
  deriving Inhabited

/-- The world of a desk. -/
def Desk.world : World (StateM Desk) where
  File := Path
  read name := do return (← get).directory.read? name
  input := do return (← get).input
  create name := do
    let desk ← get
    let p ← ofExcept (desk.directory.place name)
    set { desk with directory := desk.directory.put p [] }
    return p
  append p bytes := modify fun desk =>
    { desk with directory := desk.directory.put p ((desk.directory.get? p).getD [] ++ bytes) }
  say text := do
    if (← get).strict then
      let _ ← ofExcept text.encode
    modify fun desk => { desk with said := desk.said ++ text }

/-- What came of a run: its result, what it said, and the files that it changed. -/
structure Report (α : Type) where
  result : Except Fault α
  said : Raw
  changed : List (Path × List UInt8)

def Desk.perform (desk : Desk) (act : ExceptT Fault (StateM Desk) α) : Report α :=
  let (result, after) := act.run.run desk
  { result, said := after.said, changed := desk.directory.changes after.directory }

def Desk.run (desk : Desk) (reader : Text.Reader) (arguments : List Raw) : Report Nat :=
  desk.perform (CommandLine.run Desk.world reader arguments)

def Desk.deliver (desk : Desk) (chart : String) (name field : Raw) : Report Unit :=
  desk.perform (CommandLine.deliver Desk.world chart name field)

def Desk.writePage (desk : Desk) (name field : Raw) (chart : String) : Report Unit :=
  desk.perform (CommandLine.writePage Desk.world name field chart)

end CodeChart.CommandLine
