import CodeChart.Text.Raw

/-! A directory as a value: files under paths. Every proper beginning of a file's path is a
directory. -/
namespace CodeChart.CommandLine

open Text (Sign Raw)

/-- The components of a path, outermost first. -/
abbrev Path := List Raw

structure Directory where
  files : List (Path × List UInt8)
  deriving Inhabited

namespace Directory

def get? (d : Directory) (p : Path) : Option (List UInt8) := d.files.lookup p

def isFile (d : Directory) (p : Path) : Bool := (d.get? p).isSome

def isDirectory (d : Directory) (p : Path) : Bool :=
  p.isEmpty || d.files.any fun f => p.isPrefixOf f.1 && p ≠ f.1

/-- Writes a file, in its old place if it has one. -/
def put (d : Directory) (p : Path) (bytes : List UInt8) : Directory :=
  if d.isFile p then ⟨d.files.map fun f => if f.1 = p then (p, bytes) else f⟩
  else ⟨d.files ++ [(p, bytes)]⟩

end Directory

/-- A path as it is written. -/
def Path.text (p : Path) : Raw := [Sign.char '/'].intercalate p

/-- The components of a written path. -/
def Path.ofText (text : Raw) : Path :=
  (text.cut (.char '/')).filter fun c => !c.isEmpty && c ≠ [.char '.']

def shownName (name : Raw) : String := Text.quoted name.codePoints

namespace Directory

def here : Raw := Raw.ofText "."

def back : Raw := Raw.ofText ".."

/-- Goes from a directory through further components, each of which has to be a directory. -/
def enter (d : Directory) (name : Raw) (place : Path) : List Raw → Except Fault Path
  | [] => pure place
  | c :: rest =>
    if c.isEmpty || c = here then d.enter name place rest
    else if c = back then d.enter name place.dropLast rest
    else
      let next := place ++ [c]
      if d.isDirectory next then d.enter name next rest
      else if d.isFile next then throw (.notDirectory (shownName name))
      else throw (.noSuchFile (shownName name))

/-- The path of a file that can be written under a name. -/
def place (d : Directory) (name : Raw) : Except Fault Path := do
  if name.contains (.char '\x00') then throw .zeroInName
  if name.isEmpty then throw (.noSuchFile (shownName name))
  let components := name.cut (.char '/')
  let named := components.reverse.dropWhile (·.isEmpty)
  match named with
  | [] => throw (.isDirectory (shownName name))
  | last :: before =>
    let parent ← d.enter name [] before.reverse
    if last = here || last = back then throw (.isDirectory (shownName name))
    let target := parent ++ [last]
    if d.isDirectory target then throw (.isDirectory (shownName name))
    if named.length < components.length then
      throw (if d.isFile target then .notDirectory (shownName name)
        else .isDirectory (shownName name))
    return target

def read? (d : Directory) (name : Raw) : Option (List UInt8) :=
  match d.place name with
  | .ok p => d.get? p
  | .error _ => none

/-- The files that differ from an earlier directory, sorted by path. -/
def changes (before after : Directory) : List (Path × List UInt8) :=
  (after.files.filter fun f => before.get? f.1 ≠ some f.2).mergeSort fun a b =>
    !(Path.text b.1).codePoints.lex (Path.text a.1).codePoints

end Directory

end CodeChart.CommandLine
