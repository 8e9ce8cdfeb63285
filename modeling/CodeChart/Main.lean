import CodeChart.CommandLine.Program

/-! The command line itself. -/
namespace CodeChart.Main

open CommandLine
open Text (Raw)

/-- Reads a stream to its end. -/
partial def readAll (stream : IO.FS.Stream) (sofar : ByteArray) : IO ByteArray := do
  let more ← stream.read 65536
  if more.isEmpty then return sofar else readAll stream (sofar ++ more)

/-- The fault behind a failed attempt to open a file. -/
def faultOf (name : Raw) : IO.Error → Fault
  | .noFileOrDirectory .. => .noSuchFile (shownName name)
  | .inappropriateType .. => .isDirectory (shownName name)
  | _ => .notDirectory (shownName name)

def world : World IO where
  File := IO.FS.Handle
  read name := do
    try
      return some (← IO.FS.readBinFile name.shown).toList
    catch _ => return none
  input := do return (← readAll (← IO.getStdin) ByteArray.empty).toList
  create name := ExceptT.mk do
    try
      return .ok (← IO.FS.Handle.mk name.shown .write)
    catch e => return .error (faultOf name e)
  append file bytes := file.write ⟨bytes.toArray⟩
  say text := do (← IO.getStdout).putStr text.shown

end CodeChart.Main

def main (arguments : List String) : IO UInt32 := do
  let arguments := arguments.map CodeChart.Text.Raw.ofText
  match ← (CodeChart.CommandLine.run CodeChart.Main.world .byMark arguments).run with
  | .ok status => return status.toUInt32
  | .error fault =>
    (← IO.getStderr).putStrLn fault.message
    return 1
