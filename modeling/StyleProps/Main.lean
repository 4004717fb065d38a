import StyleProps.CommandLine.Run

/-!
# The command line

Reads the files that a run needs, and carries out its report.
-/

namespace StyleProps.CommandLine

/-- The text of a file. -/
def readFile (path : String) : IO (Except ReadFault String) := do
  try
    let bytes ← IO.FS.readBinFile path
    return textOfBytes bytes
  catch _ => return .error .missing

/-- All bytes of a stream. -/
partial def readAll (stream : IO.FS.Stream) (read : ByteArray) : IO ByteArray := do
  let bytes ← stream.read 65536
  if bytes.isEmpty then return read
  readAll stream (read ++ bytes)

/-- What the run of the given arguments can read. -/
def sourcesOf (texts : List String) : IO Sources := do
  let files ← (filesOf texts).mapM fun path => do return (path, ← readFile path)
  let input ← if readsInput texts then readAll (← IO.getStdin) ByteArray.empty else pure .empty
  return ⟨fun path => (files.lookup path).getD (.error .missing), textOfBytes input⟩

end StyleProps.CommandLine

/-- Runs the command line and exits with its code. -/
def main (texts : List String) : IO UInt32 := do
  let sources ← StyleProps.CommandLine.sourcesOf texts
  let report := StyleProps.CommandLine.run sources texts
  (← IO.getStderr).putStr (StyleProps.CommandLine.linesOf report.messages)
  (← IO.getStdout).putStr report.output
  return report.code.toUInt32
