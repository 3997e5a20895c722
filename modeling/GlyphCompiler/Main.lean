/-
# The command line

The outermost layer: it lets the command line read and write real files, and
passes what the run leaves behind on to the standard streams.
-/

import GlyphCompiler.CommandLine.Run

namespace GlyphCompiler

/-- Read the standard input to its end. -/
partial def readAll (stream : IO.FS.Stream) (read : ByteArray) : IO ByteArray := do
  let chunk ← stream.read 65536
  if chunk.isEmpty then return read else readAll stream (read ++ chunk)

/-- The command line over the file system. -/
def systemHost : CommandLine.Host IO where
  readInput := do readAll (← IO.getStdin) .empty
  readFile name := do
    try return some (← IO.FS.readBinFile name) catch _ => return none
  writeFile name text := do
    try
      IO.FS.writeBinFile name text.toUTF8
      return true
    catch _ => return false

end GlyphCompiler

open GlyphCompiler in
/-- Run the command line. -/
def main (arguments : List String) : IO UInt32 := do
  match ← CommandLine.run systemHost arguments with
  | .ok report =>
    IO.print report.output
    IO.eprint report.error
    return report.exit.toUInt32
  | .error fault =>
    IO.eprintln ("error: " ++ fault.message)
    return 1
