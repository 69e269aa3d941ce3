import Residual.CommandLine.Basic

/-!
# The program

Reads files and standard input, and prints what `CommandLine.execute` gives.
-/

namespace Residual.CommandLine

/-- All bytes that are left of a stream. -/
partial def readAll (stream : IO.FS.Stream) (sofar : ByteArray) : IO ByteArray := do
  let chunk ← stream.read 65536
  if chunk.isEmpty then return sofar else readAll stream (sofar ++ chunk)

/-- The text of a source, if it can be read and is a text. -/
def readSource (source : Source) : IO (Option String) := do
  try
    let bytes ← match source with
      | .stdin => readAll (← IO.getStdin) ByteArray.empty
      | .file path => IO.FS.readBinFile path
    return String.fromUTF8? bytes
  catch _ => return none

/-- Whether an entry is shown. Warnings always are, and details of an evaluation never. -/
def isShown (debug : Bool) (level : LogLevel) : Bool :=
  match level with
  | .warn => true
  | .debug => debug
  | .trace => false

end Residual.CommandLine

open Residual.CommandLine

/-- The program: an exit status of two stands for wrong usage. -/
def main (args : List String) : IO UInt32 := do
  let report ← execute readSource args
  let debug := (Arguments.parse args).toOption.any (·.debug)
  for entry in report.log do
    if isShown debug entry.level then IO.eprintln entry.text
  if let some error := report.error then IO.eprintln error
  if report.status == 2 then IO.eprintln "error: wrong usage; see --help"
  IO.print report.output
  return report.status.toUInt32
