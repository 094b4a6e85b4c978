/-
  Phrasing/Main.lean
  ==================
  **The program.**

  What a command may look at is read from the real disk into a value, the command
  runs on that value, and whatever it changed is stored.
-/
import Phrasing.Console.Run

namespace Phrasing.Console

/-! ### The real disk -/

def realName (p : Path) : IO String := do
  match p.base with
  | .home =>
    let home := (← IO.getEnv "HOME").getD "/"
    return Text.toStringLossy (Text.join "/" (Text.ofString home :: p.names))
  | _ => return p.text.toStringLossy

/-- What stands at a path of the real disk, if anything does. -/
def observe (p : Path) : IO (Option Node) := do
  try
    return some (.file (← IO.FS.readBinFile (← realName p)).toList)
  catch
    | .noFileOrDirectory .. | .invalidArgument .. => return none
    | .inappropriateType .. => return some .directory
    | e => throw e

/-- What stands at paths and on the way to them. -/
def snapshot (paths : List Path) : IO Disk := do
  let mut disk : Disk := []
  for p in paths do
    for size in [0 : p.names.length] do
      let shorter : Path := { p with names := p.names.take (size + 1) }
      let place := shorter.names.foldl Location.follow (Location.start p)
      unless Entries.has disk place do
        if let some node ← observe shorter then
          disk := Entries.insert disk place node
  return disk

/-- Stores what a command left at a location. -/
def store (place : Location) (node : Node) : IO Unit := do
  let name ← realName place.path
  let write (bytes : Bytes) : IO Unit := IO.FS.writeBinFile name (ByteArray.mk bytes.toArray)
  match node with
  | .directory => IO.FS.createDir name
  | .file content => write content
  | .table rows => write (Host.tableBytes rows)

/-- Stores what a command changed. -/
def storeAll (before after : Disk) : IO Unit := do
  for place in Disk.removals before after do
    IO.FS.removeFile (← realName place.path)
  for (place, node) in Disk.changes before after do
    store place node

/-! ### Running -/

/-- The files that a command line is about. -/
def filesOf (arguments : List Text) : List Path :=
  match readArguments arguments with
  | .command c => c.files
  | _ => []

/-- Tells how a command ended, in words and as a number. -/
def finish : Exit → IO UInt32
  | .success => return 0
  | .usage => return 2
  | .reported text => do
    IO.eprintln text.toStringLossy
    return 1
  | .failed failure => do
    IO.eprintln ((failure.message?.getD "the command could not be finished").toStringLossy)
    return 1

end Phrasing.Console

open Phrasing in
/-- Runs the command that the command line asks for. -/
def main (args : List String) : IO UInt32 := do
  let arguments := args.map Text.ofString
  let before ← Console.snapshot (Console.filesOf arguments)
  let result := Console.run arguments before
  Console.storeAll before result.disk
  IO.print result.stdout.toStringLossy
  IO.eprint result.stderr.toStringLossy
  Console.finish result.exit
