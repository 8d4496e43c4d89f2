import Turnpike.CommandLine

open Turnpike

def readFiles (paths : List String) : IO (List (String × String)) :=
  paths.filterMapM fun (path : String) => do
    try return some (path, ← IO.FS.readFile path)
    catch _ => return none

def main (args : List String) : IO UInt32 := do
  let files ← readFiles ((CommandLine.command args).elim [] Command.files)
  let exit := CommandLine.run args fun path => files.lookup path
  (← IO.getStdout).putStr exit.output
  return exit.code.toUInt32
