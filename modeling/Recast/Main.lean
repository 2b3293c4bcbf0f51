/-
  Recast — the command line.

  Reads the settings file that the arguments ask for, prints the response and exits.
-/
import Recast.Shell.Program

open Recast Recast.Shell

/-- What a path of the file system leads to. -/
def readSource (path : String) : IO Source := do
  try
    return .file (← IO.FS.readBinFile path)
  catch error =>
    match error with
    | .noFileOrDirectory .. => return .missing
    | _ => return .directory

/-- The settings file for some options. -/
def settingsPath (options : Options) : IO String := do
  match options.config with
  | some path => return String.ofList path
  | none =>
    let home ← IO.getEnv "HOME"
    return home.getD "" ++ "/" ++ String.ofList defaultPath

def main (args : List String) : IO UInt32 := do
  let request := Request.ofArgs (args.map String.toList)
  let source ←
    match request with
    | .answer options => readSource (← settingsPath options)
    | _ => pure .missing
  let response := request.respond fun options => settingsFor options fun _ => source
  IO.print (String.ofList response.output)
  return response.exitCode.toUInt32
