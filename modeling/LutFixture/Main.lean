import LutFixture.CommandLine.Execute

/-!
# The program

Reads the files that an invocation names, and does what its outcome says.
-/

namespace LutFixture.Main

open CommandLine

/-- The file names in a request. -/
def pathsOf : Request → List String
  | .task i =>
    i.config.toList ++ match i.task with
      | .run path _ _ => [path]
      | _ => []
  | _ => []

/-- The number of a system error, whichever sign the system gives it. -/
def errorNumber (code : UInt32) : Nat := min code.toNat (UInt32.size - code.toNat)

/-- What a failure to read a file says about it. -/
def fileOfError : IO.Error → File
  | .noFileOrDirectory .. => .absent
  | e@(.inappropriateType _ code _) =>
    match errorNumber code with
    | 20 => .throughFile
    | 21 => .directory
    | _ => .unreadable (toString e)
  | e@(.invalidArgument _ code _) =>
    if errorNumber code = 36 then .nameTooLong else .unreadable (toString e)
  | e => .unreadable (toString e)

/-- What is found under a file name. -/
def readFile (path : String) : IO File := do
  try
    return .contents (← IO.FS.readBinFile path)
  catch e =>
    return fileOfError e

/-- What is found under each of some file names. -/
def readFiles (paths : List String) : IO (String → File) := do
  let found ← paths.mapM fun path => do return (path, ← readFile path)
  return fun path => (found.lookup path).getD .absent

end LutFixture.Main

open LutFixture LutFixture.CommandLine LutFixture.Main in
/-- Carries out a command line. -/
def main (args : List String) : IO UInt32 := do
  let start ← IO.monoNanosNow
  let request := (readRequest args).toOption
  let files ← readFiles ((request.map pathsOf).getD [])
  let x := outcome files (← IO.getEnv "RUST_LOG") args
  let err ← IO.getStderr
  for f in x.complaint do
    err.putStrLn f.message
  for l in x.log do
    err.putStrLn l.text
  IO.print (x.stdout (.measured ((← IO.monoNanosNow) - start)))
  return UInt32.ofNat x.exit
