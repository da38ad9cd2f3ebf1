import SqlTree.Command.Run

/-!
# The program

Runs the command line on the files and variables of the system, prints the result, and reports a
failure with its exit status.
-/

namespace SqlTree

/-- The contents of a file, or why it cannot be read. -/
def readSystemFile (path : String) : IO (Except FileFault String) := do
  try
    let bytes ← IO.FS.readBinFile path
    match String.fromUTF8? bytes with
    | some text => return .ok text
    | none => return .error (.other "stream did not contain valid UTF-8")
  catch e =>
    match e with
    | .noFileOrDirectory _ _ _ | .noSuchThing _ _ _ => return .error .missing
    | .inappropriateType _ _ _ => return .error .isDirectory
    | e => return .error (.other (toString e))

/-- The files and variables of the system. -/
def systemHost : Host IO where
  read := readSystemFile
  lookup name := IO.getEnv name

end SqlTree

open SqlTree in
/-- Runs the command line. -/
def main (args : List String) : IO UInt32 := do
  match ← Command.run systemHost args with
  | .ok text =>
    IO.println text
    return 0
  | .error failure =>
    IO.eprintln failure.message
    return failure.status.toUInt32
