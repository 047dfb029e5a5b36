import ViewBinding.CommandLine.Commands

namespace ViewBinding.Main

def faultOf (error : IO.Error) : DiskFault :=
  match error with
  | .noFileOrDirectory .. => .notFound
  | .alreadyExists .. => .alreadyExists
  | .inappropriateType _ 20 _ => .notDirectory
  | .inappropriateType _ 21 _ => .isDirectory
  | .invalidArgument _ 36 _ => .nameTooLong
  | error => .other (toString error)

def attempt {α : Type} (action : IO α) : IO (Except DiskFault α) := do
  try
    let a ← action
    pure (.ok a)
  catch error => pure (.error (faultOf error))

def readText (path : Path) : IO (Except DiskFault String) := do
  match ← attempt (IO.FS.readBinFile path.text) with
  | .error fault => pure (.error fault)
  | .ok bytes =>
      match String.fromUTF8? bytes with
      | some text => pure (.ok text)
      | none => pure (.error .notText)

/-- Only where a directory is can there be one called `.` in it already. -/
def isDirectory (path : Path) : IO Bool := do
  match ← attempt (IO.FS.createDir (path.push ".").text) with
  | .error .alreadyExists => pure true
  | _ => pure false

def disk : Disk IO where
  readText := readText
  isDirectory := isDirectory
  makeDirectory path := attempt (IO.FS.createDir path.text)
  writeText path text := attempt (IO.FS.writeFile path.text text)

end ViewBinding.Main

def main (arguments : List String) : IO UInt32 := do
  let isTerminal ← (← IO.getStderr).isTty
  let report ← ViewBinding.CommandLine.run ViewBinding.Main.disk isTerminal arguments
  IO.print report.out
  IO.eprint report.err
  return report.exit
