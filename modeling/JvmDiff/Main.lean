import JvmDiff.CommandLine.Run

/-!
# The program

The outer layer: it reads what a comparison needs from the file system, leaves the work to
`Outcome`, and writes the result.
-/

namespace JvmDiff.Program

/-- The number and the wording of an error of the system. -/
def numbered : IO.Error → Option (Nat × String)
  | .alreadyExists _ code details => some (code.toNat, details)
  | .otherError code details => some (code.toNat, details)
  | .resourceBusy code details => some (code.toNat, details)
  | .resourceVanished code details => some (code.toNat, details)
  | .unsupportedOperation code details => some (code.toNat, details)
  | .hardwareFault code details => some (code.toNat, details)
  | .unsatisfiedConstraints code details => some (code.toNat, details)
  | .illegalOperation code details => some (code.toNat, details)
  | .protocolError code details => some (code.toNat, details)
  | .timeExpired code details => some (code.toNat, details)
  | .interrupted _ code details => some (code.toNat, details)
  | .noFileOrDirectory _ code details => some (code.toNat, details)
  | .invalidArgument _ code details => some (code.toNat, details)
  | .permissionDenied _ code details => some (code.toNat, details)
  | .resourceExhausted _ code details => some (code.toNat, details)
  | .inappropriateType _ code details => some (code.toNat, details)
  | .noSuchThing _ code details => some (code.toNat, details)
  | .unexpectedEof => none
  | .userError _ => none

/-- The number of an error, which some calls give with the opposite sign. -/
def unsignedNumber (code : Nat) : Nat :=
  if code < 0x80000000 then code else 0x100000000 - code

/-- The fault with a number and a wording. -/
def ofNumber (code : Nat) (details : String) : AccessFault :=
  match unsignedNumber code with
  | 2 => .notFound
  | 20 => .notDirectory
  | 21 => .isDirectory
  | 40 => .tooManyLinks
  | number => .other (details ++ " (os error " ++ toString number ++ ")")

/-- The fault that an error of the system is. -/
def fault (error : IO.Error) : AccessFault :=
  match numbered error with
  | some (code, details) => ofNumber code details
  | none => .other (toString error)

/-- The bytes of the file at a path. -/
def readFile (path : String) : IO (Except AccessFault (List UInt8)) := do
  try
    return .ok (← IO.FS.readBinFile path).toList
  catch error =>
    return .error (fault error)

/-- Whether the path leads to something of the kind, links followed. -/
def leadsTo (kind : IO.FS.FileType) (path : String) : IO Bool := do
  let place : IO.FS.DirEntry := ⟨path, ""⟩
  try
    return (← place.root.metadata).type == kind
  catch _ =>
    return false

/-- Whether an entry is a directory, links not followed. -/
def isDirectory (entry : IO.FS.DirEntry) : IO Bool := do
  try
    return (← entry.path.symlinkMetadata).type == .dir
  catch _ =>
    return false

/-- Whatever is no directory, read if its name is that of a class file. -/
def readEntry (entry : IO.FS.DirEntry) : IO DirEntry := do
  if ClassFilePath.isClassFile entry.fileName then
    match ← readFile entry.path.toString with
    | .ok bytes => return .file bytes
    | .error fault => return .unreadable fault
  else
    return .file []

/-- The directory at a path with all that is in it. -/
partial def readDirectory (path : String) : IO DirEntry := do
  let place : IO.FS.DirEntry := ⟨path, ""⟩
  try
    let entries ← (← place.root.readDir).toList.mapM fun entry => do
      if ← isDirectory entry then
        return (entry.fileName, ← readDirectory entry.path.toString)
      else
        return (entry.fileName, ← readEntry entry)
    return .directory entries
  catch error =>
    return .unlistable (fault error)

/-- What stands at the root of a snapshot, if it is a directory. -/
def readRoot (path : String) : IO (Option DirEntry) := do
  if ← leadsTo .dir path then
    return some (← readDirectory path)
  else
    return none

/-- The bytes of the settings file that counts, if there is one. -/
def readSettings (options : DiffOptions) : IO (Option (Except AccessFault (List UInt8))) := do
  if options.config.isSome || (← leadsTo .file Settings.defaultFile) then
    return some (← readFile (Settings.filePath options))
  else
    return none

def readSurroundings (options : DiffOptions) : IO Surroundings := do
  return {
    settings := ← readSettings options
    previous := ← readRoot options.previous
    next := ← readRoot options.next }

def randomDigits (count : Nat) : IO String := do
  let digits ← (List.range count).mapM fun _ => do return Nat.digitChar (← IO.rand 0 15)
  return String.ofList digits

/-- A name for a run that no other run has. -/
def newRunId : IO String := do
  return "-".intercalate (← [8, 4, 4, 4, 12].mapM randomDigits)

def usageText : String :=
  "Usage: classdelta diff --previous <DIR> --next <DIR> [--format text|json]\n" ++
    "         [--min-severity <LEVEL>] [--include <PREFIX>]... [--exclude <PREFIX>]...\n" ++
    "         [--config <FILE>]\n" ++
    "       classdelta keys [--plain]"

def run (arguments : List String) : IO Outcome := do
  match Command.ofArguments? arguments with
  | none =>
      IO.eprintln usageText
      return Outcome.usage
  | some (.keys isPlain) => return Outcome.topics isPlain
  | some (.diff options) =>
      return Outcome.ofDiff (← newRunId) options (← readSurroundings options)

end JvmDiff.Program

/-- Runs the program and writes its result. -/
def main (arguments : List String) : IO UInt32 := do
  let outcome ← JvmDiff.Program.run arguments
  IO.print outcome.output
  if let some failure := outcome.failure then
    IO.eprintln failure
  return UInt32.ofNat outcome.exitCode
