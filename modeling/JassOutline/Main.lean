import JassOutline.CommandLine.Run

/-!
# The program

`main` looks at what stands at the paths that a command line names, runs the command on what it
found, and writes what the command leaves behind. What to look at and what to write is decided by
`CommandLine.Request` and `CommandLine.run`. The surroundings decide how the standard error looks:
the environment names what to log and tells whether there are colors.
-/

namespace JassOutline.CommandLine

/-- Why looking at a path failed. -/
def ReadError.ofSystem : IO.Error → ReadError
  | .noFileOrDirectory .. => .notFound
  | .inappropriateType .. => .notDirectory
  | .permissionDenied .. => .denied
  | .invalidArgument _ 36 _ => .nameTooLong
  | e => .other e.toString

/-- Looks at all that is in a directory. Of files that are no tests only the names are read. -/
partial def lookInside (directory : IO.FS.DirEntry) : IO FileTree := do
  let entries ← directory.path.readDir
  let trees ← entries.toList.mapM fun entry => do
    if ← entry.path.isDir then return (entry.fileName, ← lookInside entry)
    else if isTestName entry.fileName then
      return (entry.fileName, .file (← IO.FS.readBinFile entry.path))
    else return (entry.fileName, .file .empty)
  return .directory trees

/-- Looks at what stands at a path, and inside of it if it is a directory and this is asked for. -/
def lookAt (path : String) (inside : Bool) : IO (Except ReadError FileTree) := do
  if path.isEmpty then return .error .notFound
  let entry : IO.FS.DirEntry := ⟨".", path⟩
  try
    if ← entry.path.isDir then
      return .ok (← if inside then lookInside entry else pure (.directory []))
    else return .ok (.file (← IO.FS.readBinFile entry.path))
  catch e => return .error (.ofSystem e)

/-- Looks at what a request asks for. -/
def lookFor (request : Request) : IO Disk := do
  let files ← request.filePaths.mapM fun path => do return (path, ← lookAt path false)
  let tests ← request.testPaths.mapM fun path => do return (path, ← lookAt path true)
  return ⟨fun path => ((tests ++ files).lookup path).getD (.error .notFound)⟩

/-- Which entries a level of the log lets through. -/
def logsOfLevel? : String → Option (LogEntry → Bool)
  | "trace" | "debug" => some fun _ => true
  | "info" | "warn" => some fun entry => entry.level == .warning
  | "error" | "off" => some fun _ => false
  | _ => none

/-- The text in bold, with the escapes of a terminal. -/
def paintEscapes (color : Option Color) (text : String) : String :=
  let code :=
    match color with
    | none => ""
    | some .green => "\x1b[32m"
    | some .red => "\x1b[31m"
  s!"\x1b[0m\x1b[1m{code}{text}\x1b[0m"

/-- Looks at the environment for what it says about the standard error. The log is written without
times and reports are written without colors. -/
def lookAtConsole : IO Console := do
  let terminal := (← IO.getEnv "TERM").getD "dumb"
  return {
    logs? := (← IO.getEnv "RUST_LOG").bind (logsOfLevel? ·.toLower)
    logLine := LogEntry.line
    hasColors := terminal != "dumb" && (← IO.getEnv "NO_COLOR").isNone
    paint := paintEscapes
    paintReport := Report.render }

/-- Runs the command that the words ask for and gives the code it ends with. -/
def execute (words : List String) : IO UInt32 := do
  let disk ←
    match readArguments words with
    | .ok request => lookFor request
    | .error _ => pure ⟨fun _ => .error .notFound⟩
  let console ← lookAtConsole
  let outcome := run disk words
  (← IO.getStdout).putStr outcome.output
  (← IO.getStderr).putStr (outcome.errorsOn console)
  return outcome.exitCode.toUInt32

end JassOutline.CommandLine

/-- The program. -/
def main (words : List String) : IO UInt32 :=
  JassOutline.CommandLine.execute words
