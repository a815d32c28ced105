import Recast.Command.Run
import Std.Time.Format

/-!
# The command

`main` answers the arguments of the command line. What a run does is decided by `run`; here the
files that an order names are read into a `Directory`, and the files that have changed in it are
written back.
-/

namespace Recast.Main

/-- The route that names lead along. -/
def routeOf (start : Route) (names : List Text) : Route :=
  names.foldl (fun route name => if name = aboveName then Directory.above route
    else route ++ [name]) start

/-- The folders on the way to a path and what it leads to, each with its route and its own path. -/
def waypoints (path : Text) : List (Route × Text) :=
  let names := Path.namesOf path
  (List.range names.length).map fun n =>
    let way := names.take (n + 1)
    (routeOf (Directory.origin path) way, Path.text ⟨Path.rootOf path, way⟩)

/-- What lies at a path. -/
def probe (path : String) : IO (Option Entry) := do
  try
    let real ← IO.FS.realPath path
    if ← real.isDir then return some .folder
    else return some (.file (← IO.FS.readBinFile real).toList)
  catch _ => return none

/-- The part of the file system that an order names. -/
def gather (paths : List Text) : IO Directory := do
  let mut directory : Directory := []
  for (route, path) in paths.flatMap waypoints do
    if let some entry ← probe (String.ofList path) then
      directory := directory.put route entry
  return directory

/-- The paths that an order names. -/
def paths (order : Order) : List Text :=
  [standardConfig, order.input] ++ order.config?.toList ++ order.output?.toList ++
    order.logDirectory?.toList

/-- The path of a route. -/
def pathOf (route : Route) : String :=
  match route with
  | [] => "."
  | first :: rest =>
    String.ofList (if first = rootName then '/' :: joinWith ['/'] rest
      else joinWith ['/'] (first :: rest))

/-- Writes back what a run has changed. -/
def store (before after : Directory) : IO Unit := do
  for (route, entry) in after do
    if entry = .folder && before.get? route = none then IO.FS.createDirAll (pathOf route)
  for (route, content) in after.changedSince before do
    IO.FS.writeBinFile (pathOf route) ⟨content.toArray⟩

/-- Reads standard input to its end. -/
partial def readAll (input : IO.FS.Stream) (read : ByteArray) : IO ByteArray := do
  let more ← input.read 65536
  if more.isEmpty then return read else readAll input (read ++ more)

/-- The time of the run. -/
def now : IO LogTime := do
  let time ← Std.Time.PlainDateTime.now
  return ⟨(time.format "uuuuMMdd_HHmmss").toList, (time.format "uuuu-MM-dd HH:mm:ss,SSS").toList ++
    [' ']⟩

/-- Carries out an order on the file system. -/
def execute (order : Order) : IO UInt32 := do
  let directory ← gather (paths order)
  let input ← if order.input = ['-'] then readAll (← IO.getStdin) .empty else pure .empty
  match decode input.toList with
  | .error fault =>
    IO.eprintln (String.ofList fault.message)
    return 1
  | .ok stdin =>
    let result := run order (← now) stdin directory
    IO.print (String.ofList result.stdout)
    IO.eprint (String.ofList result.stderr)
    store directory result.directory
    return result.exitCode.toUInt32

/-- How the command is used. -/
def usage : String :=
  "Usage: react2horizon [OPTIONS] INPUT\n\n" ++
  "Options:\n" ++
  "  -o, --output FILE        Output file (default: <input stem>.horizon.ts beside the input)\n" ++
  "  --stdout                 Print converted code to stdout instead of writing a file\n" ++
  "  --json                   Print the full conversion result as JSON\n" ++
  "  --config PATH            Configuration file (default: .react2horizon.yaml if present)\n" ++
  "  --logdir TEXT            Directory for log files (creates timestamped log file)\n" ++
  "  -v, --verbosity INTEGER  Verbosity level: 0=summary, 1=info, 2=debug\n" ++
  "  --no-color               Disable colored output\n" ++
  "  -V, --version            Show version and exit\n" ++
  "  --help                   Show this message and exit\n"

end Recast.Main

/-- Answers the arguments of the command line. -/
def main (args : List String) : IO UInt32 := do
  match Recast.Request.ofArguments (args.map String.toList) with
  | .help =>
    IO.print Recast.Main.usage
    return 0
  | .misuse =>
    IO.eprint Recast.Main.usage
    return 2
  | .version =>
    IO.print (String.ofList Recast.versionText)
    return 0
  | .convert order => Recast.Main.execute order
