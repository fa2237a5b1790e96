import CacheHitRate.Monitor.Feed
import CacheHitRate.Config.Options
import CacheHitRate.Json.Writer
import CacheHitRate.ListenAddress
/-!
The command line. It reads the configuration from the environment and the arguments, loads the
switch from the state file (on for the process when there is none), feeds the event stream
(standard input for `-`, a file otherwise) to the monitor line by line, and writes every notice
as a JSON line on standard output. The clock is the Unix wall clock in milliseconds. After each line the monitor runs its evaluation when one is
due. Notices count as delivered, unless the notice timeout is zero or less, or empty, in which
case no send starts: nothing is written and every notice counts as failed.

Before it reads anything the service checks its settings in the order it uses them: the log
level, the listen address, then the events file. A setting left empty by `--`, or a listen
address that does not parse, stops it with exit status 1.
-/
namespace CacheHitRate.Command

def usage : String :=
  "usage: cachewatch [-h] [--web.listen-address LISTEN_ADDRESS] [--events.file EVENTS_FILE]\n" ++
  "                  [--notice.timeout NOTICE_TIMEOUT]\n" ++
  "                  [--log.level {debug,info,warning,error}] [--log.format {console,json}]"

def environmentNames : List String :=
  ["CACHEWATCH_WEBHOOK_URL", "CACHEWATCH_STATE_FILE", "CACHEWATCH_SUPPORTED_CLIS",
   "CACHEWATCH_SUBTRACT_CACHE_READ_CLIS"]

def noticeLine (n : Notice) : String :=
  (Json.render (.obj [(Text.ofString "level", .str (Text.ofString n.level.text)),
    (Text.ofString "title", .str n.title), (Text.ofString "body", .str n.body)])).toString

/-- Why the service stops before it reads events, if it does: the settings are checked in the
order the service uses them. -/
def startupFault (c : Config) : Option String :=
  match c.logLevel, c.listenAddress, c.eventsFile with
  | none, _, _ => some "AttributeError: 'list' object has no attribute 'upper'"
  | _, none, _ => some "AttributeError: 'list' object has no attribute 'startswith'"
  | _, some a, e =>
    match ListenAddress.parse a, e with
    | .error err, _ => some ("ValueError: " ++ err.message.toString)
    | .ok _, none => some "TypeError: expected str, bytes or os.PathLike object, not list"
    | .ok _, some _ => none

def loadStore (path : String) : IO FlagStore := do
  if path.isEmpty then return .memory (.bool true)
  try
    let text ← IO.FS.readFile path
    return .file (some (Text.ofString text)) false
  catch _ => return .file none false

/-- Writes the state file when the stored text changed. -/
def saveStore (path : String) (before after : FlagStore) : IO Unit := do
  if path.isEmpty then return
  match before, after with
  | .file b _, .file (some t) _ => if b != some t then
      try IO.FS.writeFile path t.toString catch _ => pure ()
  | _, _ => pure ()

/-- The boot time the kernel reports, in milliseconds since the Unix epoch; zero where it
cannot be read. -/
def bootTimeMs : IO Int := do
  try
    let stat ← IO.FS.readFile "/proc/stat"
    match (stat.splitOn "\n").find? (·.startsWith "btime ") with
    | some line =>
      let digits := String.ofList ((line.toList.drop 6).filter Char.isDigit)
      return (digits.toNat?.getD 0 : Int) * 1000
    | none => return 0
  catch _ => return 0

/-- The Unix wall clock in milliseconds: the boot time and the time since boot. -/
def wallClockMs (boot : Int) : IO Int := do
  return boot + (← IO.monoMsNow)

/-- Feeds the stream to the monitor line by line; notices go to a sender whose sends are bounded
by `timeout`. -/
partial def feedLines (stream : IO.FS.Stream) (path : String) (timeout : SendTimeout)
    (boot : Int) (m : Monitor) : IO Monitor := do
  let line ← stream.getLine
  if line.isEmpty then return m
  let now ← wallClockMs boot
  let (m', _, notices) := m.handleStreamLine (Text.ofString line) now
  let (m', due) := m'.maybeEvaluate now
  let notices := notices ++ (match due with | .ok ns => ns | .error _ => [])
  let (m', sent) := m'.deliver notices timeout true
  for n in sent do
    IO.println (noticeLine n)
  (← IO.getStdout).flush
  saveStore path m.store m'.store
  feedLines stream path timeout boot m'

end CacheHitRate.Command

open CacheHitRate in
def main (args : List String) : IO UInt32 := do
  let mut env : List (String × Text) := []
  for v in Command.environmentNames do
    if let some value ← IO.getEnv v then env := env ++ [(v, Text.ofString value)]
  let lookup (k : String) : Option Text := env.lookup k
  match Options.parse (args.map Text.ofString) (Config.fromEnv lookup) with
  | .error .help =>
    IO.println Command.usage
    return 0
  | .error .usage =>
    IO.eprintln Command.usage
    return 2
  | .ok c =>
    match Command.startupFault c, c.eventsFile with
    | some fault, _ =>
      IO.eprintln fault
      return 1
    | none, none => return 1
    | none, some events =>
      let stream ← if events = Text.ofString "-" then IO.getStdin
        else IO.FS.Stream.ofHandle <$> IO.FS.Handle.mk events.toString .read
      let path := c.stateFile.toString
      let store ← Command.loadStore path
      let settings : Settings :=
        { supportedClis := c.supportedClis, policy := ⟨c.subtractCacheReadClis⟩ }
      let boot ← Command.bootTimeMs
      let now ← Command.wallClockMs boot
      match ({ settings, store } : Monitor).start now with
      | .error e =>
        IO.eprintln e.message
        return 1
      | .ok m =>
        let timeout : SendTimeout := match c.noticeTimeout with
          | some x => .seconds (.float x)
          | none => .malformed
        let _ ← Command.feedLines stream path timeout boot m
        return 0
