import CacheHitRate.Monitor
import CacheHitRate.Json.Reader
/-!
The event feed: JSON lines handed to the monitor. A line is trimmed; a blank line is skipped,
any other is counted. A line that is no JSON document, nests deeper than the reader's budget,
or whose document is no event, is counted as a parse error; a request start or completion goes
to the monitor. A line handed over on its own and a line read from a stream have different
budgets.
-/
namespace CacheHitRate

/-- What a line of the feed was. -/
inductive LineKind where
  | blank
  | malformed
  | event
  deriving DecidableEq, Repr

namespace Monitor

/-- The arrays and objects a line handed over on its own may have open at once. -/
def lineDepth : Nat := 991

/-- The arrays and objects a line read from a stream may have open at once. -/
def streamDepth : Nat := 980

/-- The event of a trimmed, non-blank line read with the nesting budget `limit`, `none` when
it is malformed. -/
def eventOfLine (limit : Nat) (t : Text) : Option Event :=
  match Json.read? limit t with
  | some v =>
    match Event.ofJson v with
    | .ok e => some e
    | .error _ => none
  | none => none

/-- Handles one line at time `now`, reading it with the nesting budget `limit`. -/
def handleLineWithin (limit : Nat) (m : Monitor) (line : Text) (now : Int) :
    Monitor × LineKind × List Notice :=
  let t := Text.strip line
  if t.isEmpty then (m, .blank, [])
  else
    match eventOfLine limit t with
    | none =>
      (m.withMetrics fun x => { x with ingestErrors := x.ingestErrors.bump (Text.ofString "parse") },
        .malformed, [])
    | some (.start e) => (m.ingestStart e now, .event, [])
    | some (.completion e) =>
      let (m, ns) := m.completion e now
      (m, .event, ns)

def handleLine (m : Monitor) (line : Text) (now : Int) : Monitor × LineKind × List Notice :=
  handleLineWithin lineDepth m line now

def handleStreamLine (m : Monitor) (line : Text) (now : Int) : Monitor × LineKind × List Notice :=
  handleLineWithin streamDepth m line now

/-- The lines of a stream, each with its line feed; a last line without one counts too. -/
def streamLines (t : Text) : List Text :=
  let pieces := t.splitOn 10
  let n := pieces.length
  (pieces.zipIdx.filterMap fun (p, i) =>
    if i + 1 < n then some (p ++ Text.ofString "\n")
    else if p.isEmpty then none else some p)

/-- Reads a whole stream at time `now`: the monitor, the number of counted lines, and the
notices in order. -/
def feed (m : Monitor) (text : Text) (now : Int) : Monitor × Nat × List Notice :=
  (streamLines text).foldl (fun (m, n, ns) line =>
    let (m, kind, more) := m.handleStreamLine line now
    (m, if kind = .blank then n else n + 1, ns ++ more)) (m, 0, [])

end Monitor

end CacheHitRate
