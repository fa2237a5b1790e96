import CacheHitRate.Config
import CacheHitRate.Number.Decimal
/-!
Command-line options. Long options may be abbreviated to any unambiguous prefix and take their
value either after `=` or as the next argument; `-h` may be followed by more `h`s, directly or
after `=`, each asking for help again.
Reading goes in three passes that fix which problem wins:

- every argument is classified first, so an ambiguous prefix is reported before anything else;
- options then act in order: help stops reading (exit 0), and a missing or invalid value, or
  text after `-h` that is not all `h`s, stops it with a usage error (exit 2); a later occurrence
  of an option overrides an earlier one; a value of `--` after `=` is dropped, which leaves the
  setting empty rather than invalid (`--` as the next argument ends the options instead, so the
  value is missing);
- a positional argument, `--`, or an unknown option is a usage error once all options have
  acted.

An argument is positional when it is empty, does not start with `-`, is `-` alone, looks like a
negative number, or holds a space; the timeout is read by the float grammar.
-/
namespace CacheHitRate.Options

/-- What an option sets. -/
inductive Setting where
  | listenAddress
  | eventsFile
  | noticeTimeout
  | logLevel
  | logFormat
  deriving DecidableEq

inductive Action where
  | help
  | set (s : Setting)
  deriving DecidableEq

def table : List (String × Action) :=
  [("-h", .help), ("--help", .help), ("--web.listen-address", .set .listenAddress),
   ("--events.file", .set .eventsFile), ("--notice.timeout", .set .noticeTimeout),
   ("--log.level", .set .logLevel), ("--log.format", .set .logFormat)]

def logLevels : List String := ["debug", "info", "warning", "error"]

def logFormats : List String := ["console", "json"]

/-- How reading the command line ends without a configuration. -/
inductive Exit where
  | help
  | usage
  deriving DecidableEq, Repr

def Exit.code : Exit → Nat
  | .help => 0
  | .usage => 2

/-- A classified argument. An option may carry an argument written in the same string: after
`=`, or right after a one-letter option. -/
inductive Arg where
  | positional
  | option (a : Action) (long : Bool) (attached : Option Text)
  | unknown

def dash : Nat := 45

def lookup (name : Text) : Option Action :=
  (table.find? fun p => Text.ofString p.1 = name).map (·.2)

/-- The text before the first `=` and, if there is one, the text after it. -/
def partitionEq (t : Text) : Text × Option Text :=
  match t.points.idxOf? 61 with
  | some i => (t.take i, some (t.drop (i + 1)))
  | none => (t, none)

/-- Whether the argument looks like a negative number: a minus sign and decimal digits of any
script, with at most one point followed by digits; a final line feed is allowed. -/
def looksNegative (t : Text) : Bool :=
  match t.points with
  | 45 :: rest =>
    let body := if rest.getLast? = some 10 then rest.dropLast else rest
    let isD (c : Nat) : Bool := (Text.digitValue? c).isSome
    let whole := body.takeWhile isD
    match body.dropWhile isD with
    | [] => !whole.isEmpty
    | 46 :: frac => !frac.isEmpty && frac.all isD
    | _ => false
  | _ => false

/-- The options an abbreviated argument may stand for. -/
def candidates (t : Text) : List Arg :=
  match t.points with
  | 45 :: 45 :: _ =>
    let (pre, attached) := partitionEq t
    (table.filter fun p => (Text.ofString p.1).startsWith pre).map fun p =>
      .option p.2 true attached
  | _ =>
    table.filterMap fun p =>
      let name := Text.ofString p.1
      if name = t.take 2 then some (.option p.2 false (some (t.drop 2)))
      else if name.startsWith t then some (.option p.2 (name.startsWith (Text.ofString "--")) none)
      else none

/-- Classifies one argument; an ambiguous abbreviation is a usage error. -/
def classify (t : Text) : Except Exit Arg :=
  if t.points.head? ≠ some dash then .ok .positional
  else match lookup t with
  | some a => .ok (.option a (t.startsWith (Text.ofString "--")) none)
  | none =>
    if t.length = 1 then .ok .positional
    else
      let (pre, attached) := partitionEq t
      match attached, lookup pre with
      | some v, some a => .ok (.option a (pre.startsWith (Text.ofString "--")) (some v))
      | _, _ =>
        match candidates t with
        | [c] => .ok c
        | _ :: _ :: _ => .error .usage
        | [] =>
          if looksNegative t || t.points.contains 32 then .ok .positional else .ok .unknown

/-- Classifies every argument; after `--` all are positional. -/
def classifyAll : List Text → Except Exit (List (Arg × Text))
  | [] => .ok []
  | t :: rest =>
    if t = Text.ofString "--" then .ok ((.positional, t) :: rest.map (.positional, ·))
    else do
      let a ← classify t
      let more ← classifyAll rest
      return (a, t) :: more

/-- Sets one value, checking choices and the timeout's grammar. -/
def apply (c : Config) (s : Setting) (v : Text) : Except Exit Config :=
  let oneOf (xs : List String) := xs.any fun x => Text.ofString x = v
  match s with
  | .listenAddress => .ok { c with listenAddress := some v }
  | .eventsFile => .ok { c with eventsFile := some v }
  | .noticeTimeout =>
    match Decimal.readFloat? v with
    | some x => .ok { c with noticeTimeout := some x }
    | none => .error .usage
  | .logLevel => if oneOf logLevels then .ok { c with logLevel := some v } else .error .usage
  | .logFormat => if oneOf logFormats then .ok { c with logFormat := some v } else .error .usage

/-- Empties one setting: its option's only argument was `--`, which reading drops, so nothing is
left to convert or check. -/
def clear (c : Config) : Setting → Config
  | .listenAddress => { c with listenAddress := none }
  | .eventsFile => { c with eventsFile := none }
  | .noticeTimeout => { c with noticeTimeout := none }
  | .logLevel => { c with logLevel := none }
  | .logFormat => { c with logFormat := none }

/-- Sets one value written in the option's own argument after `=`; `--` there empties the
setting. -/
def applyAttached (c : Config) (s : Setting) (v : Text) : Except Exit Config :=
  if v = Text.ofString "--" then .ok (clear c s) else apply c s v

/-- Help written with text after `-h`: one or more `h`s ask for help again, anything else
(also nothing after `=`) is a usage error. -/
def helpWithFlags (tail : Text) : Except Exit Config :=
  if !tail.isEmpty && tail.points.all (· = 104) then .error .help else .error .usage

/-- Lets the options act in order; `stray` tells whether an argument that no option takes has
been seen. -/
def run (c : Config) (stray : Bool) : List (Arg × Text) → Except Exit Config
  | [] => if stray then .error .usage else .ok c
  | (.positional, _) :: rest => run c true rest
  | (.unknown, _) :: rest => run c true rest
  | (.option .help long attached, _) :: _ =>
    match attached with
    | none => .error .help
    | some tail => if long then .error .usage else helpWithFlags tail
  | (.option (.set s) _ attached, _) :: rest =>
    match attached with
    | some v => do run (← applyAttached c s v) stray rest
    | none =>
      match rest with
      | (.positional, v) :: rest' => if v = Text.ofString "--" then .error .usage
        else do run (← apply c s v) stray rest'
      | _ => .error .usage

/-- Reads the command line over a configuration. -/
def parse (argv : List Text) (c : Config) : Except Exit Config := do
  run c false (← classifyAll argv)

end CacheHitRate.Options
