import CacheHitRate.Window.Ring
import CacheHitRate.Window.Buffer
/-!
Groups: the unit of statistics, one per CLI, provider id and model. A group keeps the minute
ring and the raw sample buffer of its traffic, the display name of its provider (the last one
seen), the minute of its last sample and the time of its last alert.
-/
namespace CacheHitRate

structure GroupKey where
  cliKey : Text
  providerId : Int
  model : Text
  deriving DecidableEq, Repr

/-- `cli:provider:model`. -/
def GroupKey.text (k : GroupKey) : Text :=
  k.cliKey ++ Text.ofString ":" ++ Text.ofInt k.providerId ++ Text.ofString ":" ++ k.model

structure Group where
  key : GroupKey
  providerName : Text
  lastSeenMinute : Int
  ring : Ring := Ring.create Ring.windowMinutes
  samples : Buffer := {}
  lastAlertAt : Option Int := none
  deriving Repr

/-- Records a sample: it becomes the last seen minute, enters the ring and the buffer, and the
buffer drops what is older than the retention. -/
def Group.record (g : Group) (s : Sample) : Group :=
  { g with
    lastSeenMinute := s.minute
    ring := g.ring.insert s
    samples := ((g.samples.append s).prune (s.minute - Buffer.retentionMinutes)).2 }

/-- Groups in the order they were created, each under its own key. -/
abbrev Groups := List Group

namespace Groups

def find? (gs : Groups) (k : GroupKey) : Option Group := List.find? (fun g => g.key = k) gs

/-- Changes the group stored under `k`, if any. -/
def modify (gs : Groups) (k : GroupKey) (f : Group → Group) : Groups :=
  gs.map fun g => if g.key = k then f g else g

end Groups

end CacheHitRate
