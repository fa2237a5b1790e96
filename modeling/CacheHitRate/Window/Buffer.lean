import CacheHitRate.Window.Sums
import CacheHitRate.Window.Span
/-!
The sample buffer: a group's raw samples in arrival order. Pruning drops samples from the
front while they are older than a bound, so a late sample stops it; a range sum adds the
samples whose minute lies in the range. The buffer is read only to audit the minute ring.
-/
namespace CacheHitRate

structure Buffer where
  samples : List Sample := []
  deriving Repr

namespace Buffer

/-- Minutes of samples kept after each record. -/
def retentionMinutes : Int := 75

def append (b : Buffer) (s : Sample) : Buffer := ⟨b.samples ++ [s]⟩

/-- The samples that pruning to `minMinute` drops: the longest prefix older than it. -/
def isOlder (minMinute : Int) (s : Sample) : Bool := decide (s.minute < minMinute)

/-- Drops the longest prefix of samples older than `minMinute`; gives how many it dropped. -/
def prune (b : Buffer) (minMinute : Int) : Nat × Buffer :=
  let kept := b.samples.dropWhile (isOlder minMinute)
  (b.samples.length - kept.length, ⟨kept⟩)

def sumRange (b : Buffer) (span : Span) : Sums :=
  b.samples.foldl (fun acc s => if span.contains s.minute then acc + Sums.ofSample s else acc) {}

theorem prune_samples (b : Buffer) (minMinute : Int) :
    (b.prune minMinute).2.samples = b.samples.dropWhile (isOlder minMinute) := rfl

end Buffer

end CacheHitRate
