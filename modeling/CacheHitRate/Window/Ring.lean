import CacheHitRate.Window.Sums
import CacheHitRate.Window.Span
/-!
The minute ring: per-minute sums of the last minutes in a fixed circle of slots. A sample of
minute `t` goes to slot `t mod n`; each slot is tagged with the minute its sums belong to, and
a slot tagged with another minute is reset before it takes the sample, so a write never sweeps.
A range sum adds the slots whose tag lies in the range.
-/
namespace CacheHitRate

/-- The tag of a slot that never held data, below any real minute. -/
def emptyMinute : Int := -(Int.pow 2 63)

structure Bucket where
  minute : Int := emptyMinute
  sums : Sums := {}
  deriving DecidableEq, Repr, Inhabited

/-- Adds a sample to a bucket, resetting it first when it holds another minute. -/
def Bucket.add (b : Bucket) (s : Sample) : Bucket :=
  ⟨s.minute, (if b.minute = s.minute then b.sums else {}) + Sums.ofSample s⟩

structure Ring where
  buckets : List Bucket
  deriving Repr

namespace Ring

/-- Slots of a group's ring: one per minute of the longest window. -/
def windowMinutes : Nat := 60

def create (size : Nat) : Ring := ⟨List.replicate size {}⟩

def size (r : Ring) : Nat := r.buckets.length

/-- The slot of a minute in a ring of `n` slots. -/
def slotOf (n : Nat) (minute : Int) : Nat := (minute % (n : Int)).toNat

/-- Adds a sample to its slot; a ring without slots is left as it is. -/
def insert (r : Ring) (s : Sample) : Ring :=
  ⟨r.buckets.modify (slotOf r.size s.minute) (·.add s)⟩

/-- Adds a sample to its slot; a ring without slots has no slot for it. -/
def add (r : Ring) (s : Sample) : Except ArithError Ring :=
  if r.size = 0 then .error .moduloByZero else .ok (r.insert s)

/-- Sum of the slots tagged with a minute of the span. -/
def sumRange (r : Ring) (span : Span) : Sums :=
  r.buckets.foldl (fun acc b => if span.contains b.minute then acc + b.sums else acc) {}

/-- Changes the sums of one slot, whatever minute it holds. -/
def modifySlot (r : Ring) (slot : Nat) (f : Sums → Sums) : Ring :=
  ⟨r.buckets.modify slot fun b => { b with sums := f b.sums }⟩

@[simp] theorem size_insert (r : Ring) (s : Sample) : (r.insert s).size = r.size := by
  simp [insert, size]

end Ring

end CacheHitRate
