import CacheHitRate.Text.Basic
/-!
Requested models of requests in flight, by trace id. A request start records its model and the
time it was seen; the completion takes the model once. Entries keep the order in which their
trace was first recorded, a later record of the same trace replacing the model and time in
place. Starts that never complete are evicted by age.
-/
namespace CacheHitRate

/-- How long an unmatched request start is kept, in milliseconds. -/
def traceModelTtlMs : Int := 10 * 60000

structure TraceEntry where
  model : Text
  seenAt : Int
  deriving DecidableEq, Repr

structure TraceModels where
  entries : List (Text × TraceEntry) := []
  deriving Repr

namespace TraceModels

def size (m : TraceModels) : Nat := m.entries.length

def record (m : TraceModels) (trace : Text) (model : Text) (now : Int) : TraceModels :=
  let e : TraceEntry := ⟨model, now⟩
  if m.entries.any (·.1 = trace) then
    ⟨m.entries.map fun p => if p.1 = trace then (trace, e) else p⟩
  else ⟨m.entries ++ [(trace, e)]⟩

/-- The model recorded for a trace, and the entries without it. -/
def take (m : TraceModels) (trace : Text) : Option Text × TraceModels :=
  ((m.entries.lookup trace).map (·.model), ⟨m.entries.filter (·.1 ≠ trace)⟩)

/-- Removes the entries seen before `cutoff`; gives how many it removed. -/
def evictBefore (m : TraceModels) (cutoff : Int) : Nat × TraceModels :=
  let kept := m.entries.filter fun p => !(p.2.seenAt < cutoff)
  (m.size - kept.length, ⟨kept⟩)

def clear (_ : TraceModels) : TraceModels := {}

theorem size_clear (m : TraceModels) : m.clear.size = 0 := rfl

end TraceModels

end CacheHitRate
