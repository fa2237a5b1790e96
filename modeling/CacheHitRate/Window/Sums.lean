import CacheHitRate.Sample
import CacheHitRate.Number.Quantity
/-!
Window sums: the four counters of a range of minutes, and the rates derived from them. The
windows add integer samples, so their sums are integers; the rules take the counters as
quantities, which a caller may also give as binary64 values. Each rate is a quotient, NaN when
its denominator is not positive (a NaN denominator divides), and an error when the quotient is
beyond the binary64 range.
-/
namespace CacheHitRate

structure Sums where
  denomTokens : Int := 0
  cacheReadTokens : Int := 0
  cacheCreateTokens : Int := 0
  successRequests : Int := 0
  deriving DecidableEq, Repr, Inhabited

namespace Sums

instance : Add Sums :=
  ⟨fun a b => ⟨a.denomTokens + b.denomTokens, a.cacheReadTokens + b.cacheReadTokens,
    a.cacheCreateTokens + b.cacheCreateTokens, a.successRequests + b.successRequests⟩⟩

instance : Zero Sums := ⟨{}⟩

def ofSample (s : Sample) : Sums :=
  ⟨s.denomTokens, s.cacheReadTokens, s.cacheCreateTokens, s.successRequest⟩

@[simp] theorem add_denomTokens (a b : Sums) :
    (a + b).denomTokens = a.denomTokens + b.denomTokens := rfl
@[simp] theorem add_cacheReadTokens (a b : Sums) :
    (a + b).cacheReadTokens = a.cacheReadTokens + b.cacheReadTokens := rfl
@[simp] theorem add_cacheCreateTokens (a b : Sums) :
    (a + b).cacheCreateTokens = a.cacheCreateTokens + b.cacheCreateTokens := rfl
@[simp] theorem add_successRequests (a b : Sums) :
    (a + b).successRequests = a.successRequests + b.successRequests := rfl

end Sums

/-- The four counters of a window as quantities. -/
structure Counts where
  denomTokens : Quantity := .int 0
  cacheReadTokens : Quantity := .int 0
  cacheCreateTokens : Quantity := .int 0
  successRequests : Quantity := .int 0

def Sums.counts (s : Sums) : Counts :=
  ⟨.int s.denomTokens, .int s.cacheReadTokens, .int s.cacheCreateTokens, .int s.successRequests⟩

namespace Counts

/-- `num / den`, NaN when `den ≤ 0`. -/
def rate (num den : Quantity) : Except ArithError Float :=
  if den.le (.int 0) then .ok Binary64.nan else num.div den

def hitRate (c : Counts) : Except ArithError Float := rate c.cacheReadTokens c.denomTokens

/-- Cache-creation tokens per denominator token. -/
def createShare (c : Counts) : Except ArithError Float := rate c.cacheCreateTokens c.denomTokens

/-- Cache-creation tokens per cache-read token. -/
def createReadRatio (c : Counts) : Except ArithError Float :=
  rate c.cacheCreateTokens c.cacheReadTokens

theorem rate_of_le_zero (num den : Quantity) (h : den.le (.int 0) = true) :
    rate num den = .ok Binary64.nan := by
  simp [rate, h]

end Counts

end CacheHitRate
