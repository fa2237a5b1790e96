import CacheHitRate.Event
import CacheHitRate.Normalize
/-!
Samples: one successful request, normalised, at the minute it was seen. A completion becomes a
sample when its status is 2xx without an error code and its hit-rate denominator is positive.
The denominator is input plus cache-read tokens; for CLIs whose input already includes the
reads, the reads are first taken out of the input (`DenominatorPolicy`).
-/
namespace CacheHitRate

def minuteMs : Int := 60000

/-- The minute of a timestamp in milliseconds, rounded down. -/
def minuteOf (ms : Int) : Int := Int.fdiv ms minuteMs

structure Sample where
  minute : Int
  denomTokens : Int
  cacheReadTokens : Int
  cacheCreateTokens : Int
  tsMs : Int := 0
  successRequest : Int := 1
  deriving DecidableEq, Repr, Inhabited

/-- The CLIs whose reported input already includes the cache-read tokens. -/
structure DenominatorPolicy where
  subtractClis : List Text

namespace DenominatorPolicy

def default : DenominatorPolicy := ⟨[Text.ofString "codex"]⟩

/-- The input tokens not read from the cache. -/
def effectiveInput (p : DenominatorPolicy) (cli : Text) (input read : Int) : Int :=
  if p.subtractClis.contains cli then max (input - read) 0 else input

def denominator (p : DenominatorPolicy) (cli : Text) (input read : Int) : Int :=
  max (p.effectiveInput cli input read + read) 0

end DenominatorPolicy

namespace CompletionEvent

/-- A 2xx status and no error code (an empty code counts as none). -/
def isSuccess (e : CompletionEvent) : Bool :=
  match e.status with
  | some s => decide (200 ≤ s ∧ s < 300) && (e.errorCode.map Text.isEmpty).getD true
  | none => false

/-- Cache-creation tokens: the 5-minute and 1-hour tiers together when either is reported,
the combined field otherwise. -/
def createTokens (e : CompletionEvent) : Except ArithError Nat := do
  let short ← Normalize.tokenCount e.cacheCreation5mTokens
  let long ← Normalize.tokenCount e.cacheCreation1hTokens
  if short + long > 0 then return short + long
  Normalize.tokenCount e.cacheCreationTokens

/-- The sample of a completion seen at `now`, `none` for a failed request or one without a
denominator. -/
def sample? (p : DenominatorPolicy) (e : CompletionEvent) (now : Int) :
    Except ArithError (Option Sample) := do
  if !e.isSuccess then return none
  let input ← Normalize.tokenCount e.inputTokens
  let read ← Normalize.tokenCount e.cacheReadTokens
  let denom := p.denominator e.cliKey input read
  if denom ≤ 0 then return none
  let create ← e.createTokens
  return some { minute := minuteOf now, denomTokens := denom, cacheReadTokens := read,
                cacheCreateTokens := create, tsMs := now }

end CompletionEvent

/-- The attempt that served the request: the last successful one, else the last one. -/
def finalAttempt (attempts : List Attempt) : Option Attempt :=
  (attempts.reverse.find? fun a => a.outcome = Text.ofString "success").orElse
    fun _ => attempts.getLast?

end CacheHitRate
