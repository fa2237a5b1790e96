import CacheHitRate.Json.Display
import CacheHitRate.Json.Numeric
/-!
Gateway events. A request start names the trace, the CLI and the requested model; a request
completion carries the status, an error code, the provider attempts and the raw token counts.
`Event.ofJson` reads a payload: the `type` member selects the kind, text members that are
false-like (absent, null, empty, zero) become empty text, and any other value its display text.
-/
namespace CacheHitRate

/-- One upstream provider attempt made while serving a request. -/
structure Attempt where
  providerId : Json
  providerName : Text
  outcome : Text
  status : Option Int
  deriving Inhabited

structure StartEvent where
  traceId : Text
  cliKey : Text
  requestedModel : Json

/-- The terminal state of a request. Token counts are kept raw. -/
structure CompletionEvent where
  traceId : Text
  cliKey : Text
  status : Option Int
  errorCode : Option Text
  attempts : List Attempt
  inputTokens : Json
  cacheReadTokens : Json
  cacheCreationTokens : Json
  cacheCreation5mTokens : Json
  cacheCreation1hTokens : Json

inductive Event where
  | start (e : StartEvent)
  | completion (e : CompletionEvent)

inductive EventError where
  | notObject
  | unknownType (type : Json)

namespace EventError

def message : EventError → Text
  | .notObject => Text.ofString "event payload must be an object"
  | .unknownType t => Text.ofString "unknown event type: " ++ ⟨Json.literal t⟩

end EventError

namespace Event

/-- A text member: empty for a false-like value, the display text otherwise. -/
def textOf (v : Json) : Text := if v.truthy then v.display else Text.empty

/-- A status: an integer read from the value, `none` for null, truth values and values that
hold no integer. -/
def statusOf : Json → Option Int
  | .null => none
  | .bool _ => none
  | v => v.toInt?

/-- An error code: `none` only for null. -/
def errorCodeOf : Json → Option Text
  | .null => none
  | v => some v.display

/-- The attempts listed in the value: the objects of a list, anything else skipped. -/
def attemptsOf : Json → List Attempt
  | .arr items => items.filterMap fun item =>
    if item.isObject then
      some { providerId := item.field "provider_id"
             providerName := textOf (item.field "provider_name")
             outcome := textOf (item.field "outcome")
             status := statusOf (item.field "status") }
    else none
  | _ => []

/-- Reads an event from its JSON payload. -/
def ofJson (payload : Json) : Except EventError Event :=
  if !payload.isObject then .error .notObject
  else
    let type := payload.field "type"
    let traceId := textOf (payload.field "trace_id")
    let cliKey := textOf (payload.field "cli_key")
    match type with
    | .str t =>
      if t = Text.ofString "request_start" then
        .ok (.start { traceId, cliKey, requestedModel := payload.field "requested_model" })
      else if t = Text.ofString "request_completion" then
        .ok (.completion
          { traceId, cliKey
            status := statusOf (payload.field "status")
            errorCode := errorCodeOf (payload.field "error_code")
            attempts := attemptsOf (payload.field "attempts")
            inputTokens := payload.field "input_tokens"
            cacheReadTokens := payload.field "cache_read_input_tokens"
            cacheCreationTokens := payload.field "cache_creation_input_tokens"
            cacheCreation5mTokens := payload.field "cache_creation_5m_input_tokens"
            cacheCreation1hTokens := payload.field "cache_creation_1h_input_tokens" })
      else .error (.unknownType type)
    | _ => .error (.unknownType type)

end Event

end CacheHitRate
