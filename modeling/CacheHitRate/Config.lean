import CacheHitRate.Text.Basic
/-!
The service configuration. Defaults apply where nothing is set; four environment variables set
the webhook URL, the state file and the two CLI lists, a list being comma-separated names with
white space trimmed and empty names dropped. Notices go to the webhook exactly when its URL is
non-empty. The five settings the command line may set are `none` when their option was given
only `--`: reading drops that separator from an option's arguments and is left with nothing to
convert or check.
-/
namespace CacheHitRate

structure Config where
  listenAddress : Option Text := some (Text.ofString ":9186")
  eventsFile : Option Text := some (Text.ofString "-")
  noticeTimeout : Option Float := some 5.0
  logLevel : Option Text := some (Text.ofString "info")
  logFormat : Option Text := some (Text.ofString "console")
  webhookUrl : Text := Text.empty
  stateFile : Text := Text.empty
  supportedClis : List Text := [Text.ofString "claude", Text.ofString "codex"]
  subtractCacheReadClis : List Text := [Text.ofString "codex"]

namespace Config

/-- Names separated by commas, trimmed, empty ones dropped; repeats are kept. -/
def nameList (t : Text) : List Text :=
  ((t.splitOn 44).map Text.strip).filter fun n => !n.isEmpty

/-- The configuration from the environment, given as a lookup of variables. -/
def fromEnv (env : String → Option Text) : Config :=
  let c : Config := { webhookUrl := (env "CACHEWATCH_WEBHOOK_URL").getD Text.empty
                      stateFile := (env "CACHEWATCH_STATE_FILE").getD Text.empty }
  let c := match env "CACHEWATCH_SUPPORTED_CLIS" with
    | some v => { c with supportedClis := nameList v }
    | none => c
  match env "CACHEWATCH_SUBTRACT_CACHE_READ_CLIS" with
  | some v => { c with subtractCacheReadClis := nameList v }
  | none => c

def webhookEnabled (c : Config) : Bool := !c.webhookUrl.isEmpty

end Config

end CacheHitRate
