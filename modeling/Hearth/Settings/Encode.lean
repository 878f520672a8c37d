import Hearth.Settings
import Hearth.Yaml.Json

/-!
# Settings in JSON

All settings with their values, under the keys that they have in a file of settings.
-/

namespace Hearth

/-- A number that may be missing. -/
def Json.ofNat? : Option Nat → Json
  | some n => .ofNat n
  | none => .null

/-- How attempts to connect are put off. -/
def Link.BackoffConfig.toJson (c : BackoffConfig) : Json :=
  .ofFields [("initial", .ofFloat c.initial), ("factor", .ofFloat c.factor),
    ("max", .ofFloat c.max), ("jitter", .ofFloat c.jitter),
    ("max_retries", .ofNat? (c.maxRetries.map UInt32.toNat))]

/-- What queues are set up with. -/
def Link.Config.toJson (c : Config) : Json :=
  .ofFields [("ondemand", .bool c.ondemand), ("max_open", .ofNat? c.maxOpen),
    ("max_send", .ofNat? c.maxSend), ("channel_capacity", .ofNat c.capacity),
    ("connect_timeout", .ofFloat c.connectTimeout), ("backoff", c.backoff.toJson)]

/-- All settings. -/
def Settings.toJson (s : Settings) : Json :=
  .ofFields [("log_level", .str s.logLevel.name), ("event_log_level", .str s.eventLogLevel.name),
    ("priorities", .ofFields [("min", .int s.bands.low.toInt), ("max", .int s.bands.high.toInt)]),
    ("modules", .arr (s.modules.map .str)), ("scripts", .arr (s.scripts.map .str)),
    ("state_file", .ofText? s.stateFile), ("queue", s.queue.toJson)]

end Hearth
