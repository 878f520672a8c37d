import Hearth.Decimal.Whole
import Hearth.Settings
import Hearth.Yaml.Basic

/-!
# Settings written in YAML

Every setting may be left out. A section without a value counts as empty, a value that may be
missing is missing when it is null. Tags do not matter, except that a level may be written as a tag
without a value. At the top every key has to be known; inside the sections for queues and
priorities, keys that are not known do not matter.
-/

namespace Hearth.Settings

open Yaml (Value)

/-- A text. -/
def text? (v : Value) : Option String :=
  match v.untagged with
  | .text s => some s
  | _ => none

/-- A truth value. -/
def truth? (v : Value) : Option Bool :=
  match v.untagged with
  | .bool b => some b
  | _ => none

/-- A whole number. -/
def whole? (v : Value) : Option Int :=
  match v.untagged with
  | .int n => some n
  | _ => none

/-- A natural number of so many bits. -/
def natural? (bits : Nat) (v : Value) : Option Nat := do
  let n ← whole? v
  if 0 ≤ n && n < (1 <<< bits : Nat) then some n.toNat else none

/-- A number as a double. -/
def double? (v : Value) : Option Float :=
  match v.untagged with
  | .int n => some (Float.ofInt n)
  | .float x => some x
  | _ => none

/-- The items of a list. -/
def items? (v : Value) : Option (List Value) :=
  match v.untagged with
  | .list items => some items
  | .null => some []
  | _ => none

/-- A value that may be missing. -/
def maybe? {α : Type} (decode : Value → Option α) : Value → Option (Option α)
  | .null => some none
  | v => (decode v).map some

/-- A level by its name. -/
def level? : Value → Option Level
  | .text s => Level.ofName? s
  | .tagged tag .null => Level.ofName? (String.ofList (tag.toList.drop 1))
  | _ => none

/-- The fields of a section, each with its key. -/
def fields? (v : Value) : Option (List (String × Value)) :=
  match v.untagged with
  | .map entries => entries.mapM fun (k, v) => do return (← text? k, v)
  | .null => some []
  | _ => none

/-- The value of a field, decoded, or what stands for it if it is left out. No field may occur
twice. -/
def field {α : Type} (fields : List (String × Value)) (key : String) (decode : Value → Option α)
    (default? : Option α) : Option α :=
  match fields.filter (·.1 == key) with
  | [] => default?
  | [(_, v)] => decode v
  | _ => none

/-- How attempts to connect are put off. -/
def backoff? (v : Value) : Option Link.BackoffConfig := do
  let fields ← fields? v
  let d := Link.BackoffConfig.standard
  return {
    initial := ← field fields "initial" double? d.initial
    factor := ← field fields "factor" double? d.factor
    max := ← field fields "max" double? d.max
    jitter := ← field fields "jitter" double? d.jitter
    maxRetries :=
      ← field fields "max_retries" (maybe? fun v => (natural? 32 v).map UInt32.ofNat)
        (some d.maxRetries) }

/-- What queues are set up with. -/
def queue? (v : Value) : Option Link.Config := do
  let fields ← fields? v
  let d := Link.Config.standard
  return {
    ondemand := ← field fields "ondemand" truth? d.ondemand
    maxOpen := ← field fields "max_open" (maybe? (natural? 64)) (some d.maxOpen)
    maxSend := ← field fields "max_send" (maybe? (natural? 64)) (some d.maxSend)
    capacity := ← field fields "channel_capacity" (natural? 64) d.capacity
    connectTimeout := ← field fields "connect_timeout" double? d.connectTimeout
    backoff := ← field fields "backoff" backoff? d.backoff }

/-- The ordinary band; both of its ends have to be given. -/
def bands? (v : Value) : Option Bands := do
  let fields ← fields? v
  let priority? (v : Value) : Option Int32 := whole? v >>= Decimal.toInt32?
  return ⟨← field fields "min" priority? none, ← field fields "max" priority? none⟩

/-- The keys at the top. -/
def knownKeys : List String :=
  ["log_level", "event_log_level", "priorities", "modules", "scripts", "state_file", "queue"]

/-- The settings in the fields of a document. -/
def ofFields? (fields : List (String × Value)) : Option Settings := do
  if fields.any fun (k, _) => !knownKeys.contains k then none
  let texts? (v : Value) : Option (List String) := do (← items? v).mapM text?
  let d := Settings.standard
  return {
    logLevel := ← field fields "log_level" level? d.logLevel
    eventLogLevel := ← field fields "event_log_level" level? d.eventLogLevel
    bands := ← field fields "priorities" bands? d.bands
    modules := ← field fields "modules" texts? d.modules
    scripts := ← field fields "scripts" texts? d.scripts
    stateFile := ← field fields "state_file" (maybe? text?) (some d.stateFile)
    queue := ← field fields "queue" queue? d.queue }

/-- The settings in a document, checked. A document without content gives the standard ones. -/
def ofYaml (v : Value) : Except Error Settings := do
  let settings ←
    match v with
    | .null => pure standard
    | .map _ =>
      match fields? v >>= ofFields? with
      | some settings => pure settings
      | none => throw .misfit
    | _ => throw (.badValue "root" "configuration must be a mapping")
  match settings.fault? with
  | some fault => throw (.invalid fault)
  | none => return settings

end Hearth.Settings
