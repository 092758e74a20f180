import ClusterScheduler.Json.Shape
import ClusterScheduler.Text.Basic

/-!
# Scheduler configuration

The configuration is a handful of keys of the cluster's configuration file. It is read either
from that file's `KEY="value"` lines (`Config.ofText`) or from a JSON record with the same keys
(`Config.shape`). `ConfigError` lists what makes a configuration or an inventory unusable; such
an error stops a scheduling round before any job is looked at.
-/

namespace ClusterScheduler

/-- The order in which waiting jobs are placed. -/
inductive JobPriority where
  /-- Submission order. -/
  | fifo
  /-- Ascending karma. -/
  | fairshare
  /-- Descending job priority. -/
  | priority
  deriving DecidableEq, Repr, Inhabited

namespace JobPriority

def key : JobPriority → String
  | .fifo => "FIFO"
  | .fairshare => "FAIRSHARE"
  | .priority => "PRIORITY"

def keys : List String := ["FIFO", "FAIRSHARE", "PRIORITY"]

def ofKey? : String → Option JobPriority
  | "FIFO" => some .fifo
  | "FAIRSHARE" => some .fairshare
  | "PRIORITY" => some .priority
  | _ => none

end JobPriority

/-- Why a configuration or a resource inventory cannot be used. -/
inductive ConfigError where
  /-- The configuration file exists but cannot be read. -/
  | unreadable (path reason : String)
  /-- A key has a value it cannot take. -/
  | invalidValue (key value : String)
  /-- A hierarchy label is a column of no resource. -/
  | unknownLabel (label : String)
  /-- A clause of the resource order is malformed. -/
  | invalidOrder (clause : String)
  /-- A resource id appears twice. -/
  | duplicateResource (id : Int)
  deriving DecidableEq, Repr

namespace ConfigError

def message : ConfigError → String
  | .unreadable p r => s!"Unable to read configuration file {p}: {r}"
  | .invalidValue k v => s!"Invalid value {Text.quote v} for configuration key {k}"
  | .unknownLabel l => s!"Hierarchy label {l} is not a column of any resource"
  | .invalidOrder c => s!"Invalid SCHEDULER_RESOURCE_ORDER clause: {Text.quote c}"
  | .duplicateResource i => s!"Resource {i} appears twice in the inventory"

end ConfigError

/-- The scheduler's keys of the configuration. -/
structure Config where
  /-- Seconds added to every walltime. -/
  securityTime : Int := 60
  /-- Comma separated resource columns used as hierarchy levels. -/
  hierarchyLabels : String := "resource_id,network_address"
  /-- `column [ASC|DESC], ...` clause numbering the resources. -/
  resourceOrder : String := "resource_id ASC"
  /-- Blank separated resource types that suspended jobs release. -/
  suspendableTypes : String := "default"
  cacheEnabled : Bool := true
  jobPriority : JobPriority := .fifo
  deriving DecidableEq, Repr, Inhabited

namespace JobPriority

/-- Reads the order from a configuration value: blanks around it are ignored and case does not
matter; `KARMA` is another name of `FAIRSHARE`. -/
def parse (value : String) : Except ConfigError JobPriority :=
  match String.ofList (Text.upper (Text.trim value.toList)) with
  | "FIFO" => .ok .fifo
  | "FAIRSHARE" => .ok .fairshare
  | "KARMA" => .ok .fairshare
  | "PRIORITY" => .ok .priority
  | _ => .error (.invalidValue "JOB_PRIORITY" value)

end JobPriority

namespace Config

def set (c : Config) (key value : String) : Except ConfigError Config :=
  let invalid : ConfigError := .invalidValue key value
  match key with
  | "SCHEDULER_JOB_SECURITY_TIME" =>
    match Word.i64.parse value.toList with
    | some t => if 0 ≤ t then .ok { c with securityTime := t } else .error invalid
    | none => .error invalid
  | "HIERARCHY_LABELS" => .ok { c with hierarchyLabels := value }
  | "SCHEDULER_RESOURCE_ORDER" => .ok { c with resourceOrder := value }
  | "SCHEDULER_AVAILABLE_SUSPENDED_RESOURCE_TYPE" => .ok { c with suspendableTypes := value }
  | "CACHE_ENABLED" =>
    match String.ofList (Text.lowerAscii value.toList) with
    | "yes" | "true" | "1" => .ok { c with cacheEnabled := true }
    | "no" | "false" | "0" => .ok { c with cacheEnabled := false }
    | _ => .error invalid
  | "JOB_PRIORITY" => do
    let p ← JobPriority.parse value
    pure { c with jobPriority := p }
  | _ => .ok c

/-- The key and value of a configuration line, if it sets one: blank lines and `#` comments
set nothing, nor does a line without `=`. Around the value, blanks are dropped, then double
quotes, then single quotes. -/
def lineSetting (line : List Char) : Option (String × String) :=
  let line := Text.trim line
  if line.isEmpty ∨ line.head? = some '#' then none
  else
    match Text.splitOnce '=' line with
    | some (k, v) =>
      let v := Text.trimChar '\'' (Text.trimChar '"' (Text.trim v))
      some (String.ofList (Text.trim k), String.ofList v)
    | none => none

/-- Reads a configuration file's text: every line that sets a key is applied in order, from
the defaults; the first bad value stops reading. -/
def ofText (text : String) : Except ConfigError Config :=
  (Text.lines text.toList).foldlM (fun c line =>
    match lineSetting line with
    | some (k, v) => c.set k v
    | none => .ok c) {}

/-- The hierarchy levels, outermost first: the comma separated labels, trimmed, empty ones
dropped. -/
def labelList (c : Config) : List String :=
  ((Text.splitOn ',' c.hierarchyLabels.toList).map Text.trim).filter (!·.isEmpty) |>.map String.ofList

def suspendableTypeList (c : Config) : List String :=
  (Text.words c.suspendableTypes.toList).map String.ofList

def shape : Json.Shape :=
  let d : Config := {}
  .record "Configuration" [
    ("SCHEDULER_JOB_SECURITY_TIME", .i64, some (.int d.securityTime)),
    ("HIERARCHY_LABELS", .string, some (.str d.hierarchyLabels)),
    ("SCHEDULER_RESOURCE_ORDER", .string, some (.str d.resourceOrder)),
    ("SCHEDULER_AVAILABLE_SUSPENDED_RESOURCE_TYPE", .string, some (.str d.suspendableTypes)),
    ("CACHE_ENABLED", .bool, some (.bool d.cacheEnabled)),
    ("JOB_PRIORITY", .names JobPriority.keys, some (.str d.jobPriority.key))]

def ofRecord (j : Json) : Config :=
  let d : Config := {}
  { securityTime := ((j.get? "SCHEDULER_JOB_SECURITY_TIME").bind Json.asInt?).getD d.securityTime
    hierarchyLabels := ((j.get? "HIERARCHY_LABELS").bind Json.asStr?).getD d.hierarchyLabels
    resourceOrder := ((j.get? "SCHEDULER_RESOURCE_ORDER").bind Json.asStr?).getD d.resourceOrder
    suspendableTypes :=
      ((j.get? "SCHEDULER_AVAILABLE_SUSPENDED_RESOURCE_TYPE").bind Json.asStr?).getD d.suspendableTypes
    cacheEnabled := ((j.get? "CACHE_ENABLED").bind Json.asBool?).getD d.cacheEnabled
    jobPriority := (((j.get? "JOB_PRIORITY").bind Json.asStr?).bind JobPriority.ofKey?).getD d.jobPriority }

def toJson (c : Config) : Json :=
  Json.object [
    ("SCHEDULER_JOB_SECURITY_TIME", .int c.securityTime),
    ("HIERARCHY_LABELS", .str c.hierarchyLabels),
    ("SCHEDULER_RESOURCE_ORDER", .str c.resourceOrder),
    ("SCHEDULER_AVAILABLE_SUSPENDED_RESOURCE_TYPE", .str c.suspendableTypes),
    ("CACHE_ENABLED", .bool c.cacheEnabled),
    ("JOB_PRIORITY", .str c.jobPriority.key)]

end Config

end ClusterScheduler
