import ClusterScheduler.Command.Files
import ClusterScheduler.Command.Dotenv
import ClusterScheduler.Snapshot.Round
import ClusterScheduler.Text.Basic

/-!
# The scheduling command

The command schedules one snapshot: it applies the working directory's environment file, loads
the configuration file named by `OARCONFFILE` (default `/etc/oar/oar.conf`; a missing file means
the defaults), reads the snapshot named by its first argument, runs a round and prints the
placements as a table. Failing to load the configuration or the snapshot ends it with code 1,
a missing argument with code 2, and a `Fault` with code 101. Warnings and errors are reported
on the way, in order, one log entry each: a message of several lines continues on lines
indented by four spaces.
-/

namespace ClusterScheduler

/-- A notice's message as the log writes it: every line after the first indented by four
spaces. -/
def Notice.logText (n : Notice) : String := "\n    ".intercalate (n.text.splitOn "\n")

/-- A notice's message as read back from the log, whose lines end with a line feed or with a
carriage return and a line feed: the written lines joined by line feeds. -/
def Notice.readBack (n : Notice) : String :=
  "\n".intercalate ((Text.lines (n.logText ++ "\n").toList).map String.ofList)

/-- The result of a run: exit code, printed text and the warnings and errors reported. -/
structure Outcome where
  exitCode : Nat
  stdout : String
  logs : List Notice
  deriving Inhabited

namespace Config

/-- The configuration of a file: the defaults, with a warning, when the path names nothing;
an error when it cannot be read. -/
def load (v : FileView) (path : String) : Logged (Except ConfigError Config) :=
  if !v.exists? path then do
    Logged.note (.configMissing path)
    pure (.ok {})
  else
    match v.read path with
    | .error f => pure (.error (.unreadable path f.text))
    | .ok text => pure (Config.ofText text)

end Config

namespace Command

def defaultConfigPath : String := "/etc/oar/oar.conf"

def configPath (env : List (String × String)) : String :=
  (env.lookup "OARCONFFILE").getD defaultConfigPath

def usage : String := "Usage: oar-kao-meta <snapshot.json>"

def placementTable (ids : IdMap) (allocations : List Allocation) : String :=
  Text.table (["Job", "Moldable", "Begin", "End", "Resources"] :: allocations.map fun a =>
    [toString a.job, toString a.moldable, toString a.begin, toString a.end,
      ",".intercalate ((ids.toExternal a.resources).map toString)])

def fail (code : Nat) (text : String) : Logged (Nat × String) := do
  Logged.note (.fatal text)
  pure (code, "")

def session (v : FileView) (args : List String) (env : List (String × String)) :
    Logged (Nat × String) := do
  match ← Config.load v (configPath env) with
  | .error e => fail 1 e.message
  | .ok config =>
    match args with
    | [] => fail 2 usage
    | snap :: _ =>
      match v.read snap with
      | .error f => fail 1 s!"Unable to read snapshot {snap}: {f.text}"
      | .ok text =>
        match Snapshot.shape.readDocument text with
        | .error e => fail 1 ("Invalid snapshot: " ++ e.message)
        | .ok record =>
          match ← (Platform.ofSnapshot (Snapshot.ofRecord record) config false).run with
          | .error e => fail 1 e.message
          | .ok p =>
            let (p, round) ← p.metaSchedule
            pure (0, placementTable p.round.cluster.inventory.idMap round.allocations)

/-- The environment once the working directory's environment file is applied; a value that no
variable can hold stops the program. -/
def environment (v : FileView) (env : List (String × String)) :
    Except Dotenv.Stop (List (String × String)) :=
  match v.kind ".env" with
  | .file text => Dotenv.apply text env
  | _ => .ok env

def run (v : FileView) (args : List String) (env : List (String × String)) : Outcome :=
  match environment v env with
  | .error _ => ⟨101, "", []⟩
  | .ok env =>
    let r := session v args env
    match r.result with
    | .ok (code, out) => ⟨code, out, r.notices.toList⟩
    | .error _ => ⟨101, "", r.notices.toList⟩

end Command

end ClusterScheduler
