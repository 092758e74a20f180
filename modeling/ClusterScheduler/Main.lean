import ClusterScheduler.Command.Run

/-!
# Command line

The scheduling command: it looks at the files the command names (the working directory's
`.env`, the configuration file, the snapshot), reads the environment variables an environment
file can refer to, runs `Command.run` and prints its table, its warnings and errors, and exits
with its code.
-/

namespace ClusterScheduler

namespace Main

def probe (path : String) : IO PathKind := do
  try
    let text ← IO.FS.readFile path
    pure (.file text)
  catch e =>
    pure (match e with
      | .inappropriateType _ 21 _ => .directory
      | .inappropriateType _ 20 _ => .notDirectory
      | .invalidArgument _ 36 _ => .nameTooLong
      | _ => .missing)

def readEnvironment (names : List String) : IO (List (String × String)) :=
  names.filterMapM fun n => do
    pure ((← IO.getEnv n).map fun v => (n, v))

def start (args : List String) : IO UInt32 := do
  let dotenv ← probe ".env"
  let names := ["OARCONFFILE", "RUST_LOG"] ++ match dotenv with
    | .file text => Dotenv.names text
    | _ => []
  let env ← readEnvironment names
  let early := FileView.ofProbes [(".env", dotenv)]
  let configPath := match Command.environment early env with
    | .ok env => Command.configPath env
    | .error _ => Command.defaultConfigPath
  let config ← probe configPath
  let snapshot ← match args with
    | p :: _ => do pure [(p, ← probe p)]
    | [] => pure []
  let view := FileView.ofProbes ([(".env", dotenv), (configPath, config)] ++ snapshot)
  let o := Command.run view args env
  let stderr ← IO.getStderr
  for n in o.logs do
    let text := n.logText
    stderr.putStrLn s!"[{n.level.name} {n.origin}] {text}"
  let stdout ← IO.getStdout
  stdout.putStr o.stdout
  stdout.flush
  pure o.exitCode.toUInt32

end Main

end ClusterScheduler

def main (args : List String) : IO UInt32 := ClusterScheduler.Main.start args
