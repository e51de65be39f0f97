import ShardStore.Cluster
import ShardStore.Options

namespace ShardStore.Program

def readFile? (path : String) : IO (Option Bytes) := do
  try
    return some (← IO.FS.readBinFile path).toList
  catch _ => return none

def settings (words : List String) : IO Config := do
  let options ←
    match Options.parse words with
    | .ok options => pure options
    | .error failure => throw (IO.userError failure.message)
  match options.config? with
  | none => return options.override {}
  | some path =>
    match Config.ofFile (← readFile? path) with
    | .ok config => return options.override config
    | .error failure => throw (IO.userError failure.message)

def address (config : Config) : NodeId :=
  if config.isCluster then config.selfNode else config.listenAddress

def opened (config : Config) (file? : Option Bytes) (now : Time) : Cluster :=
  let site :=
    if config.isCluster then Site.member (.opened config.nodeOptions file? now)
    else Site.single (.opened config.durableOptions file? now)
  ⟨[(address config, site)]⟩

def appendLog (config : Config) (durable : DurableEngine) (written : Nat) : IO Nat := do
  if !config.appendOnly then return written
  let file := (durable.log.file?.getD []).drop written
  if file.isEmpty && 0 < written then return written
  let handle ← IO.FS.Handle.mk config.appendFilename .append
  handle.write ⟨file.toArray⟩
  handle.flush
  return written + file.length

partial def converse (config : Config) (input output : IO.FS.Stream) (cluster : Cluster)
    (session : Session) (written : Nat) : IO (Cluster × Nat) := do
  let piece ← input.read 65536
  if piece.isEmpty then return (cluster, written)
  let service : Service Cluster := fun cluster => cluster.service .isolated (address config)
  let (replies, session, cluster) := session.receive service cluster piece.toList
  let cluster := cluster.work (address config) (← IO.monoMsNow)
  let written ←
    match cluster.site? (address config) with
    | some site => appendLog config site.durable written
    | none => pure written
  output.write ⟨(Server.written replies).toArray⟩
  output.flush
  converse config input output cluster session written

def run (words : List String) : IO Unit := do
  let config ← settings words
  let file? ← if config.appendOnly then readFile? config.appendFilename else pure none
  let now ← IO.monoMsNow
  let start := opened config file? now
  let (last, written) ←
    converse config (← IO.getStdin) (← IO.getStdout) start {} (file?.getD []).length
  let closed := last.closeNode (address config) (← IO.monoMsNow)
  match closed.site? (address config) with
  | some site => discard (appendLog config site.durable written)
  | none => pure ()

end ShardStore.Program

def main (words : List String) : IO UInt32 := do
  try
    ShardStore.Program.run words
    return 0
  catch failure =>
    (← IO.getStderr).putStrLn s!"error: {toString failure}"
    return 1
