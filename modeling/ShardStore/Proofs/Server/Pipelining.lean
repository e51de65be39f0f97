import ShardStore.Proofs.Peering.Exchange
import ShardStore.Proofs.Server.Framing

namespace ShardStore

/-- Command lines that a client sends without waiting for replies, and the pieces in which their
bytes come. -/
structure Pipeline where
  lines : List CommandLine
  pieces : List Bytes
  room : ∀ line ∈ lines, line.Addressable
  sent : pieces.flatten = lines.flatMap Wire.encodeLine

namespace Server

variable {σ : Type}

/-- The replies to the lines of clients who connect one after another to a service, without any
server in between. -/
def inTurn (service : Service σ) (state : σ) : List (List CommandLine) → List (List Message) × σ
  | [] => ([], state)
  | lines :: rest =>
    let connected : Clients Unit σ := { state }
    let (replies, after) := connected.callAll (fun _ => service) (lines.map fun line => ⟨(), line⟩)
    let (others, last) := inTurn service after.state rest
    (replies :: others, last)

/-- Requests that are command lines are answered as a connection's calls are. -/
theorem answerAll_lines (service : Service σ) (clients : Clients Unit σ) (lines : List CommandLine) :
    let (replies, after) := clients.callAll (fun _ => service) (lines.map fun line => ⟨(), line⟩)
    answerAll service clients.state (clients.selections ()) (lines.map (.ok <| .ofList ·)) =
      (replies, after.selections (), after.state) := by
  induction lines generalizing clients with
  | nil => rfl
  | cons line rest ih =>
      have later := ih (clients.call (fun _ => service) ⟨(), line⟩).2
      have switched : (clients.call (fun _ => service) ⟨(), line⟩).2.selections () =
          (service clients.state (clients.selections ()) line).selected := by
        simp only [Clients.call, Selections.select, if_true]
      rw [switched] at later
      simp only [List.map_cons, answerAll, answer?, Message.commandLine?_ofList]
      exact congrArg (Prod.map (_ :: ·) id) later

theorem feedAll_pieces (pipeline : Pipeline) :
    Decoder.feedAll {} pipeline.pieces = (pipeline.lines.map (.ok <| .ofList ·), {}) := by
  have read := Decoder.drain_lines pipeline.lines pipeline.room []
  rw [Decoder.drain_nil, List.append_nil, List.append_nil, ← pipeline.sent] at read
  exact (Decoder.feedAll_eq_feed rfl pipeline.pieces).trans read

theorem serve_pipeline (service : Service σ) (state : σ) (pipeline : Pipeline) :
    let connected : Clients Unit σ := { state }
    let (replies, after) :=
      connected.callAll (fun _ => service) (pipeline.lines.map fun line => ⟨(), line⟩)
    serve service state pipeline.pieces .finished = (replies, after.selections (), after.state) := by
  rw [serve_eq, feedAll_pieces]
  exact answerAll_lines service { state } pipeline.lines

/-- Clients who connect one after another, and send any lines in any pieces, receive what the
engine answers to the lines of each, written one reply behind the other; and behind them the
engine and its log are what these lines make of them. -/
theorem serveAll_pipelines (durable : DurableEngine) (pipelines : List Pipeline) :
    let (replies, last) := inTurn DurableEngine.service durable (pipelines.map Pipeline.lines)
    serveAll DurableEngine.service durable (pipelines.map Pipeline.pieces) =
      (replies.map (·.flatMap Wire.encode), last) := by
  induction pipelines generalizing durable with
  | nil => rfl
  | cons pipeline rest ih =>
      let connected : Clients Unit DurableEngine := { state := durable }
      let answered := connected.callAll (fun _ => DurableEngine.service)
        (pipeline.lines.map fun line => ⟨(), line⟩)
      have first : serve DurableEngine.service durable pipeline.pieces .finished =
          (answered.1, answered.2.selections (), answered.2.state) :=
        serve_pipeline DurableEngine.service durable pipeline
      have others := ih answered.2.state
      simp only [List.map_cons, serveAll, first]
      exact congrArg (Prod.map (written answered.1 :: ·) id) others

/-- The first client sends an empty line, a SELECT line and a SET line, cut inside of the value. The
second one finds the value where the first has put it. -/
theorem serveAll_pipelines_of_two :
    let get : CommandLine := [[0x67, 0x65, 0x74], [0x6B]]
    let set : CommandLine := [[0x73, 0x65, 0x74], [0x6B], [0x31, 0x32]]
    let lines : List (List CommandLine) := [[[], selectLine 1, set], [get, selectLine 1, get]]
    let sent : Bytes := [[], selectLine 1, set].flatMap Wire.encodeLine
    let pieces : List (List Bytes) :=
      [[sent.take 52, sent.drop 52], [get, selectLine 1, get].map Wire.encodeLine]
    let served := serveAll DurableEngine.service (.unlogged (.new 2)) pieces
    (∃ pipelines : List Pipeline, pipelines.map Pipeline.lines = lines ∧
        pipelines.map Pipeline.pieces = pieces) ∧
      served.1 = [[Failure.emptyCommand.reply, .ok, .ok].flatMap Wire.encode,
        [.null, .ok, .bulk [0x31, 0x32]].flatMap Wire.encode] ∧
      served.2.engine.value? 1 [0x6B] = some [0x31, 0x32] := by
  intro get set lines sent pieces served
  have select : selectLine 1 = [[0x53, 0x45, 0x4C, 0x45, 0x43, 0x54], [0x31]] := by decide +kernel
  have room : ∀ line ∈ [[], selectLine 1, set, get], CommandLine.Addressable line := by
    simp [CommandLine.Addressable, select, set, get, maxLength]
  let first : Pipeline :=
    { lines := [[], selectLine 1, set]
      pieces := [sent.take 52, sent.drop 52]
      room := fun line mem => room line (List.mem_append_left [get] mem)
      sent := by simp [sent] }
  let second : Pipeline :=
    { lines := [get, selectLine 1, get]
      pieces := [get, selectLine 1, get].map Wire.encodeLine
      room := fun line mem => room line (by simp at mem ⊢; tauto)
      sent := by simp }
  have same := serveAll_pipelines (.unlogged (.new 2)) [first, second]
  have received : served = _ := same
  rw [received]
  exact ⟨⟨[first, second], rfl, rfl⟩, by decide +kernel, by decide +kernel⟩

end Server

end ShardStore
