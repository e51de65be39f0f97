import ShardStore.Service

namespace ShardStore

namespace Server

variable {σ : Type}

def notCommandLine : Message :=
  .error "ERR Protocol error: 'expected an array of bulk strings'"

/-- What an item of a client's stream comes to; none if it ends the connection. -/
def answer? (service : Service σ) (state : σ) (selected : Nat) : Item → Option (Served σ)
  | .error fault => if fault.isRecoverable then some ⟨fault.reply, selected, state⟩ else none
  | .ok message =>
    match message.commandLine? with
    | some line => some (service state selected line)
    | none => some ⟨notCommandLine, selected, state⟩

def answerAll (service : Service σ) (state : σ) (selected : Nat) :
    List Item → List Message × Nat × σ
  | [] => ([], selected, state)
  | item :: rest =>
    match answer? service state selected item with
    | none => ([], selected, state)
    | some served =>
      let (replies, last) := answerAll service served.state served.selected rest
      (served.reply :: replies, last)

def serve (service : Service σ) (state : σ) (pieces : List Bytes) (ending : Wire.Ending) :
    List Message × Nat × σ :=
  answerAll service state 0 (Wire.readStream pieces ending)

def written (replies : List Message) : Bytes :=
  replies.flatMap Wire.encode

/-- What clients read who connect one after another, each of whom sends pieces of bytes and then no
more. -/
def serveAll (service : Service σ) (state : σ) : List (List Bytes) → List Bytes × σ
  | [] => ([], state)
  | pieces :: rest =>
    let (replies, _, state) := serve service state pieces .finished
    let (received, last) := serveAll service state rest
    (written replies :: received, last)

end Server

structure Session where
  decoder : Decoder := {}
  selected : Nat := 0
deriving Repr, DecidableEq, Inhabited

def Session.receive {σ : Type} (session : Session) (service : Service σ) (state : σ)
    (piece : Bytes) : List Message × Session × σ :=
  let (items, decoder) := session.decoder.feed piece
  let (replies, selected, state) := Server.answerAll service state session.selected items
  (replies, { decoder, selected }, state)

end ShardStore
