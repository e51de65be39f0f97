import ShardStore.Log.Writer

/-!
Writers that follow each other on one file, each for a session. What a writer has gathered is not in
the file yet. It is lost with the writer unless it is flushed before the next one is opened.
-/

namespace ShardStore.Log

inductive WriterStep where
  | write (entry : LogEntry)
  /-- The buffer, when it is full, passes some of what was gathered on to the file by itself. -/
  | spill (count : Nat)
  | flush (now : Time)
  | sync (now : Time)
  /-- The writer is given up as it stands, and another one is opened on the file. -/
  | reopen (policy : SyncPolicy) (now : Time)
deriving Repr, DecidableEq

def WriterStep.entry? : WriterStep → Option LogEntry
  | .write entry => some entry
  | _ => none

namespace Writer

def spill (writer : Writer) (count : Nat) : Writer :=
  { writer with
    file := writer.file ++ writer.gathered.take count
    gathered := writer.gathered.drop count }

def step (writer : Writer) : WriterStep → Writer
  | .write entry => writer.write entry
  | .spill count => writer.spill count
  | .flush now => writer.flush now
  | .sync now => writer.sync now
  | .reopen policy now => .opened policy (some writer.file) now

def run (writer : Writer) (steps : List WriterStep) : Writer :=
  steps.foldl step writer

end Writer

/-- The entries that are written, whatever the session. -/
def written (steps : List WriterStep) : List LogEntry :=
  steps.filterMap WriterStep.entry?

/-- The entries of each session. -/
def sessions : List WriterStep → List (List LogEntry)
  | [] => [[]]
  | .write entry :: rest => (sessions rest).modifyHead (entry :: ·)
  | .reopen _ _ :: rest => [] :: sessions rest
  | _ :: rest => sessions rest

namespace Writer

/-- Whether no writer is given up with something gathered. -/
def losesNothing (writer : Writer) : List WriterStep → Bool
  | [] => true
  | .reopen policy now :: rest =>
      writer.gathered.isEmpty && (writer.step (.reopen policy now)).losesNothing rest
  | step :: rest => (writer.step step).losesNothing rest

end Writer

end ShardStore.Log
