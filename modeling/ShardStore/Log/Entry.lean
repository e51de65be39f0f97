import ShardStore.Wire.Encoding

namespace ShardStore

structure LogEntry where
  database : Nat
  line : CommandLine
deriving Repr, DecidableEq

namespace Log

def selectWord : Bytes :=
  [0x53, 0x45, 0x4C, 0x45, 0x43, 0x54]

/-- The line that makes a database the one on which the lines behind it run. -/
def selectLine (database : Nat) : CommandLine :=
  [selectWord, Text.Decimal.ofNat database]

/-- What an entry adds to the log when the log was last switched to `current?`. -/
def entryBytes (current? : Option Nat) (entry : LogEntry) : Bytes :=
  (if current? = some entry.database then [] else Wire.encodeLine (selectLine entry.database)) ++
    Wire.encodeLine entry.line

def entriesBytes (current? : Option Nat) : List LogEntry → Bytes
  | [] => []
  | entry :: rest => entryBytes current? entry ++ entriesBytes (some entry.database) rest

def switch? : CommandLine → Option Nat
  | [word, index] => if word = selectWord then Text.Decimal.nat? index else none
  | _ => none

/-- The entries that the lines of a log stand for, from some database on: its SELECT lines say on
which database the lines behind them ran. -/
def entriesOf (database : Nat) : List CommandLine → List LogEntry
  | [] => []
  | line :: rest =>
    match switch? line with
    | some next => entriesOf next rest
    | none => ⟨database, line⟩ :: entriesOf database rest

end Log

end ShardStore
