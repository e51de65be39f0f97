import ShardStore.Text.Lowercase

namespace ShardStore

inductive Command where
  | ping
  | flushDb
  | get
  | set
  | setNx
  | getSet
  | strLen
  | del
  | keyExists
  | keyType
  | rename
  | renameNx
  | keys
deriving Repr, DecidableEq

/-- How many words a command line may have, the name included. -/
inductive Arity where
  | exactly (count : Nat)
  | atLeast (count : Nat)
deriving Repr, DecidableEq

namespace Arity

def admits : Arity → Nat → Bool
  | .exactly count, words => words == count
  | .atLeast count, words => count ≤ words

/-- The arity that one signed number stands for: a negative number is a least count. -/
def ofInt : Int → Arity
  | .ofNat n => .exactly n
  | .negSucc n => .atLeast (n + 1)

def toInt : Arity → Int
  | .exactly count => count
  | .atLeast count => -count

end Arity

namespace Command

def all : List Command :=
  [.ping, .flushDb, .get, .set, .setNx, .getSet, .strLen, .del, .keyExists, .keyType, .rename,
    .renameNx, .keys]

/-- The name as it is usually written. -/
def title : Command → String
  | .ping => "PING"
  | .flushDb => "FLUSHDB"
  | .get => "GET"
  | .set => "SET"
  | .setNx => "SETNX"
  | .getSet => "GETSET"
  | .strLen => "STRLEN"
  | .del => "DEL"
  | .keyExists => "EXISTS"
  | .keyType => "TYPE"
  | .rename => "RENAME"
  | .renameNx => "RENAMENX"
  | .keys => "KEYS"

def name : Command → String
  | .ping => "ping"
  | .flushDb => "flushdb"
  | .get => "get"
  | .set => "set"
  | .setNx => "setnx"
  | .getSet => "getset"
  | .strLen => "strlen"
  | .del => "del"
  | .keyExists => "exists"
  | .keyType => "type"
  | .rename => "rename"
  | .renameNx => "renamenx"
  | .keys => "keys"

def arity : Command → Arity
  | .ping => .exactly 1
  | .flushDb => .atLeast 1
  | .get => .exactly 2
  | .set => .exactly 3
  | .setNx => .exactly 3
  | .getSet => .exactly 3
  | .strLen => .exactly 2
  | .del => .atLeast 2
  | .keyExists => .atLeast 2
  | .keyType => .exactly 2
  | .rename => .exactly 3
  | .renameNx => .exactly 3
  | .keys => .exactly 2

def named? (name : String) : Option Command :=
  all.find? fun command => command.name == name

def find? (name : String) : Option Command :=
  named? (Text.lowercase name)

end Command

end ShardStore
