import ShardStore.Engine

namespace ShardStore

inductive Route where
  /-- The node that owns the first key. -/
  | owner
  /-- The node that got the line. -/
  | here
  /-- The node that owns both keys; there must be one. -/
  | commonOwner
  /-- Every node, their counts added up. -/
  | count
  /-- Every node, all of which must agree. -/
  | acknowledge
  /-- The node that got the line, from another node that has it run on every node. -/
  | forwarded
deriving Repr, DecidableEq

namespace Route

/-- The word in front of a line that a node sends to its peers for each to run on its own keys. -/
def forwardedName : String := "_forwarded"

def table : List (String × Route) :=
  [("get", .owner), ("set", .owner), ("setnx", .owner), ("getset", .owner), ("strlen", .owner),
    ("exists", .owner), ("type", .owner), ("ping", .here), ("select", .here),
    ("rename", .commonOwner), ("renamenx", .commonOwner), ("del", .count),
    ("flushdb", .acknowledge), (forwardedName, .forwarded)]

def named? (name : String) : Option Route :=
  table.lookup name

def forward (line : CommandLine) : CommandLine :=
  Text.encode forwardedName :: line

end Route

end ShardStore
