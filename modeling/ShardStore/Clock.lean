namespace ShardStore

/-- A time in milliseconds. -/
abbrev Time := Nat

end ShardStore
