namespace ShardStore

inductive SyncPolicy where
  | always
  | everySecond
  | never
deriving Repr, DecidableEq, Inhabited

namespace SyncPolicy

def name : SyncPolicy → String
  | .always => "always"
  | .everySecond => "everysec"
  | .never => "no"

def named? : String → Option SyncPolicy
  | "always" => some .always
  | "everysec" => some .everySecond
  | "no" => some .never
  | _ => none

structure Unknown where
  name : String
deriving Repr, DecidableEq

def Unknown.message (unknown : Unknown) : String :=
  s!"unknown fsync policy '{unknown.name}'"

/-- The policy of a name whose ASCII letters may be in either case. -/
def parse (text : String) : Except Unknown SyncPolicy :=
  let lower := text.map Char.toLower
  match named? lower with
  | some policy => .ok policy
  | none => .error ⟨lower⟩

end SyncPolicy

end ShardStore
