import ShardStore.Placement.Ring
import ShardStore.Text.Decimal

namespace ShardStore

inductive DialError where
  | malformedAddress
  /-- What stands behind the last colon is no number from 0 to 65535. -/
  | invalidNumber
  | unknownHost
  | refused
  | unreachable
deriving Repr, DecidableEq

def DialError.message : DialError → String
  | .malformedAddress => "invalid socket address"
  | .invalidNumber => "invalid port value"
  | .unknownHost =>
    "failed to lookup address information: Temporary failure in name resolution"
  | .refused => "Connection refused (os error 111)"
  | .unreachable => "Network is unreachable (os error 101)"

abbrev Network := NodeId → Except DialError Unit

namespace Network

def splitAddress? (address : List Char) : Option (List Char × List Char) :=
  match address.reverse.span (· != ':') with
  | (number, _ :: host) => some (host.reverse, number.reverse)
  | (_, []) => none

def addressNumber? (number : List Char) : Option Nat :=
  (Text.Decimal.unsigned? (Text.encode (String.ofList number))).filter (· < UInt16.size)

def isOctet (part : List Char) : Bool :=
  match Text.Decimal.nat? (Text.encode (String.ofList part)) with
  | some n => n < 256 && (part.length == 1 || part.head? != some '0')
  | none => false

def splitDots : List Char → List (List Char)
  | [] => [[]]
  | c :: rest =>
    match c, splitDots rest with
    | '.', parts => [] :: parts
    | c, part :: parts => (c :: part) :: parts
    | c, [] => [[c]]

/-- Whether a host is given by number and so needs no look-up: an IPv4 address, or an IPv6 address
in brackets. -/
def isNumericHost (host : List Char) : Bool :=
  let parts := splitDots host
  (parts.length == 4 && parts.all isOctet) ||
    (host.head? == some '[' && host.getLast? == some ']')

/-- A host without any network: no name can be looked up and no address be reached. -/
def isolated : Network := fun address =>
  match splitAddress? address.toList with
  | none => .error .malformedAddress
  | some (host, number) =>
    if (addressNumber? number).isNone then .error .invalidNumber
    else if isNumericHost host then .error .unreachable
    else .error .unknownHost

def among (listening : List NodeId) : Network := fun address =>
  if listening.contains address then .ok () else .error .refused

end Network

end ShardStore
