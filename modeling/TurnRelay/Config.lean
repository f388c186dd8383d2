import TurnRelay.Address.Text
import TurnRelay.Dictionary
import TurnRelay.Error
import TurnRelay.PortPool

namespace TurnRelay

/-- The characters with the Unicode property White_Space. -/
def blankRanges : List (Nat × Nat) :=
  [(0x09, 0x0D), (0x20, 0x20), (0x85, 0x85), (0xA0, 0xA0), (0x1680, 0x1680), (0x2000, 0x200A),
    (0x2028, 0x2029), (0x202F, 0x202F), (0x205F, 0x205F), (0x3000, 0x3000)]

def isBlank (c : Char) : Bool :=
  blankRanges.any fun (first, last) => first ≤ c.toNat && c.toNat ≤ last

/-- Lifetimes are in seconds. The users are there for the host and are never looked at. -/
structure Config where
  realm : String
  externals : List String
  software : String
  portRange : PortRange
  defaultLifetime : UInt32
  maxLifetime : UInt32
  permissionLifetime : UInt32
  channelLifetime : UInt32
  users : Dictionary String String
  deriving DecidableEq

namespace Config

def standard : Config where
  realm := "localhost"
  externals := []
  software := "turn-core-0.3.0"
  portRange := .standard
  defaultLifetime := 600
  maxLifetime := 3600
  permissionLifetime := 300
  channelLifetime := 600
  users := ∅

def ofRealm (realm : String) (externals : List String) : Config :=
  { standard with realm := realm, externals := externals }

def address (text : String) : Except HostError TransportAddress :=
  match TransportAddress.ofText? text with
  | some address => .ok address
  | none => .error (.invalidAddress text)

def addresses (config : Config) : Except HostError (List TransportAddress) :=
  config.externals.mapM address

def hasZeroLifetime (config : Config) : Bool :=
  config.defaultLifetime = 0 || config.maxLifetime = 0 || config.permissionLifetime = 0 ||
    config.channelLifetime = 0

def validate (config : Config) : Except HostError (List TransportAddress) := do
  if config.realm.toList.all isBlank then throw (.configuration .emptyRealm)
  if config.externals.isEmpty then throw (.configuration .noExternals)
  let addresses ← config.addresses
  if config.portRange.isEmpty then
    throw (.configuration (.invalidPortRange config.portRange.start config.portRange.stop))
  if config.hasZeroLifetime then throw (.configuration .zeroLifetime)
  if config.maxLifetime < config.defaultLifetime then throw (.configuration .defaultExceedsMax)
  return addresses

end Config

end TurnRelay
