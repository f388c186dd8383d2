import TurnRelay.Endpoint.Basic
import TurnRelay.Message.Basic

namespace TurnRelay

inductive Procedure
  | allocate
  | refresh
  | createPermission
  | channelBind
  deriving DecidableEq

def Procedure.needsAllocation : Procedure → Bool
  | allocate => false
  | _ => true

/-- A refresh for zero seconds asks for deletion. -/
inductive Command
  | allocate (seconds : UInt32)
  | refresh (seconds : UInt32)
  | permit (peers : List TransportAddress)
  | bindChannel (number : UInt16) (peer : TransportAddress)
  deriving DecidableEq

/-- The requested lifetime, or the nearest one between the default and the maximum. -/
def Config.grantedLifetime (config : Config) (requested : Option UInt32) : UInt32 :=
  match requested with
  | none => config.defaultLifetime
  | some seconds => min (max seconds config.defaultLifetime) config.maxLifetime

namespace Command

def udpProtocol : UInt8 := 17

def ofAllocate (config : Config) (relayIp : IpAddress) (m : Message) : Except PacketError Command :=
  if m.requestedTransport? ≠ some udpProtocol then .error .invalidInput
  else if m.requestedFamily?.all (· = relayIp.family) then
    .ok (allocate (config.grantedLifetime m.lifetime?))
  else .error .unsupportedFamily

def ofRefresh (config : Config) (m : Message) : Command :=
  refresh (if m.lifetime? = some 0 then 0 else config.grantedLifetime m.lifetime?)

def ofCreatePermission (relayIp : IpAddress) (m : Message) : Except PacketError Command :=
  if m.peers.isEmpty then .error .invalidInput
  else if m.peers.all (·.ip.family = relayIp.family) then .ok (permit m.peers)
  else .error .unsupportedFamily

def ofChannelBind (relayIp : IpAddress) (m : Message) : Except PacketError Command :=
  match m.channelNumber?, m.peers.head? with
  | some number, some peer =>
    if peer.ip.family = relayIp.family then .ok (bindChannel number peer)
    else .error .unsupportedFamily
  | _, _ => .error .invalidInput

def ofRequest (config : Config) (relayIp : IpAddress) (m : Message) :
    Procedure → Except PacketError Command
  | .allocate => ofAllocate config relayIp m
  | .refresh => .ok (ofRefresh config m)
  | .createPermission => ofCreatePermission relayIp m
  | .channelBind => ofChannelBind relayIp m

end Command

namespace Site

def allocationAttributes (relay source : TransportAddress) (seconds : UInt32) : List Attribute :=
  [⟨.xorRelayedAddress, .xorRelayedAddress relay⟩, ⟨.xorMappedAddress, .xorMappedAddress source⟩,
    ⟨.lifetime, .lifetime seconds⟩]

def allocate (random : Randomness) (s : Site) (source : TransportAddress) (user : String)
    (seconds : UInt32) (now : Nat) : Step (Except PacketError (List Attribute)) :=
  let (aborts, s) := s.reap now
  let (outcome, h, draws) :=
    s.holdings.allocate random s.draws (s.endpoint.tuple source) user (milliseconds seconds) now
  let s := { s.setHoldings h with draws := draws }
  match outcome with
  | .error e => ⟨.error e, aborts, s⟩
  | .ok (.created relay) =>
    ⟨.ok (allocationAttributes relay source seconds), aborts ++ [.allocated source user relay.port],
      s.count fun stats => { stats with created := stats.created + 1 }⟩
  | .ok (.refreshed relay) =>
    ⟨.ok (allocationAttributes relay source seconds), aborts ++ [.refreshed source user seconds], s⟩

def refresh (s : Site) (source : TransportAddress) (user : String) (seconds : UInt32) (now : Nat) :
    Step (Except PacketError (List Attribute)) :=
  match s.holdings.refresh (s.endpoint.tuple source) user (milliseconds seconds) now with
  | .error e => ⟨.error e, [], s⟩
  | .ok (.refreshed, h) =>
    ⟨.ok [⟨.lifetime, .lifetime seconds⟩], [.refreshed source user seconds], s.setHoldings h⟩
  | .ok (.deleted _, h) =>
    ⟨.ok [⟨.lifetime, .lifetime seconds⟩], [.aborted source user],
      (s.setHoldings h).count fun stats => { stats with removed := stats.removed + 1 }⟩

def permit (s : Site) (source : TransportAddress) (user : String) (peers : List TransportAddress)
    (now : Nat) : Step (Except PacketError (List Attribute)) :=
  match s.endpoint.table.permitAll (s.endpoint.tuple source) user (peers.map (·.ip)) now with
  | .error e => ⟨.error e, [], s⟩
  | .ok table => ⟨.ok [], peers.map (.permitted source user), s.setTable table⟩

def bindChannel (s : Site) (source : TransportAddress) (user : String) (number : UInt16)
    (peer : TransportAddress) (now : Nat) : Step (Except PacketError (List Attribute)) :=
  match s.endpoint.table.bindChannel (s.endpoint.tuple source) user number peer now with
  | (.error e, table) => ⟨.error e, [], s.setTable table⟩
  | (.ok _, table) => ⟨.ok [], [.channelBound source user number], s.setTable table⟩

/-- The result lists the attributes that the answer starts with. -/
def execute (random : Randomness) (s : Site) (source : TransportAddress) (user : String) (now : Nat) :
    Command → Step (Except PacketError (List Attribute))
  | .allocate seconds => s.allocate random source user seconds now
  | .refresh seconds => s.refresh source user seconds now
  | .permit peers => s.permit source user peers now
  | .bindChannel number peer => s.bindChannel source user number peer now

end Site

end TurnRelay
