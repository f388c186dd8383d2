import TurnRelay.AllocationTable
import TurnRelay.Config
import TurnRelay.Message.Attribute

/-!
Endpoints: one interface address of the relay together with one external address. A site is an
endpoint with the pool that it shares and the draws of the run, so it is all that a step at the
endpoint reads or writes.
-/

namespace TurnRelay

inductive Event
  | passwordAsked (client : TransportAddress) (user : String)
  | bindingAnswered (client : TransportAddress)
  | allocated (client : TransportAddress) (user : String) (port : UInt16)
  | refreshed (client : TransportAddress) (user : String) (seconds : UInt32)
  | permitted (client : TransportAddress) (user : String) (peer : TransportAddress)
  | channelBound (client : TransportAddress) (user : String) (number : UInt16)
  | aborted (client : TransportAddress) (user : String)
  deriving DecidableEq

inductive Framing
  | message
  | channel
  deriving DecidableEq

structure Route where
  destination : TransportAddress
  origin : TransportAddress
  deriving DecidableEq

/-- Without a route the data goes back to where the packet came from. -/
structure Response where
  data : Bytes
  framing : Framing
  route : Option Route
  deriving DecidableEq

namespace Response

def reply (data : Bytes) : Response := ⟨data, .message, none⟩

def relayed (data : Bytes) (framing : Framing) (destination origin : TransportAddress) : Response :=
  ⟨data, framing, some ⟨destination, origin⟩⟩

def isReply (response : Response) : Bool := response.route.isNone

end Response

abbrev Answer := Except PacketError (Option Response)

structure Stats where
  processed : Nat
  errors : Nat
  created : Nat
  removed : Nat
  relayed : Nat
  deriving DecidableEq

structure Endpoint where
  interface : TransportAddress
  external : TransportAddress
  config : Config
  table : AllocationTable
  stats : Stats
  deriving DecidableEq

def milliseconds (seconds : UInt32) : Nat := seconds.toNat * 1000

namespace Endpoint

def fresh (interface external : TransportAddress) (config : Config) : Endpoint where
  interface := interface
  external := external
  config := config
  table := .fresh external.ip (milliseconds config.permissionLifetime) (milliseconds config.channelLifetime)
  stats := ⟨0, 0, 0, 0, 0⟩

def tuple (endpoint : Endpoint) (source : TransportAddress) : FiveTuple :=
  ⟨source, endpoint.interface, .udp⟩

def find? (endpoint : Endpoint) (source : TransportAddress) (now : Nat) : Option Allocation :=
  endpoint.table.find? (endpoint.tuple source) now

def liveCount (endpoint : Endpoint) (now : Nat) : Nat := endpoint.table.liveCount now

def software (endpoint : Endpoint) : Attribute := ⟨.software, .software endpoint.config.software⟩

end Endpoint

structure Site where
  endpoint : Endpoint
  pool : PortPool
  draws : Draws
  deriving DecidableEq

structure Step (α : Type) where
  result : α
  events : List Event
  site : Site

namespace Step

variable {α β : Type}

def map (f : α → β) (step : Step α) : Step β := ⟨f step.result, step.events, step.site⟩

def after (events : List Event) (step : Step α) : Step α :=
  { step with events := events ++ step.events }

end Step

namespace Site

def holdings (s : Site) : Holdings := ⟨s.endpoint.table, s.pool⟩

def setTable (s : Site) (table : AllocationTable) : Site :=
  { s with endpoint := { s.endpoint with table := table } }

def setHoldings (s : Site) (h : Holdings) : Site := { s.setTable h.table with pool := h.pool }

def count (s : Site) (change : Stats → Stats) : Site :=
  { s with endpoint := { s.endpoint with stats := change s.endpoint.stats } }

def countError (s : Site) : Site := s.count fun stats => { stats with errors := stats.errors + 1 }

def countRelayed (s : Site) (data : Bytes) : Site :=
  s.count fun stats => { stats with relayed := stats.relayed + data.length }

def abort (s : Site) (gone : List Allocation) : List Event × Site :=
  (gone.map fun a => .aborted a.tuple.client a.username,
    s.count fun stats => { stats with removed := stats.removed + gone.length })

def reap (s : Site) (now : Nat) : List Event × Site :=
  let (gone, h) := s.holdings.reap now
  (s.setHoldings h).abort gone

def shutdown (s : Site) : Step Unit :=
  let (gone, h) := s.holdings.clear
  let (aborts, s) := (s.setHoldings h).abort gone
  ⟨(), aborts, s⟩

end Site

end TurnRelay
