import TurnRelay.Allocation
import TurnRelay.PortPool

/-!
The allocations of one relay endpoint, with an index from relay ports to 5-tuples, and the pool that
their ports come from. Expired entries are invisible to every question and are dropped when they are
in the way or when the table is reaped.
-/

namespace TurnRelay

structure AllocationTable where
  allocations : Dictionary FiveTuple Allocation
  owners : Dictionary UInt16 FiveTuple
  relayIp : IpAddress
  permissionLifetime : Nat
  channelLifetime : Nat
  deriving DecidableEq

namespace AllocationTable

def fresh (relayIp : IpAddress) (permissionLifetime channelLifetime : Nat) : AllocationTable :=
  ⟨∅, ∅, relayIp, permissionLifetime, channelLifetime⟩

def size (table : AllocationTable) : Nat := table.allocations.size

def ports (table : AllocationTable) : List UInt16 := table.owners.keys

def liveCount (table : AllocationTable) (now : Nat) : Nat :=
  (table.allocations.values.filter (!·.isExpired now)).length

def find? (table : AllocationTable) (tuple : FiveTuple) (now : Nat) : Option Allocation :=
  (table.allocations.get? tuple).filter (!·.isExpired now)

def findByPort? (table : AllocationTable) (port : UInt16) (now : Nat) : Option Allocation := do
  let tuple ← table.owners.get? port
  table.find? tuple now

def isPermitted (table : AllocationTable) (tuple : FiveTuple) (peer : IpAddress) (now : Nat) : Bool :=
  (table.find? tuple now).any (·.isPermitted peer now)

def peerOf? (table : AllocationTable) (tuple : FiveTuple) (number : UInt16) (now : Nat) :
    Option TransportAddress := do
  let a ← table.find? tuple now
  a.channels.peer? number now

/-- The live allocation of `tuple`, if it is that of `user`. -/
def owned (table : AllocationTable) (tuple : FiveTuple) (user : String) (now : Nat) :
    Except PacketError Allocation :=
  match table.find? tuple now with
  | none => .error .invalidInput
  | some a => if a.username = user then .ok a else .error .integrityFailed

def put (table : AllocationTable) (tuple : FiveTuple) (a : Allocation) : AllocationTable :=
  { table with allocations := table.allocations.insert tuple a }

def permit (table : AllocationTable) (tuple : FiveTuple) (user : String) (peer : IpAddress)
    (now : Nat) : Except PacketError (Bool × AllocationTable) := do
  let a ← table.owned tuple user now
  return (!a.isPermitted peer now, table.put tuple (a.permit peer now))

def permitAll (table : AllocationTable) (tuple : FiveTuple) (user : String) (peers : List IpAddress)
    (now : Nat) : Except PacketError AllocationTable :=
  peers.foldlM (fun table peer => (·.2) <$> table.permit tuple user peer now) table

def touch (table : AllocationTable) (tuple : FiveTuple) (peer : IpAddress) (now : Nat) :
    Bool × AllocationTable :=
  match table.find? tuple now with
  | some a => if a.isPermitted peer now then (true, table.put tuple (a.permit peer now)) else (false, table)
  | none => (false, table)

def bindChannel (table : AllocationTable) (tuple : FiveTuple) (user : String) (number : UInt16)
    (peer : TransportAddress) (now : Nat) : Except PacketError Bool × AllocationTable :=
  match table.owned tuple user now with
  | .error e => (.error e, table)
  | .ok a =>
    let (bound, channels) := a.channels.bind number peer now
    let a := { a with channels := channels }
    match bound with
    | .error e => (.error e, table.put tuple a)
    | .ok new => (.ok new, table.put tuple (a.permit peer.ip now))

end AllocationTable

/-- A table and the pool that it may share with others. -/
structure Holdings where
  table : AllocationTable
  pool : PortPool
  deriving DecidableEq

inductive AllocateOutcome
  | created (relay : TransportAddress)
  | refreshed (relay : TransportAddress)
  deriving DecidableEq

inductive RefreshOutcome
  | refreshed
  | deleted (a : Allocation)
  deriving DecidableEq

namespace Holdings

def evict (h : Holdings) (chosen : FiveTuple → Allocation → Bool) : List Allocation × Holdings :=
  let gone := (h.table.allocations.filter chosen).values
  let ports := gone.map (·.relay.port)
  (gone,
    { table :=
        { h.table with
          allocations := h.table.allocations.filter fun tuple a => !chosen tuple a
          owners := h.table.owners.filter fun port _ => port ∉ ports }
      pool := h.pool.releaseAll ports })

def remove (h : Holdings) (tuple : FiveTuple) : Option Allocation × Holdings :=
  let (gone, h) := h.evict fun t _ => t = tuple
  (gone.head?, h)

def clear (h : Holdings) : List Allocation × Holdings := h.evict fun _ _ => true

/-- Drops the table for an empty one, which tells nobody which allocations are gone. -/
def restart (h : Holdings) : Holdings :=
  ⟨.fresh h.table.relayIp h.table.permissionLifetime h.table.channelLifetime,
    h.pool.releaseAll h.table.ports⟩

def reap (h : Holdings) (now : Nat) : List Allocation × Holdings :=
  let (gone, h) := h.evict fun _ a => a.isExpired now
  (gone, { h with table := { h.table with allocations := h.table.allocations.map (·.sweep now) } })

def dropExpired (h : Holdings) (tuple : FiveTuple) (now : Nat) : Holdings :=
  (h.evict fun t a => t = tuple && a.isExpired now).2

def grant (h : Holdings) (tuple : FiveTuple) (user : String) (port : UInt16) (pool : PortPool)
    (lifetime now : Nat) : Holdings :=
  let a : Allocation :=
    { tuple := tuple
      username := user
      relay := h.table.relayIp.withPort port
      created := now
      ends := now + lifetime
      permissions := .fresh h.table.permissionLifetime
      channels := .fresh h.table.channelLifetime }
  ⟨{ h.table.put tuple a with owners := h.table.owners.insert port tuple }, pool⟩

/-- A second request of the same user extends the allocation; an expired one is never extended. -/
def allocate (random : Randomness) (h : Holdings) (draws : Draws) (tuple : FiveTuple)
    (user : String) (lifetime now : Nat) : Except PacketError AllocateOutcome × Holdings × Draws :=
  let h := h.dropExpired tuple now
  match h.table.allocations.get? tuple with
  | some a =>
    if a.username = user then
      (.ok (.refreshed a.relay), { h with table := h.table.put tuple (a.extend (now + lifetime)) }, draws)
    else (.error .integrityFailed, h, draws)
  | none =>
    match h.pool.draw random draws with
    | (none, draws) => (.error .invalidInput, h, draws)
    | (some (port, pool), draws) =>
      (.ok (.created (h.table.relayIp.withPort port)), h.grant tuple user port pool lifetime now, draws)

def refresh (h : Holdings) (tuple : FiveTuple) (user : String) (lifetime now : Nat) :
    Except PacketError (RefreshOutcome × Holdings) := do
  let a ← h.table.owned tuple user now
  if lifetime = 0 then
    match h.remove tuple with
    | (some gone, h) => return (.deleted gone, h)
    | (none, _) => .error .fatal
  else return (.refreshed, { h with table := h.table.put tuple (a.extend (now + lifetime)) })

end Holdings

end TurnRelay
