import TurnRelay.Address
import TurnRelay.Dictionary
import TurnRelay.Packet

namespace TurnRelay

structure PermissionTable where
  entries : Dictionary IpAddress Nat
  lifetime : Nat
  deriving DecidableEq

namespace PermissionTable

def fresh (lifetime : Nat) : PermissionTable := ⟨∅, lifetime⟩

def get? (table : PermissionTable) (peer : IpAddress) : Option Nat := table.entries.get? peer

def isPermitted (table : PermissionTable) (peer : IpAddress) (now : Nat) : Bool :=
  (table.get? peer).any (now < ·)

def extend (table : PermissionTable) (peer : IpAddress) (now : Nat) : PermissionTable :=
  { table with entries := table.entries.insert peer (now + table.lifetime) }

def install (table : PermissionTable) (peer : IpAddress) (now : Nat) : Bool × PermissionTable :=
  (!table.isPermitted peer now, table.extend peer now)

def touch (table : PermissionTable) (peer : IpAddress) (now : Nat) : Bool × PermissionTable :=
  if table.isPermitted peer now then (true, table.extend peer now) else (false, table)

def expiredPeers (table : PermissionTable) (now : Nat) : List IpAddress :=
  (table.entries.filter fun _ ends => ends ≤ now).keys

def reap (table : PermissionTable) (now : Nat) : PermissionTable :=
  { table with entries := table.entries.filter fun _ ends => now < ends }

def size (table : PermissionTable) : Nat := table.entries.size

@[simp] theorem get?_fresh (lifetime : Nat) (peer : IpAddress) : (fresh lifetime).get? peer = none := rfl

theorem get?_extend (table : PermissionTable) (peer other : IpAddress) (now : Nat) :
    (table.extend peer now).get? other =
      if other = peer then some (now + table.lifetime) else table.get? other :=
  Dictionary.get?_insert ..

theorem get?_reap (table : PermissionTable) (peer : IpAddress) (now : Nat) :
    (table.reap now).get? peer = (table.get? peer).filter (now < ·) :=
  Dictionary.get?_filter ..

@[simp] theorem isPermitted_reap (table : PermissionTable) (peer : IpAddress) (now : Nat) :
    (table.reap now).isPermitted peer now = table.isPermitted peer now := by
  simp only [isPermitted, get?_reap]
  cases table.get? peer with
  | none => rfl
  | some ends => by_cases h : now < ends <;> simp [Option.filter, h]

end PermissionTable

structure ChannelBinding where
  peer : TransportAddress
  ends : Nat
  deriving DecidableEq

def ChannelBinding.isExpired (binding : ChannelBinding) (now : Nat) : Bool := binding.ends ≤ now

structure ChannelTable where
  bindings : Dictionary UInt16 ChannelBinding
  numbers : Dictionary TransportAddress UInt16
  lifetime : Nat
  deriving DecidableEq

namespace ChannelTable

def fresh (lifetime : Nat) : ChannelTable := ⟨∅, ∅, lifetime⟩

def get? (table : ChannelTable) (number : UInt16) : Option ChannelBinding :=
  table.bindings.get? number

def peer? (table : ChannelTable) (number : UInt16) (now : Nat) : Option TransportAddress :=
  ((table.get? number).filter (!·.isExpired now)).map (·.peer)

def number? (table : ChannelTable) (peer : TransportAddress) (now : Nat) : Option UInt16 := do
  let number ← table.numbers.get? peer
  let binding ← table.get? number
  if binding.isExpired now then none else some number

def expiredPeers (table : ChannelTable) (now : Nat) : List TransportAddress :=
  (table.bindings.values.filter (·.isExpired now)).map (·.peer)

def reap (table : ChannelTable) (now : Nat) : ChannelTable :=
  { table with
    bindings := table.bindings.filter fun _ binding => !binding.isExpired now
    numbers := table.numbers.filter fun peer _ => peer ∉ table.expiredPeers now }

def admits (table : ChannelTable) (number : UInt16) (peer : TransportAddress) : Bool :=
  (table.bindings.get? number).all (·.peer = peer) && (table.numbers.get? peer).all (· = number)

def store (table : ChannelTable) (number : UInt16) (peer : TransportAddress) (now : Nat) :
    ChannelTable :=
  { table with
    bindings := table.bindings.insert number ⟨peer, now + table.lifetime⟩
    numbers := table.numbers.insert peer number }

/-- Binds or refreshes, and tells whether the binding is new. A refusal still drops expired bindings,
unless the number is no channel number at all. -/
def bind (table : ChannelTable) (number : UInt16) (peer : TransportAddress) (now : Nat) :
    Except PacketError Bool × ChannelTable :=
  if isChannelNumber number then
    let table := table.reap now
    if table.admits number peer then
      (.ok !table.bindings.contains number, table.store number peer now)
    else (.error .invalidInput, table)
  else (.error .invalidInput, table)

def size (table : ChannelTable) : Nat := table.bindings.size

@[simp] theorem get?_fresh (lifetime : Nat) (number : UInt16) : (fresh lifetime).get? number = none :=
  rfl

theorem get?_store (table : ChannelTable) (number other : UInt16) (peer : TransportAddress) (now : Nat) :
    (table.store number peer now).get? other =
      if other = number then some ⟨peer, now + table.lifetime⟩ else table.get? other :=
  Dictionary.get?_insert ..

theorem get?_reap (table : ChannelTable) (number : UInt16) (now : Nat) :
    (table.reap now).get? number = (table.get? number).filter (!·.isExpired now) :=
  Dictionary.get?_filter ..

@[simp] theorem peer?_reap (table : ChannelTable) (number : UInt16) (now : Nat) :
    (table.reap now).peer? number now = table.peer? number now := by
  simp only [peer?, get?_reap]
  cases table.get? number with
  | none => rfl
  | some binding => by_cases h : binding.isExpired now <;> simp [Option.filter, h]

end ChannelTable

inductive Transport
  | udp
  | tcp
  deriving DecidableEq

structure FiveTuple where
  client : TransportAddress
  server : TransportAddress
  transport : Transport
  deriving DecidableEq

structure Allocation where
  tuple : FiveTuple
  username : String
  relay : TransportAddress
  created : Nat
  ends : Nat
  permissions : PermissionTable
  channels : ChannelTable
  deriving DecidableEq

namespace Allocation

def isExpired (a : Allocation) (now : Nat) : Bool := a.ends ≤ now

def remaining (a : Allocation) (now : Nat) : Nat := a.ends - now

def extend (a : Allocation) (ends : Nat) : Allocation := { a with ends := ends }

def sweep (a : Allocation) (now : Nat) : Allocation :=
  { a with permissions := a.permissions.reap now, channels := a.channels.reap now }

def isPermitted (a : Allocation) (peer : IpAddress) (now : Nat) : Bool :=
  a.permissions.isPermitted peer now

def permit (a : Allocation) (peer : IpAddress) (now : Nat) : Allocation :=
  { a with permissions := a.permissions.extend peer now }

end Allocation

end TurnRelay
