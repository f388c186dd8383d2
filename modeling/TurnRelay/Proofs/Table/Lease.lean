import TurnRelay.AllocationTable

namespace TurnRelay

/-- An allocation is looked up by its 5-tuple, or by the relay port that the 5-tuple was last given. -/
inductive TableRequest
  | allocate (user : String) (lifetime : Nat)
  | refresh (user : String) (lifetime : Nat)
  | permit (user : String) (peer : IpAddress)
  | bindChannel (user : String) (number : UInt16) (peer : TransportAddress)
  | touch (peer : IpAddress)
  | find
  | findByPort
  | isPermitted (peer : IpAddress)
  | peerOf (number : UInt16)
  deriving DecidableEq

def TableRequest.owner? : TableRequest → Option String
  | .refresh user _ | .permit user _ | .bindChannel user .. => some user
  | _ => none

/-- What is known of an allocation, whatever port it got. -/
structure Tenancy where
  user : String
  created : Nat
  ends : Nat
  atGiven : Bool
  deriving DecidableEq

inductive TableAnswer
  | refused (e : PacketError)
  | created (ip : IpAddress)
  | extended (atGiven : Bool)
  | refreshed
  | deleted (tenancy : Tenancy)
  | flag (value : Bool)
  | found (tenancy : Option Tenancy)
  | peer (address : Option TransportAddress)
  deriving DecidableEq

inductive TableAct
  | ask (tuple : FiveTuple) (request : TableRequest)
  | reap
  deriving DecidableEq

def TableAct.isRequest : TableAct → Bool
  | .ask .. => true
  | .reap => false

abbrev Script := List (Nat × TableAct)

def Script.requests (script : Script) : Script := script.filter (·.2.isRequest)

structure Terms where
  relayIp : IpAddress
  permissionLifetime : Nat
  channelLifetime : Nat
  deriving DecidableEq

structure Lease where
  user : String
  created : Nat
  ends : Nat
  permissions : Dictionary IpAddress Nat
  channels : Dictionary UInt16 ChannelBinding
  deriving DecidableEq

namespace Lease

def remains (now : Nat) (lease : Lease) : Lease :=
  { lease with
    permissions := lease.permissions.filter fun _ ends => now < ends
    channels := lease.channels.filter fun _ binding => now < binding.ends }

def fade (now : Nat) (entry : Option Lease) : Option Lease :=
  (entry.filter (now < ·.ends)).map (·.remains now)

def tenancy (lease : Lease) : Tenancy := ⟨lease.user, lease.created, lease.ends, true⟩

def extend (ends : Nat) (lease : Lease) : Lease := { lease with ends := ends }

def permit (terms : Terms) (now : Nat) (peer : IpAddress) (lease : Lease) : Lease :=
  { lease with permissions := lease.permissions.insert peer (now + terms.permissionLifetime) }

def admits (lease : Lease) (number : UInt16) (peer : TransportAddress) : Bool :=
  lease.channels.entries.all fun (bound, binding) => bound = number ↔ binding.peer = peer

def bind (terms : Terms) (now : Nat) (number : UInt16) (peer : TransportAddress) (lease : Lease) : Lease :=
  { lease.permit terms now peer.ip with
    channels := lease.channels.insert number ⟨peer, now + terms.channelLifetime⟩ }

def owned (user : String) : Option Lease → Except PacketError Lease
  | none => .error .invalidInput
  | some lease => if lease.user = user then .ok lease else .error .integrityFailed

def serve (terms : Terms) (now : Nat) (entry : Option Lease) : TableRequest → TableAnswer × Option Lease
  | .allocate user lifetime =>
    match entry with
    | none => (.created terms.relayIp, some ⟨user, now, now + lifetime, ∅, ∅⟩)
    | some lease =>
      if lease.user = user then (.extended true, some (lease.extend (now + lifetime)))
      else (.refused .integrityFailed, entry)
  | .refresh user lifetime =>
    match owned user entry with
    | .error e => (.refused e, entry)
    | .ok lease =>
      if lifetime = 0 then (.deleted lease.tenancy, none)
      else (.refreshed, some (lease.extend (now + lifetime)))
  | .permit user peer =>
    match owned user entry with
    | .error e => (.refused e, entry)
    | .ok lease => (.flag !(lease.permissions.contains peer), some (lease.permit terms now peer))
  | .bindChannel user number peer =>
    match owned user entry with
    | .error e => (.refused e, entry)
    | .ok lease =>
      if isChannelNumber number && lease.admits number peer then
        (.flag !(lease.channels.contains number), some (lease.bind terms now number peer))
      else (.refused .invalidInput, entry)
  | .touch peer =>
    match entry.filter (·.permissions.contains peer) with
    | some lease => (.flag true, some (lease.permit terms now peer))
    | none => (.flag false, entry)
  | .find | .findByPort => (.found (entry.map tenancy), entry)
  | .isPermitted peer => (.flag (entry.any (·.permissions.contains peer)), entry)
  | .peerOf number => (.peer (entry.bind fun lease => (lease.channels.get? number).map (·.peer)), entry)

theorem serve_of_owned_error {terms : Terms} {now : Nat} {entry : Option Lease} {request : TableRequest}
    {user : String} {e : PacketError} (howner : request.owner? = some user)
    (h : owned user entry = .error e) : serve terms now entry request = (.refused e, entry) := by
  cases request with
  | refresh | permit | bindChannel =>
    cases howner
    simp only [serve, h]
  | allocate | touch | find | findByPort | isPermitted | peerOf => cases howner

end Lease

structure Leases where
  entries : Dictionary FiveTuple Lease
  terms : Terms
  deriving DecidableEq

namespace Leases

def pass (now : Nat) (leases : Leases) : Leases :=
  { leases with
    entries := (leases.entries.filter fun _ lease => now < lease.ends).map (·.remains now) }

def put (tuple : FiveTuple) (entry : Option Lease) (leases : Leases) : Leases :=
  match entry with
  | some lease => { leases with entries := leases.entries.insert tuple lease }
  | none => { leases with entries := leases.entries.erase tuple }

def serve (now : Nat) (tuple : FiveTuple) (request : TableRequest) (leases : Leases) :
    TableAnswer × Leases :=
  let left := leases.pass now
  let (answer, entry) := Lease.serve leases.terms now (left.entries.get? tuple) request
  (answer, left.put tuple entry)

/-- The answers to a script. There is nothing to reap. -/
def answers : Leases → Script → List TableAnswer
  | _, [] => []
  | leases, (now, .ask tuple request) :: script =>
    let (answer, next) := leases.serve now tuple request
    answer :: next.answers script
  | leases, (_, .reap) :: script => leases.answers script

theorem get?_pass (leases : Leases) (now : Nat) (tuple : FiveTuple) :
    (leases.pass now).entries.get? tuple = Lease.fade now (leases.entries.get? tuple) := by
  rw [pass, Dictionary.get?_map, Dictionary.get?_filter, Lease.fade]

theorem get?_put (leases : Leases) (tuple other : FiveTuple) (entry : Option Lease) :
    (leases.put tuple entry).entries.get? other =
      if other = tuple then entry else leases.entries.get? other := by
  cases entry with
  | some lease => exact Dictionary.get?_insert ..
  | none => exact Dictionary.get?_erase ..

@[simp] theorem terms_put (leases : Leases) (tuple : FiveTuple) (entry : Option Lease) :
    (leases.put tuple entry).terms = leases.terms := by
  cases entry <;> rfl

end Leases

def Allocation.lease (a : Allocation) : Lease :=
  ⟨a.username, a.created, a.ends, a.permissions.entries, a.channels.bindings⟩

def AllocationTable.terms (table : AllocationTable) : Terms :=
  ⟨table.relayIp, table.permissionLifetime, table.channelLifetime⟩

def AllocationTable.leases (table : AllocationTable) : Leases :=
  ⟨table.allocations.map Allocation.lease, table.terms⟩

end TurnRelay
