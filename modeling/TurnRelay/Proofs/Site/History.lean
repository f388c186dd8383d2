import TurnRelay.Proofs.Site.Run

namespace TurnRelay

structure Lookup.Authentic (lookup : Lookup) (realm : String) (password : Option String)
    (client : TransportAddress) (user : String) : Prop where
  source_eq : lookup.source = client
  decoded : Packet.decode lookup.raw = .ok (.message lookup.request)
  named : lookup.request.username? = some user
  verified : ∃ secret, password = some secret ∧
    verifyIntegrity lookup.raw (longTermKey user realm secret) = .ok ()

theorem Credential.verified_of_confirm {realm name : String} {raw : Bytes} {password : Option String}
    {credential : Credential} (h : confirm realm name raw password = .ok credential) :
    ∃ secret, password = some secret ∧ verifyIntegrity raw (longTermKey name realm secret) = .ok () := by
  cases password with
  | none => cases h
  | some secret =>
    refine ⟨secret, rfl, ?_⟩
    simp only [confirm, bind, Except.bind] at h
    split at h
    · cases h
    · next hverify => exact hverify

theorem Lookup.Genuine.authentic {realm : String} {lookup : Lookup} {password : Option String}
    {credential : Credential} (h : lookup.Genuine realm)
    (hconfirm : Credential.confirm realm lookup.user lookup.raw password = .ok credential) :
    lookup.Authentic realm password lookup.source lookup.user :=
  ⟨rfl, h.decoded, (Credential.claimant_eq_ok_iff.1 h.claimed).2.1, Credential.verified_of_confirm hconfirm⟩

def Event.Turns (client : TransportAddress) : Event → Prop
  | .allocated owner _ _ => owner = client
  | .aborted owner _ => owner = client
  | _ => False

def Event.Permits (client : TransportAddress) : Event → Prop
  | .permitted owner _ _ => owner = client
  | .channelBound owner _ _ => owner = client
  | _ => False

def Outcome.route? : Outcome → Option Route
  | .progress (.done (.ok (some sent))) => sent.route
  | .answer (.ok (some sent)) => sent.route
  | .response (some sent) => sent.route
  | _ => none

namespace Record

inductive Passes (client peer : TransportAddress) (port : UInt16) (r : Record) : Prop
  | outward {raw : Bytes} {origin : TransportAddress} : r.call = .receive raw client →
      r.outcome.route? = some ⟨peer, origin⟩ → origin.port = port → Passes client peer port r
  | inward {payload : Bytes} {origin : TransportAddress} : r.call = .deliver port peer payload →
      r.outcome.route? = some ⟨client, origin⟩ → Passes client peer port r

/-- A request of `client`, authenticated as `user`, names `peer` and is applied. -/
inductive Grants (realm : String) (client : TransportAddress) (user : String)
    (peer : TransportAddress) (r : Record) : Prop
  | permission {lookup : Lookup} {password : Option String} : r.call = .resume lookup password →
      lookup.Authentic realm password client user →
      lookup.request.type = ⟨.createPermission, .request⟩ → peer ∈ lookup.request.peers →
      .permitted client user peer ∈ r.events → Grants realm client user peer r
  | channel {lookup : Lookup} {password : Option String} {number : UInt16} :
      r.call = .resume lookup password → lookup.Authentic realm password client user →
      lookup.request.type = ⟨.channelBind, .request⟩ → lookup.request.peers.head? = some peer →
      lookup.request.channelNumber? = some number → .channelBound client user number ∈ r.events →
      Grants realm client user peer r

/-- A granted request names `ip`, or a Send indication to it is relayed. -/
inductive Renews (realm : String) (client : TransportAddress) (ip : IpAddress) (r : Record) : Prop
  | granted {user : String} {peer : TransportAddress} : r.Grants realm client user peer →
      peer.ip = ip → Renews realm client ip r
  | sent {raw : Bytes} {m : Message} {peer origin : TransportAddress} : r.call = .receive raw client →
      Packet.decode raw = .ok (.message m) → m.type = ⟨.send, .indication⟩ →
      m.peers.head? = some peer → r.outcome.route? = some ⟨peer, origin⟩ → peer.ip = ip →
      Renews realm client ip r

def Creates (client : TransportAddress) (a : Allocation) (r : Record) : Prop :=
  r.time = a.created ∧ .allocated client a.username a.relay.port ∈ r.events

def Keeps (client : TransportAddress) (r : Record) : Prop := ∀ event ∈ r.events, ¬ event.Turns client

variable {realm : String} {client : TransportAddress} {user : String} {peer : TransportAddress}
  {ip : IpAddress} {r : Record}

theorem Grants.permits (h : r.Grants realm client user peer) : ∃ event ∈ r.events, event.Permits client := by
  cases h with
  | permission _ _ _ _ hevent => exact ⟨_, hevent, rfl⟩
  | channel _ _ _ _ _ hevent => exact ⟨_, hevent, rfl⟩

theorem not_renews (hevents : ∀ event ∈ r.events, ¬ event.Permits client)
    (hroute : ∀ raw, r.call = .receive raw client → r.outcome.route? = none) :
    ¬ r.Renews realm client ip := by
  intro h
  cases h with
  | granted hgrants _ =>
    obtain ⟨event, hmem, hpermits⟩ := hgrants.permits
    exact hevents event hmem hpermits
  | sent hcall _ _ _ hsent _ =>
    rw [hroute _ hcall] at hsent
    cases hsent

end Record

def Latest (P : Record → Prop) (log : List Record) (r : Record) : Prop :=
  ∃ newer older, log = newer ++ r :: older ∧ P r ∧ ∀ other ∈ newer, ¬ P other

theorem Latest.head {P : Record → Prop} {log : List Record} {r : Record} (h : P r) :
    Latest P (r :: log) r :=
  ⟨[], log, rfl, h, fun _ hmem => absurd hmem List.not_mem_nil⟩

theorem Latest.cons {P : Record → Prop} {log : List Record} {r other : Record} (h : Latest P log r)
    (hother : ¬ P other) : Latest P (other :: log) r := by
  obtain ⟨newer, older, rfl, hr, hnewer⟩ := h
  refine ⟨other :: newer, older, rfl, hr, ?_⟩
  intro third hmem
  cases hmem with
  | head => exact hother
  | tail _ hmem => exact hnewer third hmem

theorem Latest.mem {P : Record → Prop} {log : List Record} {r : Record} (h : Latest P log r) : r ∈ log := by
  obtain ⟨newer, older, rfl, _, _⟩ := h
  exact List.mem_append_right _ List.mem_cons_self

/-- `since` is what the log has of the time since `a` was created for `client`. -/
def Tenure (client : TransportAddress) (a : Allocation) (since log : List Record) : Prop :=
  ∃ creation before, log = since ++ creation :: before ∧ creation.Creates client a ∧
    ∀ r ∈ since, r.Keeps client

structure Backed (realm : String) (client : TransportAddress) (a : Allocation) (ip : IpAddress)
    (ends : Nat) (since : List Record) : Prop where
  family : ip.family = a.relay.ip.family
  granted : ∃ r ∈ since, ∃ peer, r.Grants realm client a.username peer ∧ peer.ip = ip
  renewed : ∃ r, Latest (Record.Renews realm client ip) since r ∧ ends = r.time + a.permissions.lifetime

end TurnRelay
