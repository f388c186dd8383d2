import TurnRelay.Proofs.Message.Packet
import TurnRelay.Proofs.Site.Ownership
import TurnRelay.Proofs.Site.Replies
import TurnRelay.Proofs.Table.Atomicity

/-!
A CreatePermission request installs all the permissions that it lists, or none. The permissions are
installed peer by peer, and each looks for the allocation anew. At one instant all of them find the
same, so only the first could fail, and nothing was changed before it.
-/

namespace TurnRelay

namespace AllocationTable

variable {table : AllocationTable} {tuple : FiveTuple} {user : String} {now : Nat} {a : Allocation}
  {peers : List IpAddress} {e : PacketError}

/-- Peer by peer, up to the first that fails. What was done before it stays done. -/
def permitAllInPlace (tuple : FiveTuple) (user : String) (now : Nat) :
    List IpAddress → AllocationTable → Except PacketError Unit × AllocationTable
  | [], table => (.ok (), table)
  | peer :: peers, table =>
    match table.permitInPlace tuple user peer now with
    | (.error e, table) => (.error e, table)
    | (.ok _, table) => permitAllInPlace tuple user now peers table

theorem permitAllInPlace_of_error (h : table.owned tuple user now = .error e) (hne : peers ≠ []) :
    permitAllInPlace tuple user now peers table = (.error e, table) := by
  cases peers with
  | nil => exact absurd rfl hne
  | cons peer peers => simp only [permitAllInPlace, permitInPlace, h]

theorem permitAllInPlace_of_owned (h : table.owned tuple user now = .ok a) (hne : peers ≠ []) :
    permitAllInPlace tuple user now peers table = (.ok (), table.put tuple (a.permitEach peers now)) := by
  induction peers generalizing table a with
  | nil => exact absurd rfl hne
  | cons peer peers ih =>
    have hstep : permitAllInPlace tuple user now (peer :: peers) table =
        permitAllInPlace tuple user now peers (table.put tuple (a.permit peer now)) := by
      simp only [permitAllInPlace, permitInPlace, h]
    rw [hstep]
    cases peers with
    | nil => rfl
    | cons next peers =>
      -- the entry that was just written is live and of the same user
      rw [ih (owned_put_permit peer h) (List.cons_ne_nil _ _), put_put]
      rfl

end AllocationTable

namespace Site

variable {random : Randomness} {s : Site} {source : TransportAddress} {user : String} {now : Nat}
  {raw : Bytes} {request : Message} {lookup : Lookup} {password : Option String}

def permitInPlace (s : Site) (source : TransportAddress) (user : String) (peers : List TransportAddress)
    (now : Nat) : Step (Except PacketError (List Attribute)) :=
  match AllocationTable.permitAllInPlace (s.endpoint.tuple source) user now (peers.map (·.ip))
      s.endpoint.table with
  | (.error e, table) => ⟨.error e, [], s.setTable table⟩
  | (.ok (), table) => ⟨.ok [], peers.map (.permitted source user), s.setTable table⟩

theorem permitInPlace_eq (s : Site) (source : TransportAddress) (user : String)
    (peers : List TransportAddress) (now : Nat) :
    s.permitInPlace source user peers now = s.permit source user peers now := by
  by_cases hne : peers = []
  · rw [hne]
    rfl
  · have hips : peers.map (·.ip) ≠ [] := by simpa using hne
    cases howned : s.endpoint.table.owned (s.endpoint.tuple source) user now with
    | error e =>
      rw [permitInPlace, AllocationTable.permitAllInPlace_of_error howned hips, permit_of_error howned hne]
      rfl
    | ok a =>
      rw [permitInPlace, AllocationTable.permitAllInPlace_of_owned howned hips,
        permit_of_owned howned hne]

structure InstallsNothing {α : Type} (now : Nat) (s : Site) (step : Step α) : Prop where
  faded : ∀ tuple, Faded now (s.endpoint.table.allocations.get? tuple)
    (step.site.endpoint.table.allocations.get? tuple)
  silent : ∀ client user peer, Event.permitted client user peer ∉ step.events

structure Installs (now : Nat) (s : Site) (lookup : Lookup) (a b : Allocation) (step : Step Answer) :
    Prop where
  owned : s.endpoint.table.owned (s.endpoint.tuple lookup.source) lookup.user now = .ok a
  nonempty : lookup.request.peers ≠ []
  family : ∀ peer ∈ lookup.request.peers, peer.ip.family = a.relay.ip.family
  holdings_eq : step.site.holdings =
    { s.holdings with table := s.endpoint.table.put (s.endpoint.tuple lookup.source) b }
  entry_eq : b = { a with permissions := b.permissions }
  lifetime_eq : b.permissions.lifetime = a.permissions.lifetime
  permissions : ∀ ip, b.permissions.get? ip =
    if ip ∈ lookup.request.peers.map (·.ip) then
      some (now + milliseconds s.endpoint.config.permissionLifetime)
    else a.permissions.get? ip
  events : step.events = lookup.request.peers.map (.permitted lookup.source lookup.user)

theorem not_permitted_mem_expiries (s : Site) (now : Nat) (client : TransportAddress) (user : String)
    (peer : TransportAddress) : Event.permitted client user peer ∉ s.expiries now := by
  simp [expiries]

theorem Received.createPermission {step : Step Progress} (h : Received s raw source now step)
    (hs : s.Sound) (hdecode : Packet.decode raw = .ok (.message request))
    (htype : request.type = ⟨.createPermission, .request⟩) :
    s.InstallsNothing now step ∧ ((∃ e, step.result = .done (.error e)) ∨
      ∃ user, step.result = .waiting ⟨.createPermission, request, raw, source, user⟩) := by
  have hfaded (tuple : FiveTuple) : Faded now (s.endpoint.table.allocations.get? tuple)
      ((s.opened now).endpoint.table.allocations.get? tuple) := by
    rw [get?_opened]
    exact faded_kept hs now tuple
  have hsilent := not_permitted_mem_expiries s now
  have hprocedure : request.type = procedureType .createPermission := htype
  rcases h.of_procedure hdecode hprocedure with ⟨e, rfl⟩ | ⟨user, -, rfl⟩
  · exact ⟨⟨hfaded, hsilent⟩, .inl ⟨e, rfl⟩⟩
  · exact ⟨⟨hfaded, fun client other peer => by simp [hsilent]⟩, .inr ⟨user, rfl⟩⟩

theorem Resumed.createPermission {step : Step Answer} (h : Resumed random s lookup password now step)
    (hs : s.Sound) (hdecode : Message.decode lookup.raw = .ok lookup.request)
    (hprocedure : lookup.procedure = .createPermission)
    (hsoftware : (Utf8.encode s.endpoint.config.software).length ≤ 65000) :
    ((∃ e, step.result = .error e) ∧ s.InstallsNothing now step) ∨
      ∃ data a b, step.result = .ok (some (.reply data)) ∧ s.Installs now lookup a b step := by
  cases h with
  | refused e => exact .inl ⟨⟨e, rfl⟩, fun _ => .refl _, fun _ _ _ => List.not_mem_nil⟩
  | @executed credential command inner _ hrequested hexecuted =>
    rw [hprocedure] at hrequested
    cases hrequested with
    | permit hnonempty hfamily =>
    cases hexecuted with
    | @disowned _ e _ _ =>
      exact .inl ⟨⟨e, Step.result_settled _⟩, fun _ => .refl _, fun _ _ _ => List.not_mem_nil⟩
    | @permitted _ a _ howned =>
      have ha := (AllocationTable.stored_of_owned howned).1
      have hfits := hs.holdings.wellFormed.fits ha
      obtain ⟨data, -, hsealed, -⟩ :=
        exists_sealed hdecode (Attribute.Sendable.nil.mono (Nat.zero_le 56)) hsoftware credential.key
      refine .inr ⟨data, a, a.permitEach (lookup.request.peers.map (·.ip)) now, ?_, howned, hnonempty,
        ?_, ?_, Allocation.permitEach_eq .., Allocation.lifetime_permitEach .., fun ip => ?_,
        Step.events_settled _⟩
      · rw [Step.result_settled]
        exact hsealed
      · rw [hs.relay_ip ha]
        exact hfamily
      · rw [Step.holdings_settled]
        rfl
      · have hlifetime : a.permissions.lifetime = milliseconds s.endpoint.config.permissionLifetime :=
          hfits.permission_lifetime.trans hs.permission_lifetime
        rw [Allocation.get?_permitEach, hlifetime]

end Site

/-- Whatever happened while its password was asked for, a CreatePermission request fails and installs
nothing, or succeeds and installs all that it lists. That permissions are installed one by one makes no
difference to what a request leaves behind. -/
theorem Run.permissions_all_or_none {random : Randomness} {log : List Record} {m : Moment}
    (h : Run random log m) (hsoftware : (Utf8.encode m.site.endpoint.config.software).length ≤ 65000) :
    (∀ raw source request, Packet.decode raw = .ok (.message request) →
      request.type = ⟨.createPermission, .request⟩ → let step := m.site.receive raw source m.now
      m.site.InstallsNothing m.now step ∧ ((∃ e, step.result = .done (.error e)) ∨
        ∃ user, step.result = .waiting ⟨.createPermission, request, raw, source, user⟩)) ∧
    (∀ lookup ∈ m.waiting, lookup.procedure = .createPermission → ∀ password,
      let step := m.site.resume random lookup password m.now
      ((∃ e, step.result = .error e) ∧ m.site.InstallsNothing m.now step) ∨
        ∃ data a b, step.result = .ok (some (.reply data)) ∧ m.site.Installs m.now lookup a b step) ∧
    ∀ source user peers, m.site.permit source user peers m.now =
      m.site.permitInPlace source user peers m.now := by
  have hs := h.sound.site
  refine ⟨fun raw source request hdecode htype => ?_, fun lookup hlookup hprocedure password => ?_,
    fun source user peers => (Site.permitInPlace_eq ..).symm⟩
  · exact (Site.receive_spec m.site raw source m.now).createPermission hs hdecode htype
  · have hdecode := Packet.decode_eq_message_iff.1 (h.sound.genuine lookup hlookup).decoded
    exact (Site.resume_spec random m.site lookup password m.now).createPermission hs hdecode hprocedure
      hsoftware

namespace Sample

def permissions : List Attribute :=
  [⟨.xorPeerAddress, .xorPeerAddress peer⟩, ⟨.xorPeerAddress, .xorPeerAddress (.v4 0xCB007109 7001)⟩,
    ⟨.xorPeerAddress, .xorPeerAddress (.v4 0xCB00710A 7000)⟩]

def listingCalls : List Call :=
  [ask .allocate allocation, answer .allocate allocation, ask .createPermission permissions]

def listing : Moment := start.play random listingCalls

end Sample

open Sample in
theorem permissions_all_or_none_sample :
    (Utf8.encode listing.site.endpoint.config.software).length ≤ 65000 ∧
      lookup .createPermission permissions ∈ listing.waiting ∧
      let step := listing.site.resume random (lookup .createPermission permissions) (some "secret") listing.now
      ∃ data a b, step.result = .ok (some (.reply data)) ∧
        listing.site.Installs listing.now (lookup .createPermission permissions) a b step := by
  obtain ⟨hplays, hsoftware, hlookup, hok⟩ : start.Plays random listingCalls ∧
      (Utf8.encode listing.site.endpoint.config.software).length ≤ 65000 ∧
      lookup .createPermission permissions ∈ listing.waiting ∧
      (listing.site.resume random (lookup .createPermission permissions) (some "secret")
        listing.now).result.isOk = true := by
    decide +kernel
  refine ⟨hsoftware, hlookup, ?_⟩
  have hrun : Run random (start.records random listingCalls []) listing := run_start.play hplays
  rcases (Run.permissions_all_or_none hrun hsoftware).2.1 _ hlookup rfl (some "secret") with
    ⟨⟨e, herror⟩, -⟩ | hinstalls
  · rw [herror] at hok
    cases hok
  · exact hinstalls

end TurnRelay
