import TurnRelay.Proofs.Site.Reception

namespace TurnRelay

theorem code?_of_verifyIntegrity_error {raw key : Bytes} {e : PacketError}
    (h : verifyIntegrity raw key = .error e) : e.code? ≠ none := by
  simp only [verifyIntegrity] at h
  split at h
  · cases h
    exact nofun
  · split at h
    · cases h
      exact nofun
    · split at h
      · cases h
      · cases h
        exact nofun

theorem Credential.code?_of_confirm_error {realm name : String} {raw : Bytes} {password : Option String}
    {e : PacketError} (h : confirm realm name raw password = .error e) : e.code? ≠ none := by
  cases password with
  | none =>
    cases h
    exact nofun
  | some secret =>
    cases hverify : verifyIntegrity raw (longTermKey name realm secret) with
    | error cause =>
      simp only [confirm, hverify] at h
      cases h
      exact code?_of_verifyIntegrity_error hverify
    | ok checked =>
      simp only [confirm, hverify] at h
      cases h

theorem AllocationTable.code?_of_owned_error {table : AllocationTable} {tuple : FiveTuple} {user : String}
    {now : Nat} {e : PacketError} (h : table.owned tuple user now = .error e) : e.code? ≠ none := by
  unfold owned at h
  split at h
  · cases h
    exact nofun
  · split at h
    · cases h
    · cases h
      exact nofun

theorem milliseconds_eq_zero_iff {seconds : UInt32} : milliseconds seconds = 0 ↔ seconds = 0 := by
  rw [milliseconds, ← UInt32.toNat_inj, UInt32.toNat_zero]
  omega

inductive Command.Requested (config : Config) (relayIp : IpAddress) (m : Message) :
    Procedure → Command → Prop
  | allocate : m.requestedTransport? = some udpProtocol →
      m.requestedFamily?.all (· = relayIp.family) = true →
      Requested config relayIp m .allocate (.allocate (config.grantedLifetime m.lifetime?))
  | refresh : Requested config relayIp m .refresh
      (.refresh (if m.lifetime? = some 0 then 0 else config.grantedLifetime m.lifetime?))
  | permit : m.peers ≠ [] → (∀ peer ∈ m.peers, peer.ip.family = relayIp.family) →
      Requested config relayIp m .createPermission (.permit m.peers)
  | bindChannel {number : UInt16} {peer : TransportAddress} : m.channelNumber? = some number →
      m.peers.head? = some peer → peer.ip.family = relayIp.family →
      Requested config relayIp m .channelBind (.bindChannel number peer)

namespace Command

variable {config : Config} {relayIp : IpAddress} {m : Message} {procedure : Procedure}
  {command : Command}

theorem ofRequest_spec (h : ofRequest config relayIp m procedure = .ok command) :
    Requested config relayIp m procedure command := by
  cases procedure with
  | allocate =>
    simp only [ofRequest, ofAllocate] at h
    split at h
    · cases h
    · next htransport =>
      split at h
      · next hfamily =>
        cases h
        exact .allocate (Decidable.not_not.1 htransport) hfamily
      · cases h
  | refresh =>
    cases h
    exact .refresh
  | createPermission =>
    simp only [ofRequest, ofCreatePermission] at h
    split at h
    · cases h
    · next hpeers =>
      split at h
      · next hfamily =>
        cases h
        exact .permit (fun he => hpeers (List.isEmpty_iff.2 he)) (by simpa using hfamily)
      · cases h
  | channelBind =>
    simp only [ofRequest, ofChannelBind] at h
    split at h
    · next hnumber hpeer =>
      split at h
      · next hfamily =>
        cases h
        exact .bindChannel hnumber hpeer hfamily
      · cases h
    · cases h

theorem Requested.ofRequest_eq (h : Requested config relayIp m procedure command) :
    ofRequest config relayIp m procedure = .ok command := by
  cases h with
  | allocate htransport hfamily => simp [ofRequest, ofAllocate, htransport, hfamily]
  | refresh => rfl
  | permit hpeers hfamily => simpa [ofRequest, ofCreatePermission, hpeers] using hfamily
  | bindChannel hnumber hpeer hfamily => simp [ofRequest, ofChannelBind, hnumber, hpeer, hfamily]

theorem code?_of_ofRequest_error {e : PacketError} (h : ofRequest config relayIp m procedure = .error e) :
    e.code? ≠ none := by
  cases procedure with
  | allocate =>
    simp only [ofRequest, ofAllocate] at h
    split at h
    · cases h
      exact nofun
    · split at h
      · cases h
      · cases h
        exact nofun
  | refresh => cases h
  | createPermission =>
    simp only [ofRequest, ofCreatePermission] at h
    split at h
    · cases h
      exact nofun
    · split at h
      · cases h
      · cases h
        exact nofun
  | channelBind =>
    simp only [ofRequest, ofChannelBind] at h
    split at h
    · split at h
      · cases h
      · cases h
        exact nofun
    · cases h
      exact nofun

theorem Requested.ne_permit_nil (h : Requested config relayIp m procedure command) :
    command ≠ .permit [] := by
  cases h with
  | allocate _ _ => exact Command.noConfusion
  | refresh => exact Command.noConfusion
  | permit hpeers _ => exact fun he => hpeers (Command.permit.inj he)
  | bindChannel _ _ _ => exact Command.noConfusion

theorem Requested.eq_allocate {seconds : UInt32}
    (h : Requested config relayIp m procedure (.allocate seconds)) :
    procedure = .allocate ∧ seconds = config.grantedLifetime m.lifetime? := by
  cases h
  exact ⟨rfl, rfl⟩

theorem Requested.eq_refresh {seconds : UInt32}
    (h : Requested config relayIp m procedure (.refresh seconds)) : procedure = .refresh ∧
      seconds = if m.lifetime? = some 0 then 0 else config.grantedLifetime m.lifetime? := by
  cases h
  exact ⟨rfl, rfl⟩

end Command

namespace Site

variable {s : Site} {source : TransportAddress} {user : String} {now : Nat}

/-- The ways in which a command of `user` at `source` is carried out or refused. -/
inductive Executed (random : Randomness) (s : Site) (source : TransportAddress) (user : String)
    (now : Nat) : Command → Step (Except PacketError (List Attribute)) → Prop
  | created {seconds : UInt32} {port : UInt16} {pool : PortPool} {draws : Draws} :
      (s.reaped now).endpoint.table.allocations.get? (s.endpoint.tuple source) = none →
      (s.reaped now).pool.draw random s.draws = (some (port, pool), draws) →
      Executed random s source user now (.allocate seconds)
        ⟨.ok (allocationAttributes (s.endpoint.table.relayIp.withPort port) source seconds),
          s.expiries now ++ [.allocated source user port],
          ({ (s.reaped now).setHoldings ((s.reaped now).holdings.grant (s.endpoint.tuple source) user port
            pool (milliseconds seconds) now) with draws := draws }).count
              fun stats => { stats with created := stats.created + 1 }⟩
  | extended {seconds : UInt32} {a : Allocation} :
      (s.reaped now).endpoint.table.allocations.get? (s.endpoint.tuple source) = some a →
      a.username = user →
      Executed random s source user now (.allocate seconds)
        ⟨.ok (allocationAttributes a.relay source seconds),
          s.expiries now ++ [.refreshed source user seconds],
          (s.reaped now).setTable ((s.reaped now).endpoint.table.put (s.endpoint.tuple source)
            (a.extend (now + milliseconds seconds)))⟩
  | occupied {seconds : UInt32} {a : Allocation} :
      (s.reaped now).endpoint.table.allocations.get? (s.endpoint.tuple source) = some a →
      a.username ≠ user →
      Executed random s source user now (.allocate seconds)
        ⟨.error .integrityFailed, s.expiries now, s.reaped now⟩
  | exhausted {seconds : UInt32} {draws : Draws} :
      (s.reaped now).endpoint.table.allocations.get? (s.endpoint.tuple source) = none →
      (s.reaped now).pool.draw random s.draws = (none, draws) →
      Executed random s source user now (.allocate seconds)
        ⟨.error .invalidInput, s.expiries now, { s.reaped now with draws := draws }⟩
  | disowned {command : Command} {e : PacketError} : (∀ seconds, command ≠ .allocate seconds) →
      s.endpoint.table.owned (s.endpoint.tuple source) user now = .error e →
      Executed random s source user now command ⟨.error e, [], s⟩
  | renewed {seconds : UInt32} {a : Allocation} : seconds ≠ 0 →
      s.endpoint.table.owned (s.endpoint.tuple source) user now = .ok a →
      Executed random s source user now (.refresh seconds)
        ⟨.ok [⟨.lifetime, .lifetime seconds⟩], [.refreshed source user seconds],
          s.setTable (s.endpoint.table.put (s.endpoint.tuple source)
            (a.extend (now + milliseconds seconds)))⟩
  | deleted {a : Allocation} :
      s.endpoint.table.owned (s.endpoint.tuple source) user now = .ok a →
      Executed random s source user now (.refresh 0)
        ⟨.ok [⟨.lifetime, .lifetime 0⟩], [.aborted source user],
          (s.setHoldings (s.holdings.remove (s.endpoint.tuple source)).2).count
            fun stats => { stats with removed := stats.removed + 1 }⟩
  | permitted {peers : List TransportAddress} {a : Allocation} : peers ≠ [] →
      s.endpoint.table.owned (s.endpoint.tuple source) user now = .ok a →
      Executed random s source user now (.permit peers)
        ⟨.ok [], peers.map (.permitted source user),
          s.setTable (s.endpoint.table.put (s.endpoint.tuple source)
            (a.permitEach (peers.map (·.ip)) now))⟩
  | bound {number : UInt16} {peer : TransportAddress} {a : Allocation} :
      s.endpoint.table.owned (s.endpoint.tuple source) user now = .ok a →
      (a.channels.reap now).admits number peer = true →
      Executed random s source user now (.bindChannel number peer)
        ⟨.ok [], [.channelBound source user number],
          s.setTable (s.endpoint.table.put (s.endpoint.tuple source)
            ({ a with channels := (a.channels.reap now).store number peer now }.permit peer.ip now))⟩
  | unbound {number : UInt16} {peer : TransportAddress} {a : Allocation} {channels : ChannelTable} :
      s.endpoint.table.owned (s.endpoint.tuple source) user now = .ok a →
      channels = a.channels ∨ channels = a.channels.reap now →
      Executed random s source user now (.bindChannel number peer)
        ⟨.error .invalidInput, [],
          s.setTable (s.endpoint.table.put (s.endpoint.tuple source) { a with channels := channels })⟩

def allocated (random : Randomness) (s : Site) (source : TransportAddress) (user : String)
    (seconds : UInt32) (now : Nat) : Except PacketError AllocateOutcome × Holdings × Draws :=
  (s.holdings.reap now).2.allocate random s.draws (s.endpoint.tuple source) user (milliseconds seconds)
    now

theorem allocate_eq (random : Randomness) (s : Site) (source : TransportAddress) (user : String)
    (seconds : UInt32) (now : Nat) :
    s.allocate random source user seconds now =
      match s.allocated random source user seconds now with
      | (outcome, h, draws) =>
        let after : Site := { (s.reaped now).setHoldings h with draws := draws }
        match outcome with
        | .error e => ⟨.error e, s.expiries now, after⟩
        | .ok (.created relay) =>
          ⟨.ok (allocationAttributes relay source seconds),
            s.expiries now ++ [.allocated source user relay.port],
            after.count fun stats => { stats with created := stats.created + 1 }⟩
        | .ok (.refreshed relay) =>
          ⟨.ok (allocationAttributes relay source seconds),
            s.expiries now ++ [.refreshed source user seconds], after⟩ := rfl

theorem allocate_spec (random : Randomness) (s : Site) (source : TransportAddress) (user : String)
    (seconds : UInt32) (now : Nat) :
    Executed random s source user now (.allocate seconds)
      (s.allocate random source user seconds now) := by
  have hspec := Holdings.allocate_spec random (s.reaped now).holdings s.draws
    (s.endpoint.tuple source) user (milliseconds seconds) now
  rw [holdings_reaped, Holdings.dropExpired_reap] at hspec
  change Holdings.Allocated _ _ _ _ _ _ _ (s.allocated random source user seconds now) at hspec
  rw [allocate_eq]
  generalize s.allocated random source user seconds now = result at hspec
  cases hspec with
  | refreshed ha huser => exact .extended ha huser
  | foreign ha huser => exact .occupied ha huser
  | exhausted hnone hdraw => exact .exhausted hnone hdraw
  | created hnone hdraw =>
    simp only [IpAddress.port_withPort]
    exact .created hnone hdraw

section Owned

variable {seconds : UInt32} {a : Allocation} {e : PacketError} {peers : List TransportAddress}

theorem refresh_of_error (h : s.endpoint.table.owned (s.endpoint.tuple source) user now = .error e) :
    s.refresh source user seconds now = ⟨.error e, [], s⟩ := by
  have howned : s.holdings.table.owned (s.endpoint.tuple source) user now = .error e := h
  simp only [refresh, Holdings.refresh_of_error howned]

theorem refresh_of_owned (h : s.endpoint.table.owned (s.endpoint.tuple source) user now = .ok a) :
    s.refresh source user seconds now =
      if seconds = 0 then
        ⟨.ok [⟨.lifetime, .lifetime 0⟩], [.aborted source user],
          (s.setHoldings (s.holdings.remove (s.endpoint.tuple source)).2).count
            fun stats => { stats with removed := stats.removed + 1 }⟩
      else
        ⟨.ok [⟨.lifetime, .lifetime seconds⟩], [.refreshed source user seconds],
          s.setTable (s.endpoint.table.put (s.endpoint.tuple source)
            (a.extend (now + milliseconds seconds)))⟩ := by
  have howned : s.holdings.table.owned (s.endpoint.tuple source) user now = .ok a := h
  by_cases hzero : seconds = 0
  · simp only [refresh, Holdings.refresh_of_owned howned, milliseconds_eq_zero_iff, if_pos hzero]
    rw [hzero]
  · simp only [refresh, Holdings.refresh_of_owned howned, milliseconds_eq_zero_iff, if_neg hzero]
    rfl

theorem permit_of_error (h : s.endpoint.table.owned (s.endpoint.tuple source) user now = .error e)
    (hne : peers ≠ []) : s.permit source user peers now = ⟨.error e, [], s⟩ := by
  rw [permit, AllocationTable.permitAll_of_error h (by simpa using hne)]

theorem permit_of_owned (h : s.endpoint.table.owned (s.endpoint.tuple source) user now = .ok a)
    (hne : peers ≠ []) :
    s.permit source user peers now =
      ⟨.ok [], peers.map (.permitted source user),
        s.setTable (s.endpoint.table.put (s.endpoint.tuple source)
          (a.permitEach (peers.map (·.ip)) now))⟩ := by
  rw [permit, AllocationTable.permitAll_of_owned h (by simpa using hne)]

variable {number : UInt16} {peer : TransportAddress}

theorem bindChannel_of_error
    (h : s.endpoint.table.owned (s.endpoint.tuple source) user now = .error e) :
    s.bindChannel source user number peer now = ⟨.error e, [], s⟩ := by
  simp only [bindChannel, AllocationTable.bindChannel, h]
  rfl

theorem bindChannel_of_owned
    (h : s.endpoint.table.owned (s.endpoint.tuple source) user now = .ok a) :
    s.bindChannel source user number peer now =
      match a.channels.bind number peer now with
      | (.error e, channels) =>
        ⟨.error e, [],
          s.setTable (s.endpoint.table.put (s.endpoint.tuple source) { a with channels := channels })⟩
      | (.ok _, channels) =>
        ⟨.ok [], [.channelBound source user number],
          s.setTable (s.endpoint.table.put (s.endpoint.tuple source)
            ({ a with channels := channels }.permit peer.ip now))⟩ := by
  simp only [bindChannel, AllocationTable.bindChannel, h]
  rcases a.channels.bind number peer now with ⟨bound, channels⟩
  cases bound <;> rfl

end Owned

theorem refresh_spec (random : Randomness) (s : Site) (source : TransportAddress) (user : String)
    (seconds : UInt32) (now : Nat) :
    Executed random s source user now (.refresh seconds) (s.refresh source user seconds now) := by
  cases h : s.endpoint.table.owned (s.endpoint.tuple source) user now with
  | error e =>
    rw [refresh_of_error h]
    exact .disowned (by simp) h
  | ok a =>
    rw [refresh_of_owned h]
    by_cases hzero : seconds = 0
    · rw [if_pos hzero, hzero]
      exact .deleted h
    · rw [if_neg hzero]
      exact .renewed hzero h

theorem permit_spec (random : Randomness) (s : Site) (source : TransportAddress) (user : String)
    {peers : List TransportAddress} (now : Nat) (hne : peers ≠ []) :
    Executed random s source user now (.permit peers) (s.permit source user peers now) := by
  cases h : s.endpoint.table.owned (s.endpoint.tuple source) user now with
  | error e =>
    rw [permit_of_error h hne]
    exact .disowned (by simp) h
  | ok a =>
    rw [permit_of_owned h hne]
    exact .permitted hne h

theorem bindChannel_spec (random : Randomness) (s : Site) (source : TransportAddress) (user : String)
    (number : UInt16) (peer : TransportAddress) (now : Nat) :
    Executed random s source user now (.bindChannel number peer)
      (s.bindChannel source user number peer now) := by
  cases h : s.endpoint.table.owned (s.endpoint.tuple source) user now with
  | error e =>
    rw [bindChannel_of_error h]
    exact .disowned (by simp) h
  | ok a =>
    rw [bindChannel_of_owned h]
    rcases a.channels.bind_cases number peer now with hbind | hbind | ⟨hadmits, hbind⟩
    · rw [hbind]
      exact .unbound h (.inl rfl)
    · rw [hbind]
      exact .unbound h (.inr rfl)
    · rw [hbind]
      exact .bound h hadmits

theorem execute_spec (random : Randomness) (s : Site) (source : TransportAddress) (user : String)
    (now : Nat) {command : Command} (hne : command ≠ .permit []) :
    Executed random s source user now command (s.execute random source user now command) := by
  cases command with
  | allocate seconds => exact allocate_spec random s source user seconds now
  | refresh seconds => exact refresh_spec random s source user seconds now
  | permit peers => exact permit_spec random s source user now fun he => hne (he ▸ rfl)
  | bindChannel number peer => exact bindChannel_spec random s source user number peer now

theorem Executed.code?_ne_none {random : Randomness} {command : Command} {e : PacketError}
    {step : Step (Except PacketError (List Attribute))}
    (h : Executed random s source user now command step) (herror : step.result = .error e) :
    e.code? ≠ none := by
  cases h with
  | created | extended | renewed | deleted | permitted | bound => cases herror
  | occupied | exhausted | unbound =>
    cases herror
    exact nofun
  | disowned _ howned =>
    cases herror
    exact AllocationTable.code?_of_owned_error howned

def sealed (s : Site) (lookup : Lookup) (key : Bytes) (result : Except PacketError (List Attribute)) :
    Answer := do
  let data ← (s.successOf lookup.request (← result)).encode (some key) true
  return some (.reply data)

inductive Resumed (random : Randomness) (s : Site) (lookup : Lookup) (password : Option String)
    (now : Nat) : Step Answer → Prop
  | refused (e : PacketError) : e.code? ≠ none →
      Resumed random s lookup password now ⟨.error e, [], s.countError⟩
  | executed {credential : Credential} {command : Command}
      {step : Step (Except PacketError (List Attribute))} :
      Credential.confirm s.endpoint.config.realm lookup.user lookup.raw password = .ok credential →
      Command.Requested s.endpoint.config s.endpoint.external.ip lookup.request lookup.procedure
        command →
      Executed random s lookup.source lookup.user now command step →
      Resumed random s lookup password now ((step.map (s.sealed lookup credential.key)).settled)

theorem resume_of_checked {lookup : Lookup} {password : Option String} {credential : Credential}
    {command : Command}
    (hconfirm : Credential.confirm s.endpoint.config.realm lookup.user lookup.raw password = .ok credential)
    (hcommand : Command.ofRequest s.endpoint.config s.endpoint.external.ip lookup.request
      lookup.procedure = .ok command) (random : Randomness) (now : Nat) :
    s.resume random lookup password now = ((s.execute random lookup.source lookup.user now command).map
      (s.sealed lookup credential.key)).settled := by
  simp only [resume, complete, hconfirm, hcommand]
  rfl

theorem resume_cases (random : Randomness) (s : Site) (lookup : Lookup) (password : Option String)
    (now : Nat) :
    (∃ e, e.code? ≠ none ∧ s.resume random lookup password now = ⟨.error e, [], s.countError⟩) ∨
      ∃ credential command,
        Credential.confirm s.endpoint.config.realm lookup.user lookup.raw password = .ok credential ∧
          Command.ofRequest s.endpoint.config s.endpoint.external.ip lookup.request lookup.procedure =
            .ok command := by
  cases hconfirm : Credential.confirm s.endpoint.config.realm lookup.user lookup.raw password with
  | error e =>
    refine .inl ⟨e, Credential.code?_of_confirm_error hconfirm, ?_⟩
    simp only [resume, complete, hconfirm]
    rfl
  | ok credential =>
    cases hcommand : Command.ofRequest s.endpoint.config s.endpoint.external.ip lookup.request
        lookup.procedure with
    | error e =>
      refine .inl ⟨e, Command.code?_of_ofRequest_error hcommand, ?_⟩
      simp only [resume, complete, hconfirm, hcommand]
      rfl
    | ok command => exact .inr ⟨credential, command, rfl, rfl⟩

theorem resume_spec (random : Randomness) (s : Site) (lookup : Lookup) (password : Option String)
    (now : Nat) : Resumed random s lookup password now (s.resume random lookup password now) := by
  rcases resume_cases random s lookup password now with
    ⟨e, hcode, hrefused⟩ | ⟨credential, command, hconfirm, hcommand⟩
  · rw [hrefused]
    exact .refused e hcode
  · have hrequested := Command.ofRequest_spec hcommand
    have hstep := execute_spec random s lookup.source lookup.user now hrequested.ne_permit_nil
    rw [resume_of_checked hconfirm hcommand]
    exact .executed hconfirm hrequested hstep

inductive Delivered (random : Randomness) (s : Site) (port : UInt16) (peer : TransportAddress)
    (payload : Bytes) (now : Nat) : Step (Option Response) → Prop
  | oversize : Delivered random s port peer payload now ⟨none, [], s⟩
  | dropped {draws : Draws} : Delivered random s port peer payload now
      ⟨none, s.expiries now, { s.reaped now with draws := draws }⟩
  | delivered {a : Allocation} {data : Bytes} {framing : Framing} {draws : Draws} :
      (s.reaped now).endpoint.table.findByPort? port now = some a →
      a.isPermitted peer.ip now = true →
      Delivered random s port peer payload now
        ⟨some (.relayed data framing a.tuple.client s.endpoint.interface), s.expiries now,
          { s.reaped now with draws := draws }.countRelayed payload⟩

theorem wrap_site (random : Randomness) (s : Site) (a : Allocation) (peer : TransportAddress)
    (payload : Bytes) (now : Nat) :
    ∃ draws, (s.wrap random a peer payload now).2 = { s with draws := draws } := by
  unfold wrap
  cases a.channels.number? peer now with
  | some number => exact ⟨s.draws, rfl⟩
  | none => exact ⟨_, rfl⟩

theorem deliver_spec (random : Randomness) (s : Site) (port : UInt16) (peer : TransportAddress)
    (payload : Bytes) (now : Nat) :
    Delivered random s port peer payload now (s.deliver random port peer payload now) := by
  unfold deliver
  split
  · exact .oversize
  · simp only [reap_eq]
    cases hfind : (s.reaped now).endpoint.table.findByPort? port now with
    | none => exact .dropped
    | some a =>
      by_cases hpermitted : a.isPermitted peer.ip now = true
      · obtain ⟨draws, hdraws⟩ := wrap_site random (s.reaped now) a peer payload now
        rcases hwrap : (s.reaped now).wrap random a peer payload now with ⟨wrapped, after⟩
        rw [hwrap] at hdraws
        cases hdraws
        simp only [if_pos hpermitted, hwrap]
        cases wrapped with
        | none => exact .dropped
        | some wrapped => exact .delivered hfind hpermitted
      · simp only [if_neg hpermitted]
        exact .dropped

end Site

end TurnRelay
