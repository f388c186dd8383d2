import TurnRelay.Proofs.Site.Channels
import TurnRelay.Proofs.Site.Upkeep
import TurnRelay.Proofs.Table.Tidy

namespace TurnRelay

variable {now : Nat}

def Message.isRelease (m : Message) : Bool := m.type = ⟨.refresh, .request⟩ ∧ m.lifetime? = some 0

namespace Command

/-- The allocation has what the command, carried out at `now`, gives it. -/
def Fulfilled (now : Nat) (a : Allocation) : Command → Prop
  | allocate seconds => a.ends = now + milliseconds seconds
  | refresh seconds => seconds ≠ 0 ∧ a.ends = now + milliseconds seconds
  | permit peers => peers ≠ [] ∧ ∀ peer ∈ peers,
      a.permissions.get? peer.ip = some (now + a.permissions.lifetime)
  | bindChannel number peer =>
      a.channels.get? number = some ⟨peer, now + a.channels.lifetime⟩ ∧
        a.permissions.get? peer.ip = some (now + a.permissions.lifetime)

def answer (relay source : TransportAddress) : Command → List Attribute
  | allocate seconds => Site.allocationAttributes relay source seconds
  | refresh seconds => [⟨.lifetime, .lifetime seconds⟩]
  | permit _ | bindChannel _ _ => []

/-- What the host hears when the command only extends what there is. -/
def notices (source : TransportAddress) (user : String) : Command → List Event
  | allocate seconds | refresh seconds => [.refreshed source user seconds]
  | permit peers => peers.map (.permitted source user)
  | bindChannel number _ => [.channelBound source user number]

variable {a : Allocation} {command : Command}

theorem Fulfilled.sweep (h : command.Fulfilled now a) (hpermissions : 0 < a.permissions.lifetime)
    (hchannels : 0 < a.channels.lifetime) : command.Fulfilled now (a.sweep now) := by
  have hpermission : ∀ {ip}, a.permissions.get? ip = some (now + a.permissions.lifetime) →
      (a.sweep now).permissions.get? ip = some (now + a.permissions.lifetime) := fun hip =>
    Allocation.get?_sweep.2 ⟨hip, Nat.lt_add_of_pos_right hpermissions⟩
  cases command with
  | allocate seconds => exact h
  | refresh seconds => exact h
  | permit peers => exact ⟨h.1, fun peer hpeer => hpermission (h.2 peer hpeer)⟩
  | bindChannel number peer =>
    refine ⟨?_, hpermission h.2⟩
    have hlive : (⟨peer, now + a.channels.lifetime⟩ : ChannelBinding).isExpired now = false :=
      decide_eq_false (Nat.not_le.2 (Nat.lt_add_of_pos_right hchannels))
    change (a.channels.reap now).get? number = _
    rw [ChannelTable.get?_reap, h.1, Option.filter_some, hlive]
    rfl

end Command

theorem Allocation.Granting.lasts {config : Config} {a : Allocation} (h : a.Granting config)
    (hconfig : config.hasZeroLifetime = false) :
    0 < a.permissions.lifetime ∧ 0 < a.channels.lifetime := by
  simp only [Config.hasZeroLifetime, Bool.or_eq_false_iff, decide_eq_false_iff_not] at hconfig
  rw [h.permission_lifetime, h.channel_lifetime]
  exact ⟨Nat.pos_of_ne_zero (mt milliseconds_eq_zero_iff.1 hconfig.1.2),
    Nat.pos_of_ne_zero (mt milliseconds_eq_zero_iff.1 hconfig.2)⟩

namespace Site

variable {random other : Randomness} {s : Site} {source : TransportAddress} {user : String}
  {command : Command} {attributes : List Attribute} {a : Allocation} {lookup : Lookup}
  {password : Option String} {response : Option Response}

structure Fulfils (s : Site) (source : TransportAddress) (user : String) (now : Nat) (command : Command)
    (attributes : List Attribute) (a : Allocation) : Prop where
  owned : s.endpoint.table.owned (s.endpoint.tuple source) user now = .ok a
  fulfilled : command.Fulfilled now a
  attributes_eq : attributes = command.answer a.relay source

section Executed

variable {step : Step (Except PacketError (List Attribute))} {m : Message} {procedure : Procedure}
  {relayIp : IpAddress} (h : Executed random s source user now command step)
  (hrequested : Command.Requested s.endpoint.config relayIp m procedure command)
  (hlifetime : s.endpoint.config.hasZeroLifetime = false)
include h hrequested hlifetime

theorem Executed.fulfils (hnot : command ≠ .refresh 0) (hok : step.result = .ok attributes) :
    ∃ a, step.site.Fulfils source user now command attributes a := by
  have hstored {site : Site} {a : Allocation}
      (ha : site.endpoint.table.allocations.get? (site.endpoint.tuple source) = some a)
      (huser : a.username = user) (hlive : now < a.ends) :
      site.endpoint.table.owned (site.endpoint.tuple source) user now = .ok a :=
    AllocationTable.owned_eq_ok_iff.2 ⟨AllocationTable.find?_eq_some_iff.2 ⟨ha, hlive⟩, huser⟩
  cases h with
  | @created _ port pool _ _ _ =>
    cases hok
    obtain ⟨-, rfl⟩ := hrequested.eq_allocate
    have hpositive := Config.grantedLifetime_pos hlifetime m.lifetime?
    have hgranted := (s.reaped now).holdings.get?_grant (s.endpoint.tuple source) (s.endpoint.tuple source)
      user port pool (milliseconds (s.endpoint.config.grantedLifetime m.lifetime?)) now
    exact ⟨_, hstored (hgranted.trans (if_pos rfl)) rfl (Nat.lt_add_of_pos_right hpositive), rfl, rfl⟩
  | extended _ huser =>
    cases hok
    obtain ⟨-, rfl⟩ := hrequested.eq_allocate
    have hpositive := Config.grantedLifetime_pos hlifetime m.lifetime?
    exact ⟨_, hstored (AllocationTable.get?_put_self ..) huser (Nat.lt_add_of_pos_right hpositive), rfl, rfl⟩
  | occupied | exhausted | disowned | unbound => cases hok
  | renewed hnonzero howned =>
    cases hok
    have huser := (AllocationTable.stored_of_owned howned).2
    have hpositive := Nat.pos_of_ne_zero (mt milliseconds_eq_zero_iff.1 hnonzero)
    exact ⟨_, hstored (AllocationTable.get?_put_self ..) huser (Nat.lt_add_of_pos_right hpositive),
      ⟨hnonzero, rfl⟩, rfl⟩
  | deleted => exact absurd rfl hnot
  | @permitted peers a hne howned =>
    cases hok
    obtain ⟨hfind, huser⟩ := AllocationTable.owned_eq_ok_iff.1 howned
    have hpersists := Allocation.persists_permitEach a (peers.map (·.ip)) now
    refine ⟨_, hstored (AllocationTable.get?_put_self ..) (hpersists.username_eq.trans huser) ?_,
      ⟨hne, fun peer hpeer => ?_⟩, rfl⟩
    · rw [hpersists.ends_eq]
      exact (AllocationTable.find?_eq_some_iff.1 hfind).2
    · rw [Allocation.get?_permitEach, if_pos (List.mem_map_of_mem hpeer), Allocation.lifetime_permitEach]
  | bound howned _ =>
    cases hok
    obtain ⟨hfind, huser⟩ := AllocationTable.owned_eq_ok_iff.1 howned
    have hlive := (AllocationTable.find?_eq_some_iff.1 hfind).2
    refine ⟨_, hstored (AllocationTable.get?_put_self ..) huser hlive, ⟨?_, ?_⟩, rfl⟩
    · exact (ChannelTable.get?_store ..).trans (if_pos rfl)
    · rw [Allocation.get?_permit, if_pos rfl]
      rfl

theorem Executed.tidy (hs : s.Sound) (htidy : s.endpoint.table.Tidy now) :
    step.site.endpoint.table.Tidy now := by
  have hreaped : (s.reaped now).endpoint.table.Tidy now := Holdings.tidy_reap s.holdings now
  have hgranted := Config.grantedLifetime_pos hlifetime m.lifetime?
  cases h with
  | @created _ port pool _ _ _ =>
    obtain ⟨-, rfl⟩ := hrequested.eq_allocate
    exact Holdings.tidy_grant (h := (s.reaped now).holdings) hreaped hgranted _ user port pool
  | extended ha _ =>
    obtain ⟨-, rfl⟩ := hrequested.eq_allocate
    have hentry := hreaped _ _ ha
    exact hreaped.put ⟨Nat.lt_add_of_pos_right hgranted, hentry.permissions, hentry.channels⟩
  | occupied | exhausted => exact hreaped
  | disowned => exact htidy
  | renewed hnonzero howned =>
    have hentry := htidy _ _ (AllocationTable.stored_of_owned howned).1
    have hpositive := Nat.pos_of_ne_zero (mt milliseconds_eq_zero_iff.1 hnonzero)
    exact htidy.put ⟨Nat.lt_add_of_pos_right hpositive, hentry.permissions, hentry.channels⟩
  | deleted => exact Holdings.tidy_evict (h := s.holdings) htidy _
  | permitted _ howned =>
    have ha := (AllocationTable.stored_of_owned howned).1
    exact htidy.put ((htidy _ _ ha).permitEach ((hs.granting ha).lasts hlifetime).1 _)
  | @bound number peer a howned _ =>
    have ha := (AllocationTable.stored_of_owned howned).1
    obtain ⟨hpermissions, hchannels⟩ := (hs.granting ha).lasts hlifetime
    have hentry := htidy _ _ ha
    have hbound : ({ a with channels := (a.channels.reap now).store number peer now } : Allocation).Tidy
        now :=
      ⟨hentry.live, hentry.permissions, (a.channels.live_reap now).store hchannels number peer⟩
    exact htidy.put (hbound.permit hpermissions peer.ip)
  | unbound howned hchannels =>
    have hentry := htidy _ _ (AllocationTable.stored_of_owned howned).1
    rcases hchannels with rfl | rfl
    · exact htidy.put hentry
    · exact htidy.put ⟨hentry.live, hentry.permissions, ChannelTable.live_reap _ now⟩

end Executed

theorem reaped_of_tidy (htidy : s.endpoint.table.Tidy now) : s.reaped now = s := by
  have hreap : s.holdings.reap now = ([], s.holdings) := Holdings.reap_of_tidy htidy
  simp only [reaped, reap, hreap, abort]
  rfl

theorem expiries_of_tidy (htidy : s.endpoint.table.Tidy now) : s.expiries now = [] := by
  have hreap : s.holdings.reap now = ([], s.holdings) := Holdings.reap_of_tidy htidy
  rw [expiries, hreap]
  rfl

theorem Fulfils.execute_eq (h : s.Fulfils source user now command attributes a)
    (htidy : s.endpoint.table.Tidy now) (hs : s.Sound) (hchannelled : s.endpoint.table.Channelled)
    (other : Randomness) :
    s.execute other source user now command = ⟨.ok attributes, command.notices source user, s⟩ := by
  obtain ⟨howned, hfulfilled, rfl⟩ := h
  have ha := (AllocationTable.stored_of_owned howned).1
  have hput : s.setTable (s.endpoint.table.put (s.endpoint.tuple source) a) = s := by
    rw [AllocationTable.put_of_get? ha]
    rfl
  -- each command writes the entry that is stored already
  cases command with
  | allocate seconds =>
    have hextend : a.extend (now + milliseconds seconds) = a := by
      rw [← show a.ends = now + milliseconds seconds from hfulfilled]
      rfl
    have howned' : s.holdings.table.owned (s.endpoint.tuple source) user now = .ok a := howned
    have hput' : s.holdings.table.put (s.endpoint.tuple source) a = s.holdings.table :=
      AllocationTable.put_of_get? ha
    have hallocated : s.allocated other source user seconds now =
        (.ok (.refreshed a.relay), s.holdings, s.draws) := by
      rw [allocated, Holdings.reap_of_tidy (h := s.holdings) htidy, Holdings.allocate_of_owned howned',
        hextend, hput']
    change s.allocate other source user seconds now = _
    rw [allocate_eq, hallocated, reaped_of_tidy htidy, expiries_of_tidy htidy]
    rfl
  | refresh seconds =>
    obtain ⟨hnonzero, hends⟩ := hfulfilled
    have hextend : a.extend (now + milliseconds seconds) = a := by
      rw [← hends]
      rfl
    change s.refresh source user seconds now = _
    rw [refresh_of_owned howned, if_neg hnonzero, hextend, hput]
    rfl
  | permit peers =>
    obtain ⟨hne, hpermissions⟩ := hfulfilled
    have hpermit : a.permitEach (peers.map (·.ip)) now = a := by
      apply Allocation.permitEach_of_get?
      intro ip hip
      obtain ⟨peer, hpeer, rfl⟩ := List.mem_map.1 hip
      exact hpermissions peer hpeer
    change s.permit source user peers now = _
    rw [permit_of_owned howned hne, hpermit, hput]
    rfl
  | bindChannel number peer =>
    obtain ⟨hbound, hpermission⟩ := hfulfilled
    have hnumber := (hchannelled _ _ ha).numbered number _ hbound
    have hbind := ChannelTable.bind_of_bound (htidy _ _ ha).channels (hs.holdings.wellFormed.fits ha).paired
      hnumber hbound
    have hpermit : ({ a with channels := a.channels } : Allocation).permit peer.ip now = a :=
      Allocation.permit_of_get? hpermission
    change s.bindChannel source user number peer now = _
    simp only [bindChannel_of_owned howned, hbind, hpermit, hput]
    rfl

theorem Fulfils.opened (h : s.Fulfils source user now command attributes a) (hs : s.Sound)
    (hlifetime : s.endpoint.config.hasZeroLifetime = false) :
    (s.opened now).Fulfils source user now command attributes (a.sweep now) := by
  obtain ⟨hpermissions, hchannels⟩ :=
    (hs.granting (AllocationTable.stored_of_owned h.owned).1).lasts hlifetime
  refine ⟨?_, h.fulfilled.sweep hpermissions hchannels, h.attributes_eq⟩
  have hopened := owned_opened s now (s.endpoint.tuple source) user
  rw [h.owned] at hopened
  exact hopened

theorem Fulfils.process_eq (h : s.Fulfils lookup.source lookup.user now command attributes a) (hs : s.Sound)
    (hchannelled : s.endpoint.table.Channelled)
    (hlifetime : s.endpoint.config.hasZeroLifetime = false)
    (hgenuine : lookup.Genuine s.endpoint.config.realm) {credential : Credential}
    (hconfirm : Credential.confirm s.endpoint.config.realm lookup.user lookup.raw password = .ok credential)
    (hrequested : Command.Requested s.endpoint.config s.endpoint.external.ip lookup.request
      lookup.procedure command)
    (hsealed : s.sealed lookup credential.key (.ok attributes) = .ok response) (other : Randomness) :
    s.process other lookup.raw lookup.source password now =
      ⟨.ok response, s.expiries now ++
        .passwordAsked lookup.source lookup.user :: command.notices lookup.source lookup.user,
        s.opened now⟩ := by
  have hfound : ((s.opened now).endpoint.find? lookup.source now).isNone = false := by
    have hfind : s.endpoint.find? lookup.source now = some a :=
      (AllocationTable.owned_eq_ok_iff.1 h.owned).1
    rw [find?_opened, hfind]
    rfl
  have htidy : (s.opened now).endpoint.table.Tidy now := Holdings.tidy_reap s.holdings now
  have hexecute := (h.opened hs hlifetime).execute_eq htidy (hs.opened now)
    (channelled_reaped (s := s.countProcessed) hchannelled now) other
  have hresume : (s.opened now).resume other lookup password now =
      ⟨.ok response, command.notices lookup.source lookup.user, s.opened now⟩ := by
    rw [resume_of_checked (s := s.opened now) hconfirm hrequested.ofRequest_eq, hexecute, Step.map]
    change (⟨s.sealed lookup credential.key (.ok attributes), command.notices lookup.source lookup.user,
      s.opened now⟩ : Step Answer).settled = _
    rw [hsealed]
    rfl
  rw [process, receive_of_genuine hgenuine, if_neg (by simp [hfound])]
  simp only [hresume, Step.after, List.append_assoc, List.singleton_append]

/-- Handling a request again, after it was answered with `response` and left the site as it is now. What had
expired is told of first. -/
structure Repeats (s : Site) (now : Nat) (lookup : Lookup) (response : Option Response)
    (step : Step Answer) : Prop where
  result_eq : step.result = if lookup.request.isRelease then .error .invalidInput else .ok response
  site_eq : step.site = if lookup.request.isRelease then (s.opened now).countError else s.opened now
  events_eq : ∃ command,
    Command.Requested s.endpoint.config s.endpoint.external.ip lookup.request lookup.procedure command ∧
      step.events = (s.holdings.reap now).1.map (fun a => .aborted a.tuple.client a.username) ++
        if lookup.request.isRelease then []
        else .passwordAsked lookup.source lookup.user :: command.notices lookup.source lookup.user

theorem repeats_released
    (hgone : s.endpoint.table.allocations.get? (s.endpoint.tuple lookup.source) = none)
    (hgenuine : lookup.Genuine s.endpoint.config.realm)
    (hrequested : Command.Requested s.endpoint.config s.endpoint.external.ip lookup.request
      lookup.procedure command)
    (hprocedure : lookup.procedure = .refresh) (hasked : lookup.request.lifetime? = some 0)
    (response : Option Response) (other : Randomness) :
    s.Repeats now lookup response (s.process other lookup.raw lookup.source password now) := by
  have hrelease : lookup.request.isRelease = true := by
    have htype : lookup.request.type = procedureType .refresh := hprocedure ▸ hgenuine.type_eq
    simp [Message.isRelease, htype, hasked, procedureType]
  have hblocked : lookup.procedure.needsAllocation = true ∧
      ((s.opened now).endpoint.find? lookup.source now).isNone = true := by
    have hfind : s.endpoint.find? lookup.source now = none := by
      change s.endpoint.table.find? (s.endpoint.tuple lookup.source) now = none
      rw [AllocationTable.find?, hgone]
      rfl
    rw [hprocedure, find?_opened, hfind]
    exact ⟨rfl, rfl⟩
  have hprocess : s.process other lookup.raw lookup.source password now =
      ⟨.error .invalidInput, s.expiries now, (s.opened now).countError⟩ := by
    rw [process, receive_of_genuine hgenuine, if_pos hblocked]
  refine ⟨?_, ?_, command, hrequested, ?_⟩
  · rw [hprocess, if_pos hrelease]
  · rw [hprocess, if_pos hrelease]
  · rw [hprocess, if_pos hrelease, List.append_nil, expiries]

theorem isRelease_iff {m : Message} {relayIp : IpAddress} {procedure : Procedure} {config : Config}
    (h : Command.Requested config relayIp m procedure command) (htype : m.type = procedureType procedure)
    (hconfig : config.hasZeroLifetime = false) : m.isRelease = true ↔ command = .refresh 0 := by
  rw [Message.isRelease, decide_eq_true_eq]
  constructor
  · rintro ⟨hrefresh, hasked⟩
    obtain rfl : procedure = .refresh := procedureType_inj (htype.symm.trans hrefresh)
    cases h
    rw [if_pos hasked]
  · rintro rfl
    obtain ⟨rfl, hasked⟩ := h.lifetime?_eq_zero hconfig
    exact ⟨htype, hasked⟩

theorem Executed.gone {step : Step (Except PacketError (List Attribute))}
    (h : Executed random s source user now (.refresh 0) step) (hok : step.result = .ok attributes) :
    step.site.endpoint.table.allocations.get? (s.endpoint.tuple source) = none := by
  cases h with
  | disowned => cases hok
  | renewed hnonzero _ => exact absurd rfl hnonzero
  | deleted => exact (Holdings.get?_remove ..).trans (if_pos rfl)

theorem settled_of_ok {step : Step Answer} (hok : step.result = .ok response) : step.settled = step := by
  rw [Step.settled, hok]

theorem sealed_congr {t : Site} (h : t.endpoint.config = s.endpoint.config) : t.sealed = s.sealed := by
  funext lookup key result
  simp only [sealed, successOf, Endpoint.software, h]

theorem repeats_resume (hs : s.Sound) (hchannelled : s.endpoint.table.Channelled)
    (hlifetime : s.endpoint.config.hasZeroLifetime = false)
    (hgenuine : lookup.Genuine s.endpoint.config.realm) (random other : Randomness)
    (hok : (s.resume random lookup password now).result = .ok response) :
    let after := (s.resume random lookup password now).site
    after.Repeats now lookup response
      (after.process other lookup.raw lookup.source password now) := by
  have hspec := resume_spec random s lookup password now
  have hidentity := hspec.identity
  have hsound : (s.resume random lookup password now).site.Sound := (Served.resumed hspec).sound hs
  have hafter : (s.resume random lookup password now).site.endpoint.table.Channelled :=
    channelled_resume hchannelled lookup password
  generalize s.resume random lookup password now = step at hok hspec hidentity hsound hafter
  have hconfig : step.site.endpoint.config = s.endpoint.config := congrArg (·.2.2) hidentity
  have hexternal : step.site.endpoint.external = s.endpoint.external := congrArg (·.2.1) hidentity
  cases hspec with
  | refused => cases hok
  | @executed credential command inner hconfirm hrequested hexecuted =>
    rw [Step.result_settled] at hok
    obtain ⟨attributes, hinner⟩ : ∃ attributes, inner.result = .ok attributes := exists_of_sealed hok
    have hsealed : s.sealed lookup credential.key (.ok attributes) = .ok response := hinner ▸ hok
    rw [settled_of_ok hok] at hconfig hexternal hsound hafter ⊢
    simp only [Step.map] at hconfig hexternal hsound hafter ⊢
    rw [← sealed_congr hconfig] at hsealed
    have hasked := hrequested
    rw [← hconfig, ← hexternal] at hasked
    rw [← hconfig] at hconfirm hgenuine hlifetime
    -- a deletion is the one command that leaves nothing to be repeated
    by_cases hrelease : command = .refresh 0
    · subst hrelease
      obtain ⟨hprocedure, hzero⟩ := hrequested.lifetime?_eq_zero (hconfig ▸ hlifetime)
      have hgone : inner.site.endpoint.table.allocations.get? (inner.site.endpoint.tuple lookup.source) =
          none := by
        rw [tuple_eq_of_identity hexecuted.identity]
        exact hexecuted.gone hinner
      exact repeats_released hgone hgenuine hasked hprocedure hzero response other
    · obtain ⟨a, hfulfils⟩ := hexecuted.fulfils hrequested (hconfig ▸ hlifetime) hrelease hinner
      have hprocess := hfulfils.process_eq hsound hafter hlifetime hgenuine hconfirm hasked hsealed other
      have hkept : ¬ lookup.request.isRelease = true := fun h =>
        hrelease ((isRelease_iff hasked hgenuine.type_eq hlifetime).1 h)
      rw [hprocess]
      refine ⟨(if_neg hkept).symm, (if_neg hkept).symm, command, hasked, ?_⟩
      rw [if_neg hkept, expiries]

theorem Resumed.tidy {step : Step Answer} (h : Resumed random s lookup password now step) (hs : s.Sound)
    (hlifetime : s.endpoint.config.hasZeroLifetime = false) (htidy : s.endpoint.table.Tidy now) :
    step.site.endpoint.table.Tidy now := by
  cases h with
  | refused => exact htidy
  | executed _ hrequested hexecuted =>
    rw [Step.table_settled]
    exact hexecuted.tidy hrequested hlifetime hs htidy

theorem exists_process_eq {procedure : Procedure} {request : Message} {raw : Bytes}
    (hdecode : Packet.decode raw = .ok (.message request)) (htype : request.type = procedureType procedure)
    (hok : (s.process random raw source password now).result = .ok response) :
    ∃ user, (⟨procedure, request, raw, source, user⟩ : Lookup).Genuine s.endpoint.config.realm ∧
      s.process random raw source password now =
        ((s.opened now).resume random ⟨procedure, request, raw, source, user⟩ password now).after
          (s.expiries now ++ [.passwordAsked source user]) := by
  rcases (receive_spec s raw source now).of_procedure hdecode htype with ⟨e, hreceive⟩ | ⟨user, hclaim, hreceive⟩
  · rw [process, hreceive] at hok
    cases hok
  · refine ⟨user, ⟨hdecode, htype, hclaim⟩, ?_⟩
    rw [process, hreceive]

theorem repeats_process (hs : s.Sound) (hchannelled : s.endpoint.table.Channelled)
    (hlifetime : s.endpoint.config.hasZeroLifetime = false) {procedure : Procedure} {request : Message}
    {raw : Bytes} (hdecode : Packet.decode raw = .ok (.message request))
    (htype : request.type = procedureType procedure)
    (hok : (s.process random raw source password now).result = .ok response) (other : Randomness) :
    let after := (s.process random raw source password now).site
    (∃ user, (⟨procedure, request, raw, source, user⟩ : Lookup).Genuine s.endpoint.config.realm ∧
      after.Repeats now ⟨procedure, request, raw, source, user⟩ response
        (after.process other raw source password now)) ∧
      after.holdings.reap now = ([], after.holdings) := by
  obtain ⟨user, hgenuine, hprocess⟩ := exists_process_eq hdecode htype hok
  have hopened := hs.opened now
  rw [hprocess] at hok ⊢
  refine ⟨⟨user, hgenuine, ?_⟩, ?_⟩
  · have hwas := channelled_reaped (s := s.countProcessed) hchannelled now
    exact repeats_resume (s := s.opened now) hopened hwas hlifetime hgenuine random other hok
  · have hspec := resume_spec random (s.opened now) ⟨procedure, request, raw, source, user⟩ password now
    exact Holdings.reap_of_tidy (hspec.tidy hopened hlifetime (Holdings.tidy_reap s.holdings now))

end Site

/-- A request that was answered with success gets the same answer when it comes again at the same instant,
and nothing changes but that what had expired goes. Nothing has when it had just come. -/
theorem Run.retransmission_idempotent {random : Randomness} {log : List Record} {m : Moment}
    {externals : List TransportAddress} (h : Run random log m)
    (hvalid : m.site.endpoint.config.validate = .ok externals) (other : Randomness) :
    (∀ lookup ∈ m.waiting, ∀ password response,
      let first := m.site.resume random lookup password m.now
      first.result = .ok response →
        first.site.Repeats m.now lookup response
          (first.site.process other lookup.raw lookup.source password m.now) ∧
        first.site.Lapses m.now (first.site.opened m.now) (first.site.holdings.reap m.now).1 ∧
        (first.site.opened m.now).holdings = (first.site.holdings.reap m.now).2 ∧
        (first.site.endpoint.table.Tidy m.now →
          first.site.holdings.reap m.now = ([], first.site.holdings))) ∧
    ∀ procedure request raw source password response,
      let first := m.site.process random raw source password m.now
      Packet.decode raw = .ok (.message request) → request.type = Site.procedureType procedure →
        first.result = .ok response →
          (∃ user, (⟨procedure, request, raw, source, user⟩ : Lookup).Genuine m.site.endpoint.config.realm ∧
            first.site.Repeats m.now ⟨procedure, request, raw, source, user⟩ response
              (first.site.process other raw source password m.now)) ∧
          (first.site.opened m.now).holdings = first.site.holdings ∧
          first.site.holdings.reap m.now = ([], first.site.holdings) := by
  have hs := h.sound.site
  have hchannelled := h.channelled
  have hlifetime := (Config.usable_of_validate hvalid).lifetimes
  constructor
  · intro lookup hlookup password response first hok
    have hsound : first.site.Sound :=
      (Site.Served.resumed (Site.resume_spec random m.site lookup password m.now)).sound hs
    exact ⟨Site.repeats_resume hs hchannelled hlifetime (h.sound.genuine lookup hlookup) random other hok,
      Site.lapses_opened hsound m.now, Site.holdings_opened ..,
      fun htidy => Holdings.reap_of_tidy (h := first.site.holdings) htidy⟩
  · intro procedure request raw source password response first hdecode htype hok
    obtain ⟨hrepeats, hnothing⟩ := Site.repeats_process hs hchannelled hlifetime hdecode htype hok other
    refine ⟨hrepeats, ?_, hnothing⟩
    rw [Site.holdings_opened, hnothing]

namespace Sample

def repeated : Step Answer :=
  renewed.site.process random (neighbourly .refresh).raw neighbour (some "secret") outliving.now

theorem repeated_spec : outliving.site.endpoint.config = config ∧
    renewed.site.expiries outliving.now = [.aborted client "alice"] ∧
    repeated.site.holdings.pool.taken.length ≠ renewed.site.holdings.pool.taken.length := by
  decide +kernel

theorem validate_outliving :
    outliving.site.endpoint.config.validate = .ok [.v4 0xCB007101 3478] := by
  rw [repeated_spec.1]
  rfl

end Sample

open Sample in
theorem retransmission_idempotent_sample :
    outliving.site.endpoint.config.validate = .ok [.v4 0xCB007101 3478] ∧
      neighbourly .refresh ∈ outliving.waiting ∧
      renewed.site.expiries outliving.now = [.aborted client "alice"] ∧
      ∃ response, renewed.result = .ok response ∧
        renewed.site.Repeats outliving.now (neighbourly .refresh) response repeated := by
  obtain ⟨-, hlookup, -⟩ := outliving_spec
  obtain ⟨response, hresult⟩ := exists_renewed
  exact ⟨validate_outliving, hlookup, repeated_spec.2.1, response, hresult,
    ((Run.retransmission_idempotent run_outliving validate_outliving random).1 _ hlookup _ _ hresult).1⟩

open Sample in
/-- While the neighbour waited, the client's allocation expired. It takes a port until the packet comes again. -/
theorem retransmission_collects : ¬ ∀ (random : Randomness) (log : List Record) (m : Moment)
    (externals : List TransportAddress), Run random log m →
      m.site.endpoint.config.validate = .ok externals → ∀ lookup ∈ m.waiting, ∀ password response,
        let first := m.site.resume random lookup password m.now
        first.result = .ok response →
          (first.site.process random lookup.raw lookup.source password m.now).site.holdings =
            first.site.holdings := by
  intro hclaim
  obtain ⟨-, hlookup, -⟩ := outliving_spec
  obtain ⟨response, hresult⟩ := exists_renewed
  have hsame : repeated.site.holdings = renewed.site.holdings :=
    hclaim _ _ _ _ run_outliving validate_outliving _ hlookup _ _ hresult
  exact repeated_spec.2.2 (congrArg (·.pool.taken.length) hsame)

end TurnRelay
