import TurnRelay.Proofs.Message.Signature
import TurnRelay.Proofs.Service.Ports
import TurnRelay.Proofs.Site.Granting

namespace TurnRelay

namespace Service

variable {random : Randomness} {service after : Service} {id : EndpointId} {e : Endpoint}
  {ip : IpAddress} {now : Nat} {port : UInt16}

/-- No allocation of the IP address that is unexpired has the port. -/
def Free (service : Service) (ip : IpAddress) (now : Nat) (port : UInt16) : Prop :=
  service.config.portRange.contains port = true ∧
    ∀ a ∈ service.stored ip, a.relay.port = port → a.ends ≤ now

/-- No allocation of the IP address has the port, but perhaps an expired one of the endpoint itself. -/
def Available (service : Service) (id : EndpointId) (ip : IpAddress) (now : Nat) (port : UInt16) : Prop :=
  service.config.portRange.contains port = true ∧
    ∀ {other e tuple a}, service.endpoints.get? other = some e → e.external.ip = ip →
      e.table.allocations.get? tuple = some a → a.relay.port = port → other = id ∧ a.ends ≤ now

theorem Available.free (h : service.Available id ip now port) : service.Free ip now port := by
  refine ⟨h.1, fun a ha hport => ?_⟩
  obtain ⟨other, e, tuple, he, hip, ha⟩ := mem_stored.1 ha
  exact (h.2 he hip ha hport).2

theorem Ledger.available_iff (h : service.Ledger) (he : service.endpoints.get? id = some e) :
    service.Available id e.external.ip now port ↔
      Site.Vacant ⟨e, service.pool e.external.ip, service.draws⟩ now port := by
  have hsound := (h.site he).holdings
  rw [Available, Site.Vacant, h.range_eq]
  refine and_congr_right fun _ => ?_
  constructor
  · intro havailable hport
    obtain ⟨htaken, hkept⟩ := Holdings.mem_taken_reap.1 hport
    obtain ⟨other, f, hf, hip, hmem⟩ := h.covered htaken
    obtain ⟨tuple, a, ha, hrelay⟩ := (h.site hf).holdings.wellFormed.ports_iff.1 hmem
    obtain ⟨rfl, hexpired⟩ := havailable hf hip ha hrelay
    obtain rfl : e = f := Option.some.inj (he.symm.trans hf)
    rw [← (hsound.wellFormed.fits ha).tuple_eq] at ha
    exact hkept a ((Holdings.mem_reap hsound).2 ⟨ha, hexpired⟩) hrelay
  · intro hfree other f tuple a hf hip ha hrelay
    have hmem : port ∈ f.table.ports :=
      (h.site hf).holdings.wellFormed.ports_iff.2 ⟨tuple, a, ha, hrelay⟩
    have htaken : port ∈ (service.pool e.external.ip).taken := hip ▸ (h.site hf).holdings.taken port hmem
    -- the port was given back, so it was that of an expired allocation of the endpoint
    have hgone : port ∈ (Holdings.reap ⟨e.table, service.pool e.external.ip⟩ now).1.map (·.relay.port) :=
      Decidable.byContradiction fun hnot => hfree (PortPool.mem_taken_releaseAll.2 ⟨htaken, hnot⟩)
    obtain ⟨b, hb, hport⟩ := List.mem_map.1 hgone
    obtain ⟨hb, hexpired⟩ := (Holdings.mem_reap hsound).1 hb
    have hmem' : port ∈ e.table.ports := hsound.wellFormed.ports_iff.2 ⟨_, b, hb, hport⟩
    obtain rfl : other = id := h.separate hf he hip hmem hmem'
    obtain rfl : e = f := Option.some.inj (he.symm.trans hf)
    obtain rfl := hsound.wellFormed.tuple_unique ha hb (hrelay.trans hport.symm)
    obtain rfl : a = b := Option.some.inj (ha.symm.trans hb)
    exact ⟨rfl, hexpired⟩

theorem Ledger.stocked (h : service.Ledger) (hrange : service.config.portRange.isEmpty = false)
    (e : Endpoint) : Site.Stocked ⟨e, service.pool e.external.ip, service.draws⟩ := by
  constructor
  · exact h.range_eq e.external.ip ▸ hrange
  · intro port hport
    rw [h.range_eq]
    exact h.in_range hport

def Configured (service : Service) : Prop :=
  ∀ id e, service.endpoints.get? id = some e → e.config = service.config

theorem Configured.shrink (h : service.Configured) (hshrinks : service.Shrinks after) :
    after.Configured :=
  fun id e he => (h id e (hshrinks.endpoints he)).trans hshrinks.config_eq.symm

theorem Configured.register (h : service.Configured) (interface external : TransportAddress) :
    (service.register interface external).2.Configured := by
  intro id e he
  rw [endpoints_register] at he
  split at he
  · cases he
    rfl
  · exact h id e he

theorem Configured.serve (h : service.Configured) (he : service.endpoints.get? id = some e)
    (random : Randomness) (now : Nat) (call : Call) : Configured (service.store id
      (Site.serve random ⟨e, service.pool e.external.ip, service.draws⟩ now call).site) := by
  have hidentity :=
    (Site.serve_spec random ⟨e, service.pool e.external.ip, service.draws⟩ now call).identity
  intro other f hf
  rw [endpoints_store] at hf
  split at hf
  · cases hf
    exact (congrArg (·.2.2) hidentity).trans (h id e he)
  · exact h other f hf

end Service

namespace Host

variable {random : Randomness} {config : Config} {host host' : Host} {id : EndpointId} {s : Site}
  {lookup : Lookup} {password : Option String}

theorem Step.configured (hstep : Step random host host') (hs : host.service.Sound [])
    (h : host.service.Configured) : host'.service.Configured := by
  cases hstep with
  | obtain hobtain =>
    rcases Service.obtain_eq_some hobtain with ⟨_, _, rfl⟩ | ⟨interface, external, _, _, rfl⟩
    · exact h
    · exact h.register interface external
  | remove hremove =>
    rcases Service.remove_eq_ok random host.now hremove with rfl | ⟨key, id, hkey, hnone | ⟨e, he, rfl⟩⟩
    · exact h
    · obtain ⟨e, he⟩ := hs.alive (Service.isReferenced_iff.2 (.inl ⟨key, hkey⟩))
      cases hnone.symm.trans he
    · have hunregistered : (host.service.unregister key).Configured := h
      exact (hunregistered.serve he random host.now .shutdown).shrink (Service.shrinks_collect ..)
  | release _ => exact h.shrink (Service.shrinks_release ..)
  | close => exact h.shrink (Service.shrinks_close _)
  | serve _ hserve =>
    obtain ⟨e, he, _, rfl⟩ := Service.serve_eq_some hserve
    exact h.serve he random _ _
  | wait _ => exact h

theorem Reachable.configured (h : Reachable random config host) :
    host.service.Configured ∧ config.Usable := by
  induction h with
  | start hconfig =>
    unfold Service.ofConfig at hconfig
    split at hconfig
    · cases hconfig
    · next hvalid =>
      cases hconfig
      exact ⟨fun _ _ he => (by cases he), Config.usable_of_validate hvalid⟩
  | step hreach hstep ih => exact ⟨hstep.configured hreach.sound.1 ih.1, ih.2⟩

theorem Reachable.allocates (h : Reachable random config host) (hsite : host.service.site? id = some s)
    (heligible : s.Eligible lookup password host.now) :
    let available := host.service.Available id s.endpoint.external.ip host.now
    s.Allots lookup host.now available (s.resume random lookup password host.now) ∧
      s.Allots lookup host.now available
        (s.process random lookup.raw lookup.source password host.now) := by
  obtain ⟨hs, hconfig⟩ := h.sound
  obtain ⟨hconfigured, husable⟩ := h.configured
  obtain ⟨e, he, rfl⟩ := Option.map_eq_some_iff.1 hsite
  have hstocked := hs.stocked (hconfig ▸ husable.range) e
  have hlifetime : e.config.hasZeroLifetime = false := by
    rw [hconfigured id e he, hconfig]
    exact husable.lifetimes
  have havailable : host.service.Available id e.external.ip host.now = Site.Vacant _ host.now :=
    funext fun port => propext (hs.available_iff he)
  simp only [havailable]
  have hsite := hs.site he
  exact ⟨(heligible.attempted_resume hsite hlifetime random).allots hsite hstocked,
    (heligible.attempted_process hsite hlifetime random).allots hsite hstocked⟩

end Host

namespace Sample

def scarce : Config := shared ⟨50000, 50000⟩

/-- The client had the only port, at the first endpoint. Its allocation has expired, and nothing has happened
since. -/
def overdue : Host :=
  { (bothObtained ⟨50000, 50000⟩).play random [(0, ask .allocate allocation), (0, answer .allocate allocation)] with
    now := 600000 }

theorem reachable_overdue : Host.Reachable random scarce overdue :=
  ((reachable_bothObtained rfl).play (by decide +kernel)).step (.wait (by decide +kernel))

def unused : Site :=
  ⟨.fresh interface second scarce, overdue.service.pool second.ip, overdue.service.draws⟩

def used : Site := (overdue.service.site? 0).getD unused

theorem site?_unused : overdue.service.site? 1 = some unused := rfl

theorem used_spec : overdue.service.site? 0 = some used ∧
    used.endpoint.config.realm = "example.org" ∧ used.endpoint.external.ip = external.ip ∧
    used.endpoint.find? client overdue.now = none ∧ used.pool.range.contains 50000 = true ∧
    50000 ∉ (used.reaped overdue.now).pool.taken := by
  decide +kernel

theorem eligible {s : Site} {now : Nat} (hrealm : s.endpoint.config.realm = "example.org")
    (hfamily : s.endpoint.external.ip.family = external.ip.family)
    (habsent : s.endpoint.find? client now = none) :
    s.Eligible (lookup .allocate allocation) (some "secret") now where
  genuine := by
    have hasked : asked.site.endpoint.config.realm = "example.org" := by decide +kernel
    rw [hrealm, ← hasked]
    exact run_asked.sound.genuine _ lookup_mem_waiting
  procedure_eq := rfl
  confirmed := by
    rw [hrealm]
    exact ⟨⟨"alice", longTermKey "alice" "example.org" "secret"⟩,
      eq_ok_of_toOption (by decide +kernel)⟩
  transport := by decide +kernel
  family := by
    rw [hfamily]
    decide +kernel
  absent := habsent

theorem eligible_unused :
    unused.Eligible (lookup .allocate allocation) (some "secret") overdue.now :=
  eligible rfl rfl rfl

theorem eligible_used : used.Eligible (lookup .allocate allocation) (some "secret") overdue.now := by
  obtain ⟨-, hrealm, hip, habsent, -⟩ := used_spec
  exact eligible hrealm (congrArg IpAddress.family hip) habsent

theorem available_used : overdue.service.Available 0 external.ip overdue.now 50000 := by
  obtain ⟨hsite, -, hip, -, hvacant⟩ := used_spec
  obtain ⟨e, he, hused⟩ := Option.map_eq_some_iff.1 hsite
  have havailable := (reachable_overdue.sound.1.available_iff he).2 (hused ▸ hvacant)
  rw [← hused] at hip
  exact hip ▸ havailable

end Sample

theorem Host.exists_free_refused :
    ¬ ∀ {random : Randomness} {config : Config} {host : Host} {id : EndpointId} {s : Site}
      {lookup : Lookup} {password : Option String}, Host.Reachable random config host →
      host.service.site? id = some s → s.Eligible lookup password host.now →
      (∃ port, host.service.Free s.endpoint.external.ip host.now port) →
      ∃ port, s.Granted lookup host.now port
        (s.process random lookup.raw lookup.source password host.now) := by
  intro hall
  obtain ⟨port, hgranted⟩ := hall Sample.reachable_overdue Sample.site?_unused Sample.eligible_unused
    ⟨50000, Sample.available_used.free⟩
  have hnone : (Sample.unused.process Sample.random (Sample.request .allocate Sample.allocation)
      Sample.client (some "secret") Sample.overdue.now).site.endpoint.find? Sample.client
        Sample.overdue.now = none := by decide +kernel
  cases hnone.symm.trans hgranted.found

theorem Host.allocates_overdue :
    Host.Reachable Sample.random Sample.scarce Sample.overdue ∧
      Sample.overdue.service.site? 0 = some Sample.used ∧
      Sample.used.Eligible (Sample.lookup .allocate Sample.allocation) (some "secret") 600000 ∧
      ∃ port, Sample.used.Granted (Sample.lookup .allocate Sample.allocation) 600000 port
        (Sample.used.process Sample.random (Sample.request .allocate Sample.allocation) Sample.client
          (some "secret") 600000) := by
  obtain ⟨hsite, -, hip, -⟩ := Sample.used_spec
  have havailable : ∃ port, Sample.overdue.service.Available 0 Sample.used.endpoint.external.ip
      Sample.overdue.now port := by
    rw [hip]
    exact ⟨50000, Sample.available_used⟩
  have hsoftware : (Utf8.encode Sample.used.endpoint.config.software).length ≤ 65424 := by decide +kernel
  obtain ⟨port, -, hgranted⟩ := (Host.Reachable.allocates Sample.reachable_overdue hsite
    Sample.eligible_used).2.granted (Site.tellable_of_software hsoftware _) havailable
  exact ⟨Sample.reachable_overdue, hsite, Sample.eligible_used, port, hgranted⟩

end TurnRelay
