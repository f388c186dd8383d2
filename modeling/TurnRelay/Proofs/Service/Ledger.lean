import TurnRelay.Proofs.Site.Run
import TurnRelay.Service

namespace TurnRelay

namespace Service

variable {service : Service} {id other : EndpointId} {e f : Endpoint} {ip : IpAddress} {port : UInt16}

theorem pool_insert (service : Service) (ip other : IpAddress) (pool : PortPool) :
    ({ service with pools := service.pools.insert ip pool } : Service).pool other =
      if other = ip then pool else service.pool other := by
  simp only [Service.pool, Dictionary.get?_insert]
  split <;> rfl

theorem pool_store (service : Service) (id : EndpointId) (site : Site) (ip : IpAddress) :
    (service.store id site).pool ip =
      if ip = site.endpoint.external.ip then site.pool else service.pool ip :=
  pool_insert ..

theorem endpoints_store (service : Service) (id other : EndpointId) (site : Site) :
    (service.store id site).endpoints.get? other =
      if other = id then some site.endpoint else service.endpoints.get? other :=
  Dictionary.get?_insert ..

@[simp] theorem pool_register (service : Service) (interface external : TransportAddress)
    (ip : IpAddress) : (service.register interface external).2.pool ip = service.pool ip := by
  apply (pool_insert ..).trans
  split
  · next h => rw [h]
  · rfl

theorem endpoints_register (service : Service) (interface external : TransportAddress)
    (id : EndpointId) :
    (service.register interface external).2.endpoints.get? id =
      if id = service.nextId then some (.fresh interface external service.config)
      else service.endpoints.get? id :=
  Dictionary.get?_insert ..

structure Ledger (service : Service) : Prop where
  site : ∀ {id e}, service.endpoints.get? id = some e →
    Site.Sound ⟨e, service.pool e.external.ip, service.draws⟩
  separate : ∀ {i j e f port}, service.endpoints.get? i = some e → service.endpoints.get? j = some f →
    e.external.ip = f.external.ip → port ∈ e.table.ports → port ∈ f.table.ports → i = j
  covered : ∀ {ip port}, port ∈ (service.pool ip).taken →
    ∃ id e, service.endpoints.get? id = some e ∧ e.external.ip = ip ∧ port ∈ e.table.ports
  nodup : ∀ ip, (service.pool ip).taken.Nodup
  range_eq : ∀ ip, (service.pool ip).range = service.config.portRange
  in_range : ∀ {ip port}, port ∈ (service.pool ip).taken → service.config.portRange.contains port = true

section Store

variable {after : Site} (h : service.Ledger) (he : service.endpoints.get? id = some e)
  (hexternal : after.endpoint.external = e.external)
  (hconserves : Holdings.Conserves ⟨e.table, service.pool e.external.ip⟩ after.holdings)

theorem pool_store_of_external (service : Service) (id : EndpointId)
    (hexternal : after.endpoint.external = e.external) (ip : IpAddress) :
    (service.store id after).pool ip =
      if ip = e.external.ip then after.pool else service.pool ip := by
  rw [pool_store, hexternal]

include h he hconserves

theorem Ledger.foreign (hf : service.endpoints.get? other = some f) (hne : other ≠ id)
    (hip : f.external.ip = e.external.ip) (hport : port ∈ f.table.ports) :
    after.holdings.Foreign port := by
  apply (hconserves.foreign_iff port).2
  refine ⟨hip ▸ (h.site hf).holdings.taken port hport, ?_⟩
  exact fun hmem => hne (h.separate hf he hip hport hmem)

include hexternal

theorem Ledger.site_store (hsound : after.Sound)
    (hf : (service.store id after).endpoints.get? other = some f) :
    Site.Sound ⟨f, (service.store id after).pool f.external.ip, after.draws⟩ := by
  rw [endpoints_store] at hf
  rw [pool_store_of_external service id hexternal]
  split at hf
  · cases hf
    rw [if_pos (by rw [hexternal])]
    exact hsound.share _ hsound.holdings.nodup hsound.holdings.taken
  · next hne =>
    have hsite := h.site hf
    split
    · next hip =>
      apply hsite.share _ hsound.holdings.nodup
      exact fun port hport => (h.foreign he hconserves hf hne hip hport).1
    · exact hsite.share _ hsite.holdings.nodup hsite.holdings.taken

theorem Ledger.separate_store {i j : EndpointId} {f g : Endpoint}
    (hf : (service.store id after).endpoints.get? i = some f)
    (hg : (service.store id after).endpoints.get? j = some g) (hip : f.external.ip = g.external.ip)
    (hi : port ∈ f.table.ports) (hj : port ∈ g.table.ports) : i = j := by
  rw [endpoints_store] at hf hg
  split at hf
  · next hfirst =>
    cases hf
    split at hg
    · next hsecond => rw [hfirst, hsecond]
    · next hne =>
      rw [hexternal] at hip
      exact absurd hi (h.foreign he hconserves hg hne hip.symm hj).2
  · next hne =>
    split at hg
    · cases hg
      rw [hexternal] at hip
      exact absurd hj (h.foreign he hconserves hf hne hip hi).2
    · exact h.separate hf hg hip hi hj

theorem Ledger.covered_store (hport : port ∈ ((service.store id after).pool ip).taken) :
    ∃ other f, (service.store id after).endpoints.get? other = some f ∧ f.external.ip = ip ∧
      port ∈ f.table.ports := by
  -- an endpoint that owns the port before and is not this one owns it still
  have hother : ∀ {other f}, service.endpoints.get? other = some f → f ≠ e → f.external.ip = ip →
      port ∈ f.table.ports → ∃ other f, (service.store id after).endpoints.get? other = some f ∧
        f.external.ip = ip ∧ port ∈ f.table.ports := by
    intro other f hf hne hip hmem
    refine ⟨other, f, ?_, hip, hmem⟩
    rw [endpoints_store, if_neg, hf]
    rintro rfl
    exact hne (Option.some.inj (hf.symm.trans he))
  rw [pool_store_of_external service id hexternal] at hport
  split at hport
  · next hip =>
    by_cases hmem : port ∈ after.endpoint.table.ports
    · exact ⟨id, after.endpoint, by rw [endpoints_store, if_pos rfl], by rw [hexternal, hip], hmem⟩
    · obtain ⟨htaken, hnot⟩ := (hconserves.foreign_iff port).1 ⟨hport, hmem⟩
      obtain ⟨other, f, hf, hfip, hfport⟩ := h.covered htaken
      apply hother hf _ (hfip.trans hip.symm) hfport
      rintro rfl
      exact hnot hfport
  · next hip =>
    obtain ⟨other, f, hf, rfl, hfport⟩ := h.covered hport
    apply hother hf _ rfl hfport
    rintro rfl
    exact hip rfl

end Store

theorem Ledger.store (h : service.Ledger) (he : service.endpoints.get? id = some e) {after : Site}
    (hsound : after.Sound) (hidentity : after.endpoint.identity = e.identity)
    (hconserves : Holdings.Conserves ⟨e.table, service.pool e.external.ip⟩ after.holdings) :
    (service.store id after).Ledger := by
  have hexternal : after.endpoint.external = e.external := congrArg (·.2.1) hidentity
  have hpool := pool_store_of_external service id hexternal
  refine ⟨h.site_store he hexternal hconserves hsound, h.separate_store he hexternal hconserves,
    h.covered_store he hexternal hconserves, ?_, ?_, ?_⟩
  · intro ip
    rw [hpool]
    split
    · exact hsound.holdings.nodup
    · exact h.nodup ip
  · intro ip
    rw [hpool]
    split
    · exact hconserves.range_eq.trans (h.range_eq _)
    · exact h.range_eq ip
  · intro ip port hport
    rw [hpool] at hport
    split at hport
    · rcases hconserves.in_range port hport with hp | hp
      · exact h.in_range hp
      · exact h.range_eq e.external.ip ▸ hp
    · exact h.in_range hport

theorem Ledger.register (h : service.Ledger) (interface external : TransportAddress)
    (hnew : service.endpoints.get? service.nextId = none) :
    (service.register interface external).2.Ledger := by
  have hports : ∀ port, port ∉ (Endpoint.fresh interface external service.config).table.ports := by
    intro port
    simp [Endpoint.fresh, AllocationTable.fresh, AllocationTable.ports, Dictionary.mem_keys_iff]
  refine ⟨?_, ?_, ?_, ?_, ?_, ?_⟩
  · intro id e he
    rw [pool_register]
    rw [endpoints_register] at he
    split at he
    · cases he
      exact Site.sound_fresh _ _ _ _ (h.nodup _)
    · exact h.site he
  · intro i j e f port he hf hip hi hj
    rw [endpoints_register] at he hf
    split at he
    · cases he
      exact absurd hi (hports port)
    · split at hf
      · cases hf
        exact absurd hj (hports port)
      · exact h.separate he hf hip hi hj
  · intro ip port hport
    rw [pool_register] at hport
    obtain ⟨id, e, he, hip, hmem⟩ := h.covered hport
    refine ⟨id, e, ?_, hip, hmem⟩
    rw [endpoints_register, if_neg, he]
    rintro rfl
    rw [hnew] at he
    cases he
  · intro ip
    rw [pool_register]
    exact h.nodup ip
  · intro ip
    rw [pool_register]
    exact h.range_eq ip
  · intro ip port hport
    rw [pool_register] at hport
    exact h.in_range hport

def discard (service : Service) (id : EndpointId) (e : Endpoint) : Service :=
  { service with
    endpoints := service.endpoints.erase id
    pools := service.pools.insert e.external.ip
      ((service.pool e.external.ip).releaseAll e.table.ports) }

theorem endpoints_discard : (service.discard id e).endpoints.get? other = some f ↔
    other ≠ id ∧ service.endpoints.get? other = some f := by
  rw [discard, Dictionary.get?_erase]
  split
  · next h => simp [h]
  · next h => simp [h]

theorem pool_discard (service : Service) (id : EndpointId) (e : Endpoint) (ip : IpAddress) :
    (service.discard id e).pool ip =
      if ip = e.external.ip then (service.pool e.external.ip).releaseAll e.table.ports
      else service.pool ip :=
  pool_insert ..

theorem taken_discard : port ∈ ((service.discard id e).pool ip).taken ↔
    port ∈ (service.pool ip).taken ∧ (ip = e.external.ip → port ∉ e.table.ports) := by
  rw [pool_discard]
  split
  · next h => simp [h]
  · next h => simp [h]

theorem Ledger.discard (h : service.Ledger) (he : service.endpoints.get? id = some e) :
    (service.discard id e).Ledger := by
  have hnodup : ∀ ip, ((service.discard id e).pool ip).taken.Nodup := by
    intro ip
    rw [pool_discard]
    split
    · exact PortPool.nodup_taken_releaseAll _ (h.nodup _)
    · exact h.nodup ip
  refine ⟨?_, ?_, ?_, hnodup, ?_, fun hport => h.in_range (taken_discard.1 hport).1⟩
  · intro other f hf
    obtain ⟨hne, hf⟩ := endpoints_discard.1 hf
    apply (h.site hf).share _ (hnodup _)
    intro port hport
    apply taken_discard.2
    exact ⟨(h.site hf).holdings.taken port hport, fun hip hmem => hne (h.separate hf he hip hport hmem)⟩
  · intro i j f g port hf hg
    exact h.separate (endpoints_discard.1 hf).2 (endpoints_discard.1 hg).2
  · intro ip port hport
    obtain ⟨hport, hnot⟩ := taken_discard.1 hport
    obtain ⟨other, f, hf, rfl, hmem⟩ := h.covered hport
    refine ⟨other, f, endpoints_discard.2 ⟨?_, hf⟩, rfl, hmem⟩
    rintro rfl
    obtain rfl : e = f := Option.some.inj (he.symm.trans hf)
    exact hnot rfl hmem
  · intro ip
    rw [pool_discard]
    split
    · exact (PortPool.range_releaseAll ..).trans (h.range_eq _)
    · exact h.range_eq ip

inductive Collected (service : Service) (id : EndpointId) : Service → Prop
  | kept : service.isReferenced id = true ∨ service.endpoints.get? id = none →
      Collected service id service
  | dropped {e : Endpoint} : service.isReferenced id = false → service.endpoints.get? id = some e →
      Collected service id (service.discard id e)

theorem collect_spec (service : Service) (id : EndpointId) :
    Collected service id (service.collect id) := by
  unfold collect
  cases hreferenced : service.isReferenced id with
  | true => exact .kept (.inl hreferenced)
  | false =>
    cases he : service.endpoints.get? id with
    | none => exact .kept (.inr he)
    | some e => exact .dropped hreferenced he

theorem Ledger.collect (h : service.Ledger) (id : EndpointId) : (service.collect id).Ledger := by
  have hspec := collect_spec service id
  generalize service.collect id = after at hspec
  cases hspec with
  | kept _ => exact h
  | dropped _ he => exact h.discard he

end Service

end TurnRelay
