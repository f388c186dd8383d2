import TurnRelay.Proofs.Service.Run

namespace TurnRelay

namespace Dictionary

variable {κ α : Type} [DecidableEq κ]

theorem pairwise_values {d : Dictionary κ α} {R : α → α → Prop}
    (h : ∀ {k l v w}, d.get? k = some v → d.get? l = some w → k ≠ l → R v w) : d.values.Pairwise R := by
  apply List.pairwise_map.2
  apply (List.pairwise_map.1 d.nodup).imp_of_mem
  intro e f he hf hne
  exact h (get?_eq_some_iff.2 he) (get?_eq_some_iff.2 hf) hne

end Dictionary

namespace Service

variable {service : Service} {a : Allocation} {ip : IpAddress} {port : UInt16}

def stored (service : Service) (ip : IpAddress) : List Allocation :=
  (service.endpoints.values.filter (·.external.ip = ip)).flatMap (·.table.allocations.values)

def relayPorts (service : Service) (ip : IpAddress) : List UInt16 :=
  (service.stored ip).map (·.relay.port)

theorem mem_stored : a ∈ service.stored ip ↔ ∃ id e tuple, service.endpoints.get? id = some e ∧
    e.external.ip = ip ∧ e.table.allocations.get? tuple = some a := by
  simp only [stored, List.mem_flatMap, List.mem_filter, Dictionary.mem_values_iff, decide_eq_true_eq]
  constructor
  · rintro ⟨e, ⟨⟨id, he⟩, hip⟩, tuple, ha⟩
    exact ⟨id, e, tuple, he, hip, ha⟩
  · rintro ⟨id, e, tuple, he, hip, ha⟩
    exact ⟨e, ⟨⟨id, he⟩, hip⟩, tuple, ha⟩

structure Accounted (service : Service) (range : PortRange) : Prop where
  alive_iff : ∀ id, (∃ e, service.endpoints.get? id = some e) ↔
    (∃ key, service.registry.get? key = some id) ∨ id ∈ service.holds
  taken : ∀ ip, (service.pool ip).taken.Perm (service.relayPorts ip)
  disjoint : ∀ ip, (service.relayPorts ip).Nodup
  inUse : ∀ ip, service.portsInUse ip = (service.stored ip).length
  relay_eq : ∀ {id e tuple a}, service.endpoints.get? id = some e →
    e.table.allocations.get? tuple = some a →
    ∃ port, a.relay = e.external.ip.withPort port ∧ range.contains port = true
  relay_unique : ∀ {id other e f tuple third a b}, service.endpoints.get? id = some e →
    service.endpoints.get? other = some f → e.table.allocations.get? tuple = some a →
    f.table.allocations.get? third = some b → a.relay = b.relay → id = other ∧ tuple = third
  owner_iff : ∀ {id e port tuple}, service.endpoints.get? id = some e →
    (e.table.owners.get? port = some tuple ↔
      ∃ a, e.table.allocations.get? tuple = some a ∧ a.relay.port = port)

theorem Ledger.mem_taken_iff (h : service.Ledger) :
    port ∈ (service.pool ip).taken ↔ port ∈ service.relayPorts ip := by
  simp only [relayPorts, List.mem_map, mem_stored]
  constructor
  · intro hport
    obtain ⟨id, e, he, hip, hmem⟩ := h.covered hport
    obtain ⟨tuple, a, ha, hrelay⟩ := (h.site he).holdings.wellFormed.ports_iff.1 hmem
    exact ⟨a, ⟨id, e, tuple, he, hip, ha⟩, hrelay⟩
  · rintro ⟨a, ⟨id, e, tuple, he, rfl, ha⟩, rfl⟩
    have hs := (h.site he).holdings
    exact hs.taken _ (hs.wellFormed.ports_iff.2 ⟨tuple, a, ha, rfl⟩)

theorem Ledger.nodup_relayPorts (h : service.Ledger) (ip : IpAddress) :
    (service.relayPorts ip).Nodup := by
  apply List.pairwise_map.2
  apply List.pairwise_flatMap.2
  -- ports differ within an endpoint by its own index, and between two by their shared pool
  constructor
  · intro e he
    obtain ⟨id, he⟩ := Dictionary.mem_values_iff.1 (List.mem_filter.1 he).1
    apply Dictionary.pairwise_values
    intro tuple third a b ha hb hne hport
    exact hne ((h.site he).holdings.wellFormed.tuple_unique ha hb hport)
  · have hpairs : (service.endpoints.values.filter (·.external.ip = ip)).Pairwise
        fun e f => e.external.ip = f.external.ip → ∀ port ∈ e.table.ports, port ∉ f.table.ports := by
      apply List.Pairwise.filter
      apply Dictionary.pairwise_values
      intro i j e f he hf hne hip port hi hj
      exact hne (h.separate he hf hip hi hj)
    apply hpairs.imp_of_mem
    intro e f he hf hapart a ha b hb hport
    obtain ⟨⟨i, he⟩, hei⟩ := (List.mem_filter.1 he).imp_left Dictionary.mem_values_iff.1
    obtain ⟨⟨j, hf⟩, hfj⟩ := (List.mem_filter.1 hf).imp_left Dictionary.mem_values_iff.1
    obtain ⟨tuple, ha⟩ := Dictionary.mem_values_iff.1 ha
    obtain ⟨third, hb⟩ := Dictionary.mem_values_iff.1 hb
    have hsame : e.external.ip = f.external.ip :=
      (of_decide_eq_true hei).trans (of_decide_eq_true hfj).symm
    apply hapart hsame a.relay.port
    · exact (h.site he).holdings.wellFormed.ports_iff.2 ⟨tuple, a, ha, rfl⟩
    · exact (h.site hf).holdings.wellFormed.ports_iff.2 ⟨third, b, hb, hport.symm⟩

theorem Sound.accounted (h : service.Sound []) : service.Accounted service.config.portRange where
  alive_iff id := by
    rw [← isReferenced_iff]
    constructor
    · rintro ⟨e, he⟩
      exact (h.referenced he).resolve_right List.not_mem_nil
    · exact h.alive
  taken ip :=
    (List.perm_ext_iff_of_nodup (h.nodup ip) (h.nodup_relayPorts ip)).2 fun _ => h.mem_taken_iff
  disjoint := h.nodup_relayPorts
  inUse ip := by
    have hperm := (List.perm_ext_iff_of_nodup (h.nodup ip) (h.nodup_relayPorts ip)).2 fun _ =>
      h.mem_taken_iff
    have hlength := hperm.length_eq
    rw [relayPorts, List.length_map] at hlength
    exact hlength
  relay_eq := by
    intro id e tuple a he ha
    have hs := (h.site he).holdings
    have hport := hs.taken _ (hs.wellFormed.ports_iff.2 ⟨tuple, a, ha, rfl⟩)
    exact ⟨a.relay.port, (h.site he).relay_eq ha, h.in_range hport⟩
  relay_unique := by
    intro id other e f tuple third a b he hf ha hb hrelay
    have hip : e.external.ip = f.external.ip := by
      rw [← (h.site he).relay_ip ha, ← (h.site hf).relay_ip hb, hrelay]
    have hport : a.relay.port = b.relay.port := congrArg TransportAddress.port hrelay
    have hmem : a.relay.port ∈ e.table.ports :=
      (h.site he).holdings.wellFormed.ports_iff.2 ⟨tuple, a, ha, rfl⟩
    have hmem' : a.relay.port ∈ f.table.ports :=
      (h.site hf).holdings.wellFormed.ports_iff.2 ⟨third, b, hb, hport.symm⟩
    obtain rfl : id = other := h.separate he hf hip hmem hmem'
    obtain rfl : e = f := Option.some.inj (he.symm.trans hf)
    exact ⟨rfl, (h.site he).holdings.wellFormed.tuple_unique ha hb hport⟩
  owner_iff he := (h.site he).holdings.wellFormed.owner_iff

end Service

theorem Host.ports_accounted {random : Randomness} {config : Config} {host : Host}
    (h : Host.Reachable random config host) : host.service.Accounted config.portRange := by
  obtain ⟨hs, hconfig⟩ := h.sound
  rw [← hconfig]
  exact hs.accounted

namespace Sample

def second : TransportAddress := .v4 0xCB007101 3479

def shared (range : PortRange) : Config :=
  { Config.ofRealm "example.org" ["203.0.113.1:3478", "203.0.113.1:3479"] with portRange := range }

def newService (config : Config) (externals : List TransportAddress) : Service where
  config := config
  externals := externals
  registry := ∅
  endpoints := ∅
  pools := ∅
  holds := []
  nextId := 0
  draws := .none

def sharedService (range : PortRange) : Service := newService (shared range) [external, second]

def firstObtained (range : PortRange) : Host :=
  ⟨((sharedService range).register interface external).2.hold 0, 0, fun _ => []⟩

def bothObtained (range : PortRange) : Host :=
  ⟨((firstObtained range).service.register interface second).2.hold 1, 0, fun _ => []⟩

theorem obtain_first (range : PortRange) : (sharedService range).obtain "10.0.0.1:3478" "203.0.113.1:3478" =
    some (0, (firstObtained range).service) := rfl

theorem obtain_second (range : PortRange) :
    (firstObtained range).service.obtain "10.0.0.1:3478" "203.0.113.1:3479" =
      some (1, (bothObtained range).service) := rfl

theorem reachable_bothObtained {range : PortRange}
    (h : Service.ofConfig (shared range) = .ok (sharedService range)) :
    Host.Reachable random (shared range) (bothObtained range) :=
  .step (.step (.start h) (.obtain (obtain_first range))) (.obtain (obtain_second range))

def bothAsked : List (EndpointId × Call) :=
  [(0, ask .allocate allocation), (0, answer .allocate allocation), (1, ask .allocate allocation),
    (1, answer .allocate allocation)]

/-- The client has the one port at the first endpoint and the other at the second. -/
def served : Host := (bothObtained ⟨50000, 50001⟩).play random bothAsked

theorem served_spec : (bothObtained ⟨50000, 50001⟩).Plays random bothAsked ∧
    (served.service.endpoints.get? 0).map (·.table.ports) = some [50000] ∧
    (served.service.endpoints.get? 1).map (·.table.ports) = some [50001] ∧
    served.service.portsInUse external.ip = 2 := by
  decide +kernel

theorem reachable_served : Host.Reachable random (shared ⟨50000, 50001⟩) served :=
  (reachable_bothObtained rfl).play served_spec.1

end Sample

theorem ports_accounted_sample :
    Host.Reachable Sample.random (Sample.shared ⟨50000, 50001⟩) Sample.served ∧
      (Sample.served.service.endpoints.get? 0).map (·.table.ports) = some [50000] ∧
      (Sample.served.service.endpoints.get? 1).map (·.table.ports) = some [50001] ∧
      Sample.served.service.portsInUse Sample.external.ip = 2 ∧
      Sample.served.service.Accounted ⟨50000, 50001⟩ := by
  obtain ⟨-, hfirst, hsecond, hinUse⟩ := Sample.served_spec
  exact ⟨Sample.reachable_served, hfirst, hsecond, hinUse, Host.ports_accounted Sample.reachable_served⟩

end TurnRelay
