import TurnRelay.Proofs.Service.Ledger

namespace TurnRelay

namespace Service

variable {service : Service} {id other : EndpointId} {e : Endpoint} {loose : List EndpointId}

theorem isReferenced_iff : service.isReferenced id = true ↔
    (∃ key, service.registry.get? key = some id) ∨ id ∈ service.holds := by
  simp [isReferenced, Dictionary.mem_values_iff]

/-- Endpoints are alive while something refers to them; but those in `loose` may be on their way out. -/
structure Sound (service : Service) (loose : List EndpointId) : Prop extends Ledger service where
  alive : ∀ {id}, service.isReferenced id = true → ∃ e, service.endpoints.get? id = some e
  referenced : ∀ {id e}, service.endpoints.get? id = some e →
    service.isReferenced id = true ∨ id ∈ loose
  registered : ∀ {key id e}, service.registry.get? key = some id →
    service.endpoints.get? id = some e → (e.interface, e.external) = key
  below : ∀ {id e}, service.endpoints.get? id = some e → id < service.nextId

theorem Sound.collect (h : service.Sound (id :: loose)) : (service.collect id).Sound loose := by
  have hledger := h.toLedger.collect id
  have hspec := collect_spec service id
  generalize service.collect id = after at hledger hspec
  cases hspec with
  | kept hkept =>
    refine ⟨hledger, h.alive, ?_, h.registered, h.below⟩
    intro other e he
    rcases h.referenced he with hreferenced | hloose
    · exact .inl hreferenced
    · cases hloose with
      | head =>
        apply Or.inl
        apply hkept.resolve_right
        rw [he]
        exact Option.some_ne_none e
      | tail _ hloose => exact .inr hloose
  | @dropped e hunreferenced _ =>
    refine ⟨hledger, ?_, ?_, ?_, ?_⟩
    · intro other hreferenced
      obtain ⟨f, hf⟩ := h.alive hreferenced
      refine ⟨f, endpoints_discard.2 ⟨?_, hf⟩⟩
      intro hsame
      rw [hsame] at hreferenced
      cases hunreferenced.symm.trans hreferenced
    · intro other f hf
      obtain ⟨hne, hf⟩ := endpoints_discard.1 hf
      rcases h.referenced hf with hreferenced | hloose
      · exact .inl hreferenced
      · exact .inr ((List.mem_cons.1 hloose).resolve_left hne)
    · intro key other f hkey hf
      exact h.registered hkey (endpoints_discard.1 hf).2
    · intro other f hf
      exact h.below (endpoints_discard.1 hf).2

theorem Sound.store (h : service.Sound loose) (he : service.endpoints.get? id = some e) {after : Site}
    (hsound : after.Sound) (hidentity : after.endpoint.identity = e.identity)
    (hconserves : Holdings.Conserves ⟨e.table, service.pool e.external.ip⟩ after.holdings) :
    (service.store id after).Sound loose := by
  have hback : ∀ {other f}, (service.store id after).endpoints.get? other = some f →
      ∃ g, service.endpoints.get? other = some g ∧ f.identity = g.identity := by
    intro other f hf
    rw [endpoints_store] at hf
    split at hf
    · next hid =>
      cases hf
      exact ⟨e, hid ▸ he, hidentity⟩
    · exact ⟨f, hf, rfl⟩
  refine ⟨h.toLedger.store he hsound hidentity hconserves, ?_, ?_, ?_, ?_⟩
  · intro other hreferenced
    obtain ⟨f, hf⟩ := h.alive hreferenced
    rw [endpoints_store]
    split
    · exact ⟨_, rfl⟩
    · exact ⟨f, hf⟩
  · intro other f hf
    obtain ⟨g, hg, _⟩ := hback hf
    exact h.referenced hg
  · intro key other f hkey hf
    obtain ⟨g, hg, hsame⟩ := hback hf
    simp only [Endpoint.identity, Prod.mk.injEq] at hsame
    rw [hsame.1, hsame.2.1]
    exact h.registered hkey hg
  · intro other f hf
    obtain ⟨g, hg, _⟩ := hback hf
    exact h.below hg

theorem Sound.hold (h : service.Sound loose) (he : service.endpoints.get? id = some e) :
    (service.hold id).Sound loose := by
  refine ⟨⟨h.site, h.separate, h.covered, h.nodup, h.range_eq, h.in_range⟩, ?_, ?_, h.registered, h.below⟩
  · intro other hreferenced
    rcases isReferenced_iff.1 hreferenced with hkey | hheld
    · exact h.alive (isReferenced_iff.2 (.inl hkey))
    · cases hheld with
      | head => exact ⟨e, he⟩
      | tail _ hheld => exact h.alive (isReferenced_iff.2 (.inr hheld))
  · intro other f hf
    rcases h.referenced hf with hreferenced | hloose
    · apply Or.inl
      apply isReferenced_iff.2
      exact (isReferenced_iff.1 hreferenced).imp (fun hkey => hkey) (List.mem_cons_of_mem _)
    · exact .inr hloose

section register

variable {interface external : TransportAddress}

theorem registry_register (hfree : service.registry.get? (interface, external) = none)
    {key : TransportAddress × TransportAddress} :
    (service.register interface external).2.registry.get? key = some id ↔
      key = (interface, external) ∧ service.nextId = id ∨ service.registry.get? key = some id := by
  rw [Service.register, Dictionary.get?_insert]
  split
  · next hkey => simp [hkey, hfree]
  · next hkey => simp [hkey]

theorem isReferenced_register (hfree : service.registry.get? (interface, external) = none) :
    (service.register interface external).2.isReferenced id = true ↔
      id = service.nextId ∨ service.isReferenced id = true := by
  rw [isReferenced_iff, isReferenced_iff]
  constructor
  · rintro (⟨key, hkey⟩ | hheld)
    · rcases (registry_register hfree).1 hkey with ⟨_, hid⟩ | hkey
      · exact .inl hid.symm
      · exact .inr (.inl ⟨key, hkey⟩)
    · exact .inr (.inr hheld)
  · rintro (hid | ⟨key, hkey⟩ | hheld)
    · exact .inl ⟨_, (registry_register hfree).2 (.inl ⟨rfl, hid.symm⟩)⟩
    · exact .inl ⟨key, (registry_register hfree).2 (.inr hkey)⟩
    · exact .inr hheld

theorem Sound.unborn (h : service.Sound loose) : service.endpoints.get? service.nextId = none := by
  cases he : service.endpoints.get? service.nextId with
  | none => rfl
  | some e => exact absurd (h.below he) (Nat.lt_irrefl _)

theorem Sound.register (h : service.Sound loose)
    (hfree : service.registry.get? (interface, external) = none) :
    (service.register interface external).2.Sound loose := by
  refine ⟨h.toLedger.register interface external h.unborn, ?_, ?_, ?_, ?_⟩
  · intro other hreferenced
    rw [endpoints_register]
    split
    · exact ⟨_, rfl⟩
    · next hne => exact h.alive (((isReferenced_register hfree).1 hreferenced).resolve_left hne)
  · intro other f hf
    rw [isReferenced_register hfree]
    rw [endpoints_register] at hf
    split at hf
    · next hid => exact .inl (.inl hid)
    · exact (h.referenced hf).imp_left .inr
  · intro key other f hkey hf
    rw [endpoints_register] at hf
    rcases (registry_register hfree).1 hkey with ⟨rfl, rfl⟩ | hkey
    · rw [if_pos rfl] at hf
      cases hf
      rfl
    · split at hf
      · next hid =>
        obtain ⟨g, hg⟩ := h.alive (isReferenced_iff.2 (.inl ⟨key, hkey⟩))
        cases h.unborn.symm.trans (hid ▸ hg)
      · exact h.registered hkey hf
  · intro other f hf
    rw [endpoints_register] at hf
    split at hf
    · next hid => exact hid ▸ Nat.lt_succ_self _
    · exact Nat.lt_succ_of_lt (h.below hf)

end register

theorem Sound.loosen (h : service.Sound []) (loose : List EndpointId)
    (registry : Dictionary (TransportAddress × TransportAddress) EndpointId) (holds : List EndpointId)
    (hregistry : ∀ key id, registry.get? key = some id → service.registry.get? key = some id)
    (hholds : ∀ id ∈ holds, id ∈ service.holds)
    (hloose : ∀ id, service.isReferenced id = true →
      (∃ key, registry.get? key = some id) ∨ id ∈ holds ∨ id ∈ loose) :
    ({ service with registry := registry, holds := holds } : Service).Sound loose := by
  refine ⟨⟨h.site, h.separate, h.covered, h.nodup, h.range_eq, h.in_range⟩, ?_, ?_, ?_, h.below⟩
  · intro id hreferenced
    apply h.alive
    apply isReferenced_iff.2
    exact (isReferenced_iff.1 hreferenced).imp (fun ⟨key, hkey⟩ => ⟨key, hregistry key id hkey⟩)
      (hholds id)
  · intro id e he
    rcases hloose id ((h.referenced he).resolve_right List.not_mem_nil) with hkey | hheld | hid
    · exact .inl (isReferenced_iff.2 (.inl hkey))
    · exact .inl (isReferenced_iff.2 (.inr hheld))
    · exact .inr hid
  · intro key id e hkey he
    exact h.registered (hregistry key id hkey) he

theorem Sound.release (h : service.Sound []) (id : EndpointId) : (service.release id).Sound [] := by
  apply Sound.collect
  apply h.loosen [id] service.registry (service.holds.erase id)
  · exact fun key other hkey => hkey
  · exact fun other hheld => List.mem_of_mem_erase hheld
  · intro other hreferenced
    rcases isReferenced_iff.1 hreferenced with hkey | hheld
    · exact .inl hkey
    · by_cases hsame : other = id
      · exact .inr (.inr (List.mem_singleton.2 hsame))
      · exact .inr (.inl ((List.mem_erase_of_ne hsame).2 hheld))

structure Shrinks (service after : Service) : Prop where
  config_eq : after.config = service.config
  nextId_eq : after.nextId = service.nextId
  endpoints : ∀ {id e}, after.endpoints.get? id = some e → service.endpoints.get? id = some e

theorem shrinks_collect (service : Service) (id : EndpointId) :
    service.Shrinks (service.collect id) := by
  have hspec := collect_spec service id
  generalize service.collect id = after at hspec
  cases hspec with
  | kept _ => exact ⟨rfl, rfl, fun he => he⟩
  | dropped _ _ => exact ⟨rfl, rfl, fun he => (endpoints_discard.1 he).2⟩

theorem shrinks_release (service : Service) (id : EndpointId) :
    service.Shrinks (service.release id) := by
  have h := shrinks_collect { service with holds := service.holds.erase id } id
  exact ⟨h.config_eq, h.nextId_eq, h.endpoints⟩

theorem shrinks_close (service : Service) : service.Shrinks service.close := by
  have hfold : ∀ (ids : List EndpointId) (emptied : Service), service.Shrinks emptied →
      service.Shrinks (ids.foldl Service.collect emptied) := by
    intro ids
    induction ids with
    | nil => exact fun _ h => h
    | cons id ids ih =>
      intro emptied h
      apply ih
      have hnext := shrinks_collect emptied id
      exact ⟨hnext.config_eq.trans h.config_eq, hnext.nextId_eq.trans h.nextId_eq,
        fun he => h.endpoints (hnext.endpoints he)⟩
  exact hfold _ _ ⟨rfl, rfl, fun he => he⟩

def unregister (service : Service) (key : TransportAddress × TransportAddress) : Service :=
  { service with registry := service.registry.erase key }

theorem Sound.unregister (h : service.Sound []) {key : TransportAddress × TransportAddress}
    (hkey : service.registry.get? key = some id) : (service.unregister key).Sound [id] := by
  apply h.loosen [id] (service.registry.erase key) service.holds
  · intro other third hother
    rw [Dictionary.get?_erase] at hother
    split at hother
    · cases hother
    · exact hother
  · exact fun other hheld => hheld
  · intro other hreferenced
    rcases isReferenced_iff.1 hreferenced with ⟨third, hthird⟩ | hheld
    · by_cases hsame : third = key
      · rw [hsame, hkey] at hthird
        exact .inr (.inr (List.mem_singleton.2 (Option.some.inj hthird).symm))
      · refine .inl ⟨third, ?_⟩
        rw [Dictionary.get?_erase, if_neg hsame, hthird]
    · exact .inr (.inl hheld)

theorem Sound.close (h : service.Sound []) : service.close.Sound [] := by
  have hloose : ({ service with registry := ∅ } : Service).Sound service.registry.values := by
    apply h.loosen service.registry.values ∅ service.holds
    · intro key id hkey
      cases hkey
    · exact fun id hheld => hheld
    · intro id hreferenced
      rcases isReferenced_iff.1 hreferenced with hkey | hheld
      · exact .inr (.inr (Dictionary.mem_values_iff.2 hkey))
      · exact .inr (.inl hheld)
  rw [Service.close]
  generalize ({ service with registry := ∅ } : Service) = emptied at hloose ⊢
  generalize service.registry.values = ids at hloose ⊢
  induction ids generalizing emptied with
  | nil => exact hloose
  | cons id ids ih => exact ih _ hloose.collect

end Service

end TurnRelay
