import TurnRelay.Proofs.Site.Provenance

namespace TurnRelay

variable {random : Randomness} {log : List Record} {m : Moment} {client : TransportAddress}
  {a : Allocation}

theorem Run.time_le (h : Run random log m) : ∀ r ∈ log, r.time ≤ m.now := by
  induction h with
  | start _ => exact fun r hr => absurd hr List.not_mem_nil
  | wait _ hlater ih => exact fun r hr => Nat.le_trans (ih r hr) hlater
  | share _ _ _ _ ih => exact ih
  | serve _ _ ih =>
    intro r hr
    cases hr with
    | head => exact Nat.le_refl _
    | tail _ hr => exact ih r hr

theorem Tenure.cons {b : Allocation} {since : List Record} {r : Record}
    (h : Tenure client a since log) (hcontinues : a.Continues b) (hkeeps : r.Keeps client) :
    Tenure client b (r :: since) (r :: log) := by
  obtain ⟨creation, before, rfl, hcreates, hsince⟩ := h
  refine ⟨creation, before, rfl, ?_, ?_⟩
  · rw [Record.Creates, hcontinues.created_eq, hcontinues.username_eq, hcontinues.relay_eq]
    exact hcreates
  · intro other hother
    cases hother with
    | head => exact hkeeps
    | tail _ hother => exact hsince other hother

theorem Backed.cons {realm : String} {b : Allocation} {ip : IpAddress} {ends : Nat}
    {since : List Record} {r : Record}
    (h : ∀ {ip ends}, a.permissions.get? ip = some ends → Backed realm client a ip ends since)
    (hcontinues : a.Continues b) (hcarried : Carried realm client a b r ip)
    (hends : b.permissions.get? ip = some ends) : Backed realm client b ip ends (r :: since) := by
  cases hcarried with
  | renewed hrenews hnew hbasis =>
    have hlatest : ∃ renewal, Latest (Record.Renews realm client ip) (r :: since) renewal ∧
        ends = renewal.time + b.permissions.lifetime := by
      rw [hcontinues.lifetime_eq]
      exact ⟨r, .head hrenews, Option.some.inj (hends.symm.trans hnew)⟩
    rcases hbasis with ⟨peer, hgrants, hip, hfamily⟩ | ⟨old, hold⟩
    · refine ⟨hcontinues.relay_eq ▸ hfamily, ⟨r, List.mem_cons_self, peer, ?_, hip⟩, hlatest⟩
      exact hcontinues.username_eq ▸ hgrants
    · obtain ⟨hfamily, ⟨grant, hmem, hgrants⟩, _⟩ := h hold
      refine ⟨hcontinues.relay_eq ▸ hfamily, ⟨grant, List.mem_cons_of_mem _ hmem, ?_⟩, hlatest⟩
      exact hcontinues.username_eq ▸ hgrants
  | carried hquiet hsub =>
    obtain ⟨hfamily, ⟨grant, hmem, hgrants⟩, renewal, hlatest, htime⟩ := h (hsub ends hends)
    refine ⟨hcontinues.relay_eq ▸ hfamily, ⟨grant, List.mem_cons_of_mem _ hmem, ?_⟩, renewal,
      hlatest.cons hquiet, ?_⟩
    · exact hcontinues.username_eq ▸ hgrants
    · rw [hcontinues.lifetime_eq]
      exact htime

theorem Run.provenance (h : Run random log m)
    (ha : m.site.endpoint.table.allocations.get? (m.site.endpoint.tuple client) = some a) :
    ∃ since, Tenure client a since log ∧ ∀ {ip ends}, a.permissions.get? ip = some ends →
      Backed m.site.endpoint.config.realm client a ip ends since := by
  induction h generalizing a with
  | start _ => cases ha
  | wait _ _ ih => exact ih ha
  | share _ _ _ _ ih => exact ih ha
  | @serve log m call hrun hfits ih =>
    have hidentity := (Site.serve_spec random m.site m.now call).identity
    have hrealm : (m.serve random call).site.endpoint.config.realm = m.site.endpoint.config.realm :=
      congrArg (·.2.2.realm) hidentity
    have htuple : (m.serve random call).site.endpoint.tuple client = m.site.endpoint.tuple client :=
      Site.tuple_eq_of_identity hidentity client
    rw [htuple] at ha
    rw [hrealm]
    have htraced := Moment.traced hrun.sound hfits ha
    cases htraced with
    | fresh hcreates hnone =>
      refine ⟨[], ⟨_, _, rfl, hcreates, fun r hr => absurd hr List.not_mem_nil⟩, ?_⟩
      intro ip ends hends
      rw [hnone] at hends
      cases hends
    | kept hbefore hcontinues hkeeps hcarried =>
      obtain ⟨since, htenure, hbacked⟩ := ih hbefore
      exact ⟨_ :: since, htenure.cons hcontinues hkeeps, fun hends =>
        Backed.cons hbacked hcontinues (hcarried _) hends⟩

theorem Run.backed (h : Run random log m) {ip : IpAddress}
    (ha : m.site.endpoint.table.allocations.get? (m.site.endpoint.tuple client) = some a)
    (hpermitted : a.isPermitted ip m.now = true) :
    ∃ since, Tenure client a since log ∧ ip.family = a.relay.ip.family ∧
      (∃ r ∈ since, ∃ peer, r.Grants m.site.endpoint.config.realm client a.username peer ∧
        peer.ip = ip) ∧
      ∃ r, Latest (Record.Renews m.site.endpoint.config.realm client ip) since r ∧ r.time ≤ m.now ∧
        m.now < r.time + milliseconds m.site.endpoint.config.permissionLifetime := by
  obtain ⟨since, htenure, hbacked⟩ := h.provenance ha
  obtain ⟨ends, hends, hlive⟩ := Option.any_eq_true _ _ |>.1 hpermitted
  obtain ⟨hfamily, hgranted, r, hlatest, rfl⟩ := hbacked hends
  refine ⟨since, htenure, hfamily, hgranted, r, hlatest, ?_, ?_⟩
  · obtain ⟨creation, before, rfl, _, _⟩ := htenure
    exact h.time_le r (List.mem_append_left _ hlatest.mem)
  · have hs := h.sound.site
    have hlifetime : a.permissions.lifetime = m.site.endpoint.table.permissionLifetime :=
      (hs.holdings.wellFormed.fits ha).permission_lifetime
    rw [← hs.permission_lifetime, ← hlifetime]
    exact of_decide_eq_true hlive

namespace Site

variable {s : Site} {now : Nat} {b : Allocation} {peer : TransportAddress} {port : UInt16}

theorem find?_of_kept {source : TransportAddress}
    (h : Holdings.kept now (s.endpoint.table.allocations.get? (s.endpoint.tuple source)) = some b) :
    ∃ a, s.endpoint.find? source now = some a ∧ a.sweep now = b := by
  obtain ⟨a, ha, hlive, hsweep⟩ := Holdings.kept_eq_some_iff.1 h
  exact ⟨a, AllocationTable.find?_eq_some_iff.2 ⟨ha, hlive⟩, hsweep⟩

theorem isPermitted_of_sweep {ip : IpAddress} (h : (a.sweep now).isPermitted ip now = true) :
    a.isPermitted ip now = true := by
  rw [← h]
  exact (PermissionTable.isPermitted_reap ..).symm

theorem Received.gate {raw : Bytes} {source origin : TransportAddress} {step : Step Progress}
    (h : Received s raw source now step)
    (hroute : (Outcome.progress step.result).route? = some ⟨peer, origin⟩) :
    ∃ a, s.endpoint.find? source now = some a ∧ a.relay = origin ∧ a.isPermitted peer.ip now = true := by
  have hopened := get?_opened s now (s.endpoint.tuple source)
  cases h with
  | answered _ _ => cases hroute
  | dropped => cases hroute
  | refused e => cases hroute
  | waiting _ _ _ _ => cases hroute
  | sent _ _ _ _ hfind hpermitted =>
    cases hroute
    obtain ⟨a, ha, rfl⟩ := find?_of_kept (hopened.symm.trans (AllocationTable.find?_eq_some_iff.1 hfind).1)
    exact ⟨a, ha, rfl, isPermitted_of_sweep hpermitted⟩
  | forwarded _ hfind _ hpermitted =>
    cases hroute
    obtain ⟨a, ha, rfl⟩ := find?_of_kept (hopened.symm.trans (AllocationTable.find?_eq_some_iff.1 hfind).1)
    exact ⟨a, ha, rfl, isPermitted_of_sweep hpermitted⟩

theorem stored_of_findByPort? (hs : s.Sound)
    (h : (s.reaped now).endpoint.table.findByPort? port now = some b) :
    (s.reaped now).endpoint.table.allocations.get? (s.endpoint.tuple b.tuple.client) = some b ∧
      b.relay.port = port := by
  obtain ⟨tuple, howner, hfind⟩ := Option.bind_eq_some_iff.1 h
  have hb := (AllocationTable.find?_eq_some_iff.1 hfind).1
  have hreaped := (Holdings.conserves_reap hs.holdings now).sound.wellFormed
  obtain ⟨c, hc, hport⟩ := hreaped.owner_iff.1 howner
  obtain rfl : b = c := Option.some.inj (hb.symm.trans hc)
  have htuple : b.tuple = tuple := (hreaped.fits hb).tuple_eq
  obtain ⟨d, hd, _⟩ := Holdings.kept_eq_some_iff.1 ((get?_reaped s now tuple).symm.trans hb)
  rw [htuple, ← hs.own hd]
  exact ⟨hb, hport⟩

theorem Delivered.gate {payload : Bytes} {origin : TransportAddress} {step : Step (Option Response)}
    (h : Delivered random s port peer payload now step) (hs : s.Sound)
    (hroute : (Outcome.response step.result).route? = some ⟨client, origin⟩) :
    ∃ a, s.endpoint.find? client now = some a ∧ a.relay.port = port ∧
      a.isPermitted peer.ip now = true := by
  cases h with
  | oversize => cases hroute
  | dropped => cases hroute
  | delivered hfind hpermitted =>
    cases hroute
    obtain ⟨hkept, hport⟩ := stored_of_findByPort? hs hfind
    rw [get?_reaped] at hkept
    obtain ⟨a, ha, rfl⟩ := find?_of_kept hkept
    exact ⟨a, ha, hport, isPermitted_of_sweep hpermitted⟩

theorem Served.gate {call : Call} {step : Step Outcome} (h : Served random s now call step)
    (hs : s.Sound)
    (hpasses : Record.Passes client peer port ⟨now, call, step.result, step.events⟩) :
    ∃ a, s.endpoint.find? client now = some a ∧ a.relay.port = port ∧
      a.isPermitted peer.ip now = true := by
  cases hpasses with
  | outward hcall hroute hport =>
    cases hcall
    cases h with
    | received h =>
      obtain ⟨a, ha, horigin, hpermitted⟩ := h.gate hroute
      exact ⟨a, ha, horigin ▸ hport, hpermitted⟩
  | inward hcall hroute =>
    cases hcall
    cases h with
    | delivered h => exact h.gate hs hroute

end Site

/-- Whenever data passes at `port` between a client and a peer, the client has a live allocation there,
and since it was created the log has a request of the client for that peer, authenticated as the owner,
and a latest renewal that is less than a permission lifetime old. -/
theorem Run.relaying_authorised {call : Call} {peer : TransportAddress} {port : UInt16}
    (h : Run random log m) (hpasses : (m.record random call).Passes client peer port) :
    ∃ a since, m.site.endpoint.find? client m.now = some a ∧ a.relay.port = port ∧
      peer.ip.family = a.relay.ip.family ∧ Tenure client a since log ∧
      (∃ r ∈ since, ∃ named,
        r.Grants m.site.endpoint.config.realm client a.username named ∧ named.ip = peer.ip) ∧
      ∃ r, Latest (Record.Renews m.site.endpoint.config.realm client peer.ip) since r ∧
        r.time ≤ m.now ∧ m.now < r.time + milliseconds m.site.endpoint.config.permissionLifetime := by
  have hserved := Site.serve_spec random m.site m.now call
  obtain ⟨a, hfind, hport, hpermitted⟩ := hserved.gate h.sound.site hpasses
  have ha := (AllocationTable.find?_eq_some_iff.1 hfind).1
  obtain ⟨since, htenure, hfamily, hgranted, hrenewed⟩ := h.backed ha hpermitted
  exact ⟨a, since, hfind, hport, hfamily, htenure, hgranted, hrenewed⟩

theorem Sample.route?_indication :
    (Sample.permitted.record Sample.random (.receive Sample.indication Sample.client)).outcome.route? =
      some ⟨Sample.peer, .v4 0xCB007101 49152⟩ := by
  decide +kernel

theorem relaying_authorised_sample :
    (Sample.permitted.record Sample.random (.receive Sample.indication Sample.client)).Passes
        Sample.client Sample.peer 49152 ∧
      ∃ a since, Sample.permitted.site.endpoint.find? Sample.client 0 = some a ∧
        Tenure Sample.client a since (Sample.start.records Sample.random Sample.calls []) := by
  have hpasses : (Sample.permitted.record Sample.random
      (.receive Sample.indication Sample.client)).Passes Sample.client Sample.peer 49152 :=
    .outward rfl Sample.route?_indication rfl
  obtain ⟨a, since, hfind, _, _, htenure, _⟩ :=
    Run.relaying_authorised Sample.run_permitted hpasses
  exact ⟨hpasses, a, since, hfind, htenure⟩

end TurnRelay
