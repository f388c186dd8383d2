import TurnRelay.Proofs.Message.Packet
import TurnRelay.Proofs.Site.Replies
import TurnRelay.Proofs.Site.Run
import TurnRelay.Proofs.Table.View

namespace TurnRelay

/-- From `before` to `after` nothing went but the allocations `gone`, which had expired by `now`. -/
structure Site.Lapses (now : Nat) (before after : Site) (gone : List Allocation) : Prop where
  nodup : gone.Nodup
  expired : ∀ a ∈ gone, before.endpoint.table.allocations.get? a.tuple = some a ∧ a.ends ≤ now
  evicted : ∀ a ∈ gone, after.endpoint.table.allocations.get? a.tuple = none
  view_eq : after.endpoint.table.view now = before.endpoint.table.view now
  range_eq : after.pool.range = before.pool.range
  taken_iff : ∀ port, port ∈ after.pool.taken ↔
    port ∈ before.pool.taken ∧ ∀ a ∈ gone, a.relay.port ≠ port
  created_eq : after.endpoint.stats.created = before.endpoint.stats.created
  relayed_eq : after.endpoint.stats.relayed = before.endpoint.stats.relayed

/-- The step does no more than let expired allocations go and tell of that and of `asked`. -/
def Site.Idle {α : Type} (now : Nat) (s : Site) (step : Step α) (asked : List Event) : Prop :=
  ∃ gone, s.Lapses now step.site gone ∧
    step.events = gone.map (fun a => .aborted a.tuple.client a.username) ++ asked

def Answer.IsBarren : Answer → Prop
  | .ok (some _) => False
  | _ => True

namespace Site

variable {random : Randomness} {s : Site} {source : TransportAddress} {user : String} {now : Nat}
  {raw : Bytes} {lookup : Lookup} {password : Option String} {e : PacketError}

theorem Lapses.refl (s : Site) : s.Lapses now s [] :=
  ⟨List.nodup_nil, by simp, by simp, rfl, rfl, by simp, rfl, rfl⟩

theorem lapses_reaped (hs : s.Sound) (now : Nat) :
    s.Lapses now (s.reaped now) (s.holdings.reap now).1 where
  nodup := Holdings.nodup_reap hs.holdings now
  expired _ ha := (Holdings.mem_reap hs.holdings).1 ha
  evicted a ha := by
    obtain ⟨hstored, hexpired⟩ := (Holdings.mem_reap hs.holdings).1 ha
    have hstored : s.endpoint.table.allocations.get? a.tuple = some a := hstored
    rw [get?_reaped, hstored]
    simp [Holdings.kept, Option.filter, Allocation.isExpired_eq_true_iff.2 hexpired]
  view_eq := Holdings.view_reap hs.holdings now
  range_eq := PortPool.range_releaseAll ..
  taken_iff _ := Holdings.mem_taken_reap
  created_eq := rfl
  relayed_eq := rfl

theorem lapses_opened (hs : s.Sound) (now : Nat) :
    s.Lapses now (s.opened now) (s.holdings.reap now).1 :=
  let h := lapses_reaped hs now
  ⟨h.nodup, h.expired, h.evicted, h.view_eq, h.range_eq, h.taken_iff, rfl, rfl⟩

theorem Lapses.countError {after : Site} {gone : List Allocation} (h : s.Lapses now after gone) :
    s.Lapses now after.countError gone :=
  ⟨h.nodup, h.expired, h.evicted, h.view_eq, h.range_eq, h.taken_iff, h.created_eq, h.relayed_eq⟩

theorem Lapses.settled {step : Step Answer} {gone : List Allocation} (h : s.Lapses now step.site gone) :
    s.Lapses now step.settled.site gone := by
  unfold Step.settled
  split
  · exact h
  · exact h.countError

theorem Idle.settled {α : Type} {step : Step α} {asked : List Event} (h : s.Idle now step asked)
    (answer : α → Answer) : s.Idle now (step.map answer).settled asked := by
  obtain ⟨gone, hlapses, hevents⟩ := h
  have hmapped : s.Lapses now (step.map answer).site gone := hlapses
  exact ⟨gone, hmapped.settled, (Step.events_settled _).trans hevents⟩

theorem Executed.idle {command : Command} {step : Step (Except PacketError (List Attribute))}
    (h : Executed random s source user now command step) (hs : s.Sound) (herror : step.result = .error e) :
    s.Idle now step [] := by
  cases h with
  | created | extended | renewed | deleted | permitted | bound => cases herror
  | occupied => exact ⟨_, lapses_reaped hs now, (List.append_nil _).symm⟩
  | exhausted =>
    have h := lapses_reaped hs now
    exact ⟨_, ⟨h.nodup, h.expired, h.evicted, h.view_eq, h.range_eq, h.taken_iff, rfl, rfl⟩,
      (List.append_nil _).symm⟩
  | disowned => exact ⟨[], .refl s, rfl⟩
  | @unbound number peer a channels howned hchannels =>
    have ha := (AllocationTable.stored_of_owned howned).1
    have hview : ({ a with channels := channels } : Allocation).view now = a.view now := by
      rcases hchannels with rfl | rfl
      · rfl
      · exact Allocation.view_channels_reap (hs.holdings.wellFormed.fits ha).paired now
    exact ⟨[], ⟨List.nodup_nil, by simp, by simp, AllocationTable.view_put_of_view ha hview, rfl, by simp [setTable],
      rfl, rfl⟩, rfl⟩

theorem Received.idle {step : Step Progress} {answer : Answer} (h : Received s raw source now step)
    (hs : s.Sound) (hdone : step.result = .done answer) :
    answer ≠ .error .fatal ∧ (Answer.IsBarren answer → s.Idle now step []) := by
  cases h with
  | answered | sent | forwarded =>
    cases hdone
    exact ⟨nofun, False.elim⟩
  | dropped =>
    cases hdone
    exact ⟨nofun, fun _ => ⟨_, lapses_opened hs now, (List.append_nil _).symm⟩⟩
  | refused e hcode =>
    cases hdone
    refine ⟨?_, fun _ => ⟨_, (lapses_opened hs now).countError, (List.append_nil _).symm⟩⟩
    rintro ⟨⟩
    exact Packet.ne_fatal_of_decode_error (hcode rfl) rfl
  | waiting => cases hdone

theorem Received.idle_of_waiting {step : Step Progress} (h : Received s raw source now step)
    (hs : s.Sound) (hwaiting : step.result = .waiting lookup) :
    s.Idle now step [.passwordAsked source lookup.user] := by
  cases h with
  | answered | sent | forwarded | dropped | refused => cases hwaiting
  | waiting =>
    cases hwaiting
    exact ⟨_, lapses_opened hs now, rfl⟩

theorem Resumed.idle {step : Step Answer} (h : Resumed random s lookup password now step)
    (hs : s.Sound) (hdecode : Message.decode lookup.raw = .ok lookup.request)
    (hsoftware : (Utf8.encode s.endpoint.config.software).length ≤ 65000) :
    step.result ≠ .error .fatal ∧ (Answer.IsBarren step.result → s.Idle now step []) := by
  cases h with
  | refused e hcode =>
    refine ⟨fun hfatal => ?_, fun _ => ⟨[], (Lapses.refl s).countError, rfl⟩⟩
    cases hfatal
    exact hcode rfl
  | @executed credential command inner _ _ hexecuted =>
    rw [Step.result_settled]
    cases hresult : inner.result with
    | ok attributes =>
      obtain ⟨data, reply, hsealed, -⟩ :=
        exists_sealed hdecode (hexecuted.sendable hresult) hsoftware credential.key
      have hreply : (inner.map (s.sealed lookup credential.key)).result = .ok (some (.reply data)) := by
        rw [← hsealed, ← hresult]
        rfl
      rw [hreply]
      exact ⟨nofun, False.elim⟩
    | error e =>
      have herror : (inner.map (s.sealed lookup credential.key)).result = .error e := by
        rw [← s.sealed_error lookup credential.key e, ← hresult]
        rfl
      rw [herror]
      refine ⟨fun hfatal => ?_, fun _ => (hexecuted.idle hs hresult).settled _⟩
      cases hfatal
      exact hexecuted.code?_ne_none hresult rfl

end Site

theorem Run.refusal_idle {random : Randomness} {log : List Record} {m : Moment} (h : Run random log m)
    (hsoftware : (Utf8.encode m.site.endpoint.config.software).length ≤ 65000) :
    (∀ raw source, let step := m.site.receive raw source m.now
      (∀ answer, step.result = .done answer →
        answer ≠ .error .fatal ∧ (Answer.IsBarren answer → m.site.Idle m.now step [])) ∧
      ∀ lookup, step.result = .waiting lookup →
        m.site.Idle m.now step [.passwordAsked source lookup.user]) ∧
    ∀ lookup ∈ m.waiting, ∀ password, let step := m.site.resume random lookup password m.now
      step.result ≠ .error .fatal ∧ (Answer.IsBarren step.result → m.site.Idle m.now step []) := by
  have hs := h.sound.site
  refine ⟨fun raw source => ?_, fun lookup hlookup password => ?_⟩
  · have hreceived := Site.receive_spec m.site raw source m.now
    exact ⟨fun answer => hreceived.idle hs, fun lookup => hreceived.idle_of_waiting hs⟩
  · have hdecode := Packet.decode_eq_message_iff.1 (h.sound.genuine lookup hlookup).decoded
    exact (Site.resume_spec random m.site lookup password m.now).idle hs hdecode hsoftware

namespace Sample

def renewing : Moment := permitted.serve random (ask .refresh [])

theorem renewing_spec : (Utf8.encode renewing.site.endpoint.config.software).length ≤ 65000 ∧
    lookup .refresh [] ∈ renewing.waiting ∧
    (renewing.site.endpoint.find? client renewing.now).any (·.isPermitted peer.ip renewing.now) = true := by
  decide +kernel

theorem run_renewing : Run random
    (permitted.record random (ask .refresh []) :: start.records random calls []) renewing :=
  run_permitted.serve trivial

end Sample

open Sample in
theorem refusal_idle_sample :
    (Utf8.encode renewing.site.endpoint.config.software).length ≤ 65000 ∧
      lookup .refresh [] ∈ renewing.waiting ∧
      (∃ a, renewing.site.endpoint.find? client renewing.now = some a ∧
        a.isPermitted peer.ip renewing.now = true) ∧
      renewing.site.Idle renewing.now
        (renewing.site.resume random (lookup .refresh []) none renewing.now) [] := by
  obtain ⟨hsoftware, hlookup, hpermitted⟩ := renewing_spec
  exact ⟨hsoftware, hlookup, (Option.any_eq_true _ _).1 hpermitted,
    ((Run.refusal_idle run_renewing hsoftware).2 _ hlookup none).2 trivial⟩

end TurnRelay
