import TurnRelay.Proofs.Message.Bare
import TurnRelay.Proofs.Site.Authorisation
import TurnRelay.Proofs.Site.Channels
import TurnRelay.Proofs.Site.Refusal

namespace TurnRelay

namespace Site

variable {random : Randomness} {s : Site} {now : Nat} {port : UInt16} {client peer : TransportAddress}
  {payload : Bytes} {a b : Allocation}

def Owns (s : Site) (now : Nat) (port : UInt16) (client : TransportAddress) (a : Allocation) : Prop :=
  s.endpoint.find? client now = some a ∧ a.relay.port = port

theorem Owns.tuple_eq (h : s.Owns now port client a) (hs : s.Sound) : a.tuple = s.endpoint.tuple client :=
  (hs.holdings.wellFormed.fits (AllocationTable.find?_eq_some_iff.1 h.1).1).tuple_eq

theorem Owns.paired (h : s.Owns now port client a) (hs : s.Sound) : a.channels.Paired :=
  (hs.holdings.wellFormed.fits (AllocationTable.find?_eq_some_iff.1 h.1).1).paired

theorem findByPort?_reaped (hs : s.Sound) :
    (s.reaped now).endpoint.table.findByPort? port now = some b ↔
      ∃ client a, s.Owns now port client a ∧ a.sweep now = b := by
  have hreaped := (Holdings.conserves_reap hs.holdings now).sound.wellFormed
  have hfind (tuple : FiveTuple) : (s.reaped now).endpoint.table.find? tuple now =
      (s.endpoint.table.find? tuple now).map (·.sweep now) := Holdings.find?_reap s.holdings now tuple
  rw [show (s.reaped now).endpoint.table.findByPort? port now = some b ↔ _ from
    hreaped.findByPort?_eq_some_iff]
  change (s.reaped now).endpoint.table.find? b.tuple now = some b ∧ b.relay.port = port ↔ _
  rw [hfind, Option.map_eq_some_iff]
  constructor
  · rintro ⟨⟨a, hfound, rfl⟩, hport⟩
    have howner := hs.own (AllocationTable.find?_eq_some_iff.1 hfound).1
    rw [howner] at hfound
    exact ⟨_, a, ⟨hfound, hport⟩, rfl⟩
  · rintro ⟨client, a, howns, rfl⟩
    refine ⟨⟨a, ?_, rfl⟩, howns.2⟩
    exact (howns.tuple_eq hs).symm ▸ howns.1

theorem Owns.unique (h : s.Owns now port client a) (hs : s.Sound) {other : TransportAddress}
    (h' : s.Owns now port other b) : client = other ∧ a = b := by
  have ha := (AllocationTable.find?_eq_some_iff.1 h.1).1
  have hb := (AllocationTable.find?_eq_some_iff.1 h'.1).1
  have htuple := hs.holdings.wellFormed.tuple_unique ha hb (h.2.trans h'.2.symm)
  obtain rfl : client = other := congrArg FiveTuple.client htuple
  exact ⟨rfl, Option.some.inj (ha.symm.trans hb)⟩

inductive Conveyed (s : Site) (port : UInt16) (peer : TransportAddress) (payload : Bytes) (now : Nat) :
    Step (Option Response) → Prop
  | oversize : 65535 < payload.length → Conveyed s port peer payload now ⟨none, [], s⟩
  | unowned : (∀ client a, ¬ s.Owns now port client a) →
      Conveyed s port peer payload now ⟨none, s.expiries now, s.reaped now⟩
  | unpermitted {client : TransportAddress} {a : Allocation} : s.Owns now port client a →
      a.isPermitted peer.ip now = false →
      Conveyed s port peer payload now ⟨none, s.expiries now, s.reaped now⟩
  | framed {client : TransportAddress} {a : Allocation} {number : UInt16} : payload.length ≤ 65535 →
      s.Owns now port client a → a.isPermitted peer.ip now = true →
      a.channels.number? peer now = some number →
      Conveyed s port peer payload now
        ⟨some (.relayed (ChannelData.encode ⟨number, payload⟩ false) .channel client s.endpoint.interface),
          s.expiries now, (s.reaped now).countRelayed payload⟩
  | indicated {client : TransportAddress} {a : Allocation} {transaction : TransactionId} {data : Bytes}
      {draws : Draws} : payload.length ≤ 65535 → s.Owns now port client a →
      a.isPermitted peer.ip now = true → a.channels.number? peer now = none →
      (dataIndication transaction peer payload).encode none false = .ok data →
      Conveyed s port peer payload now
        ⟨some (.relayed data .message client s.endpoint.interface), s.expiries now,
          { s.reaped now with draws := draws }.countRelayed payload⟩
  | overlong {client : TransportAddress} {a : Allocation} {transaction : TransactionId}
      {e : PacketError} {draws : Draws} : s.Owns now port client a →
      a.channels.number? peer now = none →
      (dataIndication transaction peer payload).encode none false = .error e →
      Conveyed s port peer payload now ⟨none, s.expiries now, { s.reaped now with draws := draws }⟩

theorem isPermitted_sweep (a : Allocation) (ip : IpAddress) (now : Nat) :
    (a.sweep now).isPermitted ip now = a.isPermitted ip now :=
  PermissionTable.isPermitted_reap ..

theorem deliver_conveyed (hs : s.Sound) (random : Randomness) (port : UInt16) (peer : TransportAddress)
    (payload : Bytes) (now : Nat) :
    Conveyed s port peer payload now (s.deliver random port peer payload now) := by
  unfold deliver
  split
  · next hsize => exact .oversize hsize
  · next hsize =>
    have hsize : payload.length ≤ 65535 := Nat.le_of_not_lt hsize
    simp only [reap_eq]
    cases hfind : (s.reaped now).endpoint.table.findByPort? port now with
    | none =>
      refine .unowned fun client a howns => ?_
      cases hfind.symm.trans ((findByPort?_reaped hs).2 ⟨client, a, howns, rfl⟩)
    | some b =>
      obtain ⟨client, a, howns, rfl⟩ := (findByPort?_reaped hs).1 hfind
      have hnumber : (a.sweep now).channels.number? peer now = a.channels.number? peer now :=
        congrFun (ChannelTable.number?_reap (howns.paired hs) now) peer
      have hclient : (a.sweep now).tuple.client = client := congrArg FiveTuple.client (howns.tuple_eq hs)
      by_cases hpermitted : a.isPermitted peer.ip now = true
      · simp only [isPermitted_sweep, if_pos hpermitted, wrap, hnumber, hclient]
        cases hbound : a.channels.number? peer now with
        | some number => exact .framed hsize howns hpermitted hbound
        | none =>
          cases hencode : (dataIndication (random.nextTransaction (s.reaped now).draws).1 peer
              payload).encode none false with
          | ok data =>
            simp only [Except.toOption, Option.map_some]
            exact .indicated hsize howns hpermitted hbound hencode
          | error e =>
            simp only [Except.toOption, Option.map_none]
            exact .overlong howns hbound hencode
      · simp only [isPermitted_sweep, if_neg hpermitted]
        exact .unpermitted howns (Bool.eq_false_iff.2 hpermitted)

/-- From the response the client reads the payload, on the channel of the peer if there is one, and
otherwise in a Data indication that names the peer and nothing else. -/
def Carries (a : Allocation) (peer : TransportAddress) (payload : Bytes) (now : Nat) (response : Response) :
    Prop :=
  (∃ number, a.channels.peer? number now = some peer ∧ response.framing = .channel ∧
    Packet.decode response.data = .ok (.channelData ⟨number, payload⟩)) ∨
  ((∀ number, a.channels.peer? number now ≠ some peer) ∧ response.framing = .message ∧
    ∃ m, Packet.decode response.data = .ok (.message m) ∧ m.type = ⟨.data, .indication⟩ ∧
      m.attributes = [⟨.xorPeerAddress, .xorPeerAddress peer.bare⟩, ⟨.data, .raw payload⟩])

/-- The owner of the port may be reached by the peer, and the payload fits what would carry it. -/
def Deliverable (s : Site) (port : UInt16) (peer : TransportAddress) (payload : Bytes) (now : Nat) : Prop :=
  payload.length ≤ 65535 ∧ ∃ client a, s.Owns now port client a ∧ a.isPermitted peer.ip now = true ∧
    ((∃ number, a.channels.peer? number now = some peer) ∨ Message.carryingSize peer payload ≤ 65536)

structure Delivers (s : Site) (port : UInt16) (peer : TransportAddress) (payload : Bytes) (now : Nat)
    (step : Step (Option Response)) : Prop where
  isSome_iff : step.result.isSome = true ↔ s.Deliverable port peer payload now
  response : ∀ response, step.result = some response → ∃ client a, s.Owns now port client a ∧
    response.route = some ⟨client, s.endpoint.interface⟩ ∧ Carries a peer payload now response
  relayed_eq : step.site.endpoint.stats.relayed =
    s.endpoint.stats.relayed + if step.result.isSome then payload.length else 0
  lapses : ∃ after gone, s.Lapses now after gone ∧
    step.events = gone.map (fun a => .aborted a.tuple.client a.username) ∧
    step.site = if step.result.isSome then after.countRelayed payload else after
  view_eq : step.site.endpoint.table.view now = s.endpoint.table.view now
  identity_eq : step.site.endpoint.identity = s.endpoint.identity

theorem encode_dataIndication_isOk_iff {transaction : TransactionId} :
    (∃ data, (dataIndication transaction peer payload).encode none false = .ok data) ↔
      Message.carryingSize peer payload ≤ 65536 :=
  Message.encode_carrying_isOk_iff ⟨0x007, by decide, rfl⟩

theorem Conveyed.isSome_iff {step : Step (Option Response)} (h : Conveyed s port peer payload now step)
    (hs : s.Sound) : step.result.isSome = true ↔ s.Deliverable port peer payload now := by
  cases h with
  | oversize hsize =>
    refine iff_of_false nofun ?_
    rintro ⟨hle, -⟩
    omega
  | unowned hnone =>
    refine iff_of_false nofun ?_
    rintro ⟨-, client, a, howns, -⟩
    exact hnone client a howns
  | unpermitted howns hrefused =>
    refine iff_of_false nofun ?_
    rintro ⟨-, client, a, howns', hpermitted, -⟩
    obtain ⟨rfl, rfl⟩ := howns.unique hs howns'
    rw [hrefused] at hpermitted
    cases hpermitted
  | @framed client a number hsize howns hpermitted hbound =>
    have hpeer := (howns.paired hs).peer?_iff.2 hbound
    exact iff_of_true rfl ⟨hsize, client, a, howns, hpermitted, .inl ⟨number, hpeer⟩⟩
  | @indicated client a transaction data draws hsize howns hpermitted _ hencode =>
    have hfits := encode_dataIndication_isOk_iff.1 ⟨data, hencode⟩
    exact iff_of_true rfl ⟨hsize, client, a, howns, hpermitted, .inr hfits⟩
  | overlong howns hunbound hencode =>
    refine iff_of_false nofun ?_
    rintro ⟨-, client, a, howns', -, hcarrier⟩
    obtain ⟨rfl, rfl⟩ := howns.unique hs howns'
    rcases hcarrier with ⟨number, hpeer⟩ | hfits
    · cases hunbound.symm.trans ((howns.paired hs).peer?_iff.1 hpeer)
    · obtain ⟨data, hok⟩ := encode_dataIndication_isOk_iff.2 hfits
      cases hencode.symm.trans hok

theorem Conveyed.carries {step : Step (Option Response)} {response : Response}
    (h : Conveyed s port peer payload now step) (hs : s.Sound) (hc : s.endpoint.table.Channelled)
    (hresult : step.result = some response) : ∃ client a, s.Owns now port client a ∧
      response.route = some ⟨client, s.endpoint.interface⟩ ∧ Carries a peer payload now response := by
  cases h with
  | oversize | unowned | unpermitted | overlong => cases hresult
  | @framed client a number hsize howns _ hbound =>
    cases hresult
    have hpeer := (howns.paired hs).peer?_iff.2 hbound
    have hreachable := hc _ _ (AllocationTable.find?_eq_some_iff.1 howns.1).1
    have hnumber := hreachable.isChannelNumber_of_number? hbound
    exact ⟨client, a, howns, rfl, .inl ⟨number, hpeer, rfl, Packet.decode_frame hnumber hsize false⟩⟩
  | @indicated client a transaction data draws _ howns _ hunbound hencode =>
    cases hresult
    have hfits := encode_dataIndication_isOk_iff.1 ⟨data, hencode⟩
    obtain ⟨raw, hraw, hread⟩ : ∃ raw, (dataIndication transaction peer payload).encode none false =
        .ok raw ∧ Message.decode raw = .ok (dataIndication transaction peer.bare payload) :=
      Message.exists_encode_carrying ⟨0x007, by decide, rfl⟩ hfits
    obtain rfl : data = raw := Except.ok.inj (hencode.symm.trans hraw)
    refine ⟨client, a, howns, rfl, .inr ⟨fun number hpeer => ?_, rfl,
      dataIndication transaction peer.bare payload, ?_, rfl, rfl⟩⟩
    · cases hunbound.symm.trans ((howns.paired hs).peer?_iff.1 hpeer)
    · exact Packet.decode_eq_message_iff.2 hread

theorem Lapses.withDraws {after : Site} {gone : List Allocation} (h : s.Lapses now after gone)
    (draws : Draws) : s.Lapses now { after with draws := draws } gone :=
  ⟨h.nodup, h.expired, h.evicted, h.view_eq, h.range_eq, h.taken_iff, h.created_eq, h.relayed_eq⟩

theorem Conveyed.lapses {step : Step (Option Response)} (h : Conveyed s port peer payload now step)
    (hs : s.Sound) : ∃ after gone, s.Lapses now after gone ∧
      step.events = gone.map (fun a => .aborted a.tuple.client a.username) ∧
      step.site = if step.result.isSome then after.countRelayed payload else after := by
  have hreaped := lapses_reaped hs now
  cases h with
  | oversize => exact ⟨s, [], .refl s, rfl, rfl⟩
  | unowned | unpermitted | framed => exact ⟨_, _, hreaped, rfl, rfl⟩
  | indicated | overlong => exact ⟨_, _, hreaped.withDraws _, rfl, rfl⟩

end Site

theorem Run.delivers_exactly {random : Randomness} {log : List Record} {m : Moment}
    (h : Run random log m) (port : UInt16) (peer : TransportAddress) (payload : Bytes) :
    m.site.Delivers port peer payload m.now (m.site.deliver random port peer payload m.now) := by
  have hs := h.sound.site
  have hconveyed := Site.deliver_conveyed hs random port peer payload m.now
  obtain ⟨after, gone, hlapses, hevents, hsite⟩ := hconveyed.lapses hs
  have hdelivered := Site.deliver_spec random m.site port peer payload m.now
  refine ⟨hconveyed.isSome_iff hs, fun _ => hconveyed.carries hs h.channelled, ?_,
    ⟨after, gone, hlapses, hevents, hsite⟩, ?_, hdelivered.identity⟩
  · rw [hsite]
    split
    · exact congrArg (· + payload.length) hlapses.relayed_eq
    · exact hlapses.relayed_eq
  · rw [hsite]
    split <;> exact hlapses.view_eq

theorem delivers_exactly_sample :
    Run Sample.random (Sample.start.records Sample.random Sample.calls []) Sample.permitted ∧
      (Sample.permitted.site.deliver Sample.random 49152 Sample.peer [1, 2, 3]
        Sample.permitted.now).result.isSome = true ∧
      Sample.permitted.site.Delivers 49152 Sample.peer [1, 2, 3] Sample.permitted.now
        (Sample.permitted.site.deliver Sample.random 49152 Sample.peer [1, 2, 3] Sample.permitted.now) :=
  ⟨Sample.run_permitted, by decide +kernel, Run.delivers_exactly Sample.run_permitted ..⟩

end TurnRelay
