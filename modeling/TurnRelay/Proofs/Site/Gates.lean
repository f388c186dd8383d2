import TurnRelay.Proofs.Site.Delivery
import TurnRelay.Proofs.Site.Suspension

namespace TurnRelay

def Sends (raw : Bytes) (peer : TransportAddress) (payload : Bytes) : Prop :=
  ∃ m, Packet.decode raw = .ok (.message m) ∧ m.type = ⟨.send, .indication⟩ ∧
    m.peers.head? = some peer ∧ m.data? = some payload

@[simp] theorem TransportAddress.ip_bare (address : TransportAddress) : address.bare.ip = address.ip := by
  cases address <;> rfl

theorem Message.carryingSize_le {peer : TransportAddress} {payload : Bytes}
    (hsize : payload.length ≤ 60000) : carryingSize peer payload ≤ 65536 := by
  have hpadding := padding_lt payload.length
  cases peer <;> simp only [carryingSize, headerSize] <;> omega

theorem exists_sends (transaction : TransactionId) (peer : TransportAddress) {payload : Bytes}
    (hsize : payload.length ≤ 60000) :
    ∃ raw, (Message.carrying .send transaction peer payload).encode none false = .ok raw ∧
      Sends raw peer.bare payload := by
  obtain ⟨raw, hencode, hread⟩ := Message.exists_encode_carrying ⟨0x006, by decide, rfl⟩
    (Message.carryingSize_le hsize)
  exact ⟨raw, hencode, _, Packet.decode_eq_message_iff.2 hread, rfl, rfl, rfl⟩

namespace Site

variable {random : Randomness} {s : Site} {now : Nat} {client source peer : TransportAddress}
  {payload raw : Bytes} {a : Allocation} {m : Message} {frame : ChannelData}

theorem receive_send (hdecode : Packet.decode raw = .ok (.message m))
    (htype : m.type = ⟨.send, .indication⟩) (source : TransportAddress) (now : Nat) :
    s.receive raw source now = ⟨.done (.ok ((s.opened now).send m source now).1), s.expiries now,
      ((s.opened now).send m source now).2⟩ := by
  have hreceive : s.receive raw source now =
      (((s.opened now).handle raw source now).after (s.expiries now)).settledProgress := rfl
  simp only [hreceive, handle, hdecode, dispatch, htype, Step.after, Step.settledProgress, List.append_nil]

theorem receive_frame (hdecode : Packet.decode raw = .ok (.channelData frame))
    (source : TransportAddress) (now : Nat) :
    s.receive raw source now = (⟨.done ((s.opened now).forward frame source now).1, s.expiries now,
      ((s.opened now).forward frame source now).2⟩ : Step Progress).settledProgress := by
  have hreceive : s.receive raw source now =
      (((s.opened now).handle raw source now).after (s.expiries now)).settledProgress := rfl
  simp only [hreceive, handle, hdecode, Step.after, List.append_nil]

theorem send_opened (hpeer : m.peers.head? = some peer) (hdata : m.data? = some payload)
    (ha : s.endpoint.find? client now = some a) :
    (s.opened now).send m client now = if a.isPermitted peer.ip now then
      (some (.relayed payload .message peer a.relay), ((s.opened now).setTable
        ((s.opened now).endpoint.table.put (s.endpoint.tuple client)
          ((a.sweep now).permit peer.ip now))).countRelayed payload)
      else (none, s.opened now) := by
  have hfind : (s.opened now).endpoint.find? client now = some (a.sweep now) := by
    rw [find?_opened, ha, Option.map_some]
  have hstored : (s.opened now).endpoint.table.find? ((s.opened now).endpoint.tuple client) now =
      some (a.sweep now) := hfind
  simp only [send, hpeer, hdata, hfind, AllocationTable.touch, hstored, isPermitted_sweep]
  split <;> rfl

theorem forward_opened (s : Site) (frame : ChannelData) (source : TransportAddress) (now : Nat) :
    ((s.opened now).forward frame source now).1 =
      match s.endpoint.find? source now with
      | none => .error .invalidInput
      | some a =>
        match a.channels.peer? frame.number now with
        | none => .error .invalidInput
        | some peer => .ok (if a.isPermitted peer.ip now then
            some (.relayed frame.payload .channel peer a.relay) else none) := by
  have hpeer (a : Allocation) (number : UInt16) :
      (a.sweep now).channels.peer? number now = a.channels.peer? number now :=
    ChannelTable.peer?_reap ..
  rw [forward, find?_opened]
  cases s.endpoint.find? source now with
  | none => rfl
  | some a =>
    simp only [Option.map_some, hpeer, isPermitted_sweep]
    cases a.channels.peer? frame.number now with
    | none => rfl
    | some peer =>
      simp only
      split <;> rfl

theorem table_forward (s : Site) (frame : ChannelData) (source : TransportAddress) (now : Nat) :
    (s.forward frame source now).2.endpoint.table = s.endpoint.table := by
  unfold forward
  split
  · rfl
  · split
    · rfl
    · split <;> rfl

theorem table_settledProgress (step : Step Progress) :
    step.settledProgress.site.endpoint.table = step.site.endpoint.table := by
  unfold Step.settledProgress
  split <;> rfl

theorem result_settledProgress (step : Step Progress) : step.settledProgress.result = step.result := by
  unfold Step.settledProgress
  split <;> rfl

theorem view_receive_frame (hs : s.Sound) (hdecode : Packet.decode raw = .ok (.channelData frame))
    (source : TransportAddress) (now : Nat) :
    (s.receive raw source now).site.endpoint.table.view now = s.endpoint.table.view now := by
  rw [receive_frame hdecode, table_settledProgress, table_forward]
  exact view_opened hs now

theorem frame_error_iff (hdecode : Packet.decode raw = .ok (.channelData frame))
    (source : TransportAddress) (now : Nat) (e : PacketError) :
    (s.receive raw source now).result = .done (.error e) ↔ e = .invalidInput ∧
      ∀ a, s.endpoint.find? source now = some a → a.channels.peer? frame.number now = none := by
  rw [receive_frame hdecode, result_settledProgress, forward_opened]
  cases s.endpoint.find? source now with
  | none => simp [eq_comm]
  | some a =>
    cases hpeer : a.channels.peer? frame.number now with
    | none => simp [hpeer, eq_comm]
    | some peer => simp [hpeer]

theorem view_permit (hs : s.Sound) (ha : s.endpoint.find? client now = some a) (ip : IpAddress) :
    ((s.opened now).endpoint.table.put (s.endpoint.tuple client) ((a.sweep now).permit ip now)).view now =
      (s.endpoint.table.put (s.endpoint.tuple client) (a.permit ip now)).view now := by
  have hpaired := (hs.holdings.wellFormed.fits (AllocationTable.find?_eq_some_iff.1 ha).1).paired
  have hview := Allocation.view_permitEach_sweep hpaired [ip] now
  exact AllocationTable.view_put_congr (view_opened hs now) hview _

theorem deliver_isSome_iff (hs : s.Sound) (ha : s.endpoint.find? client now = some a)
    (random : Randomness) (peer : TransportAddress) (hsize : payload.length ≤ 60000) :
    (s.deliver random a.relay.port peer payload now).result.isSome = true ↔
      a.isPermitted peer.ip now = true := by
  have howns : s.Owns now a.relay.port client a := ⟨ha, rfl⟩
  rw [(deliver_conveyed hs random a.relay.port peer payload now).isSome_iff hs]
  constructor
  · rintro ⟨-, other, b, howns', hpermitted, -⟩
    obtain ⟨-, rfl⟩ := howns.unique hs howns'
    exact hpermitted
  · intro hpermitted
    exact ⟨by omega, client, a, howns, hpermitted, .inr (Message.carryingSize_le hsize)⟩

/-- What the three ways do with a payload between the owner `client` of `a` and `peer`. -/
structure Gated (random : Randomness) (s : Site) (now : Nat) (client : TransportAddress) (a : Allocation)
    (peer : TransportAddress) (payload : Bytes) : Prop where
  permitted_iff : (s.deliver random a.relay.port peer payload now).result.isSome = true ↔
    a.isPermitted peer.ip now = true
  send_eq : ∀ raw, Sends raw peer.bare payload → (s.receive raw client now).result =
    .done (.ok (if (s.deliver random a.relay.port peer payload now).result.isSome then
      some (.relayed payload .message peer.bare (s.endpoint.external.ip.withPort a.relay.port)) else none))
  frame_eq : ∀ raw number, Packet.decode raw = .ok (.channelData ⟨number, payload⟩) →
    a.channels.peer? number now = some peer → (s.receive raw client now).result =
    .done (.ok (if (s.deliver random a.relay.port peer payload now).result.isSome then
      some (.relayed payload .channel peer (s.endpoint.external.ip.withPort a.relay.port)) else none))
  send_view : ∀ raw, Sends raw peer.bare payload →
    (s.receive raw client now).site.endpoint.table.view now =
      if (s.deliver random a.relay.port peer payload now).result.isSome then
        (s.endpoint.table.put (s.endpoint.tuple client) (a.permit peer.ip now)).view now
      else s.endpoint.table.view now
  send_extends : ∀ raw, Sends raw peer.bare payload →
    (s.deliver random a.relay.port peer payload now).result.isSome = true →
    ∃ b, (s.receive raw client now).site.endpoint.find? client now = some b ∧
      b.permissions.get? peer.ip = some (now + milliseconds s.endpoint.config.permissionLifetime)
  frame_view : ∀ raw number, Packet.decode raw = .ok (.channelData ⟨number, payload⟩) →
    (s.receive raw client now).site.endpoint.table.view now = s.endpoint.table.view now
  deliver_view : (s.deliver random a.relay.port peer payload now).site.endpoint.table.view now =
    s.endpoint.table.view now
  sendable : ∀ transaction, ∃ raw,
    (Message.carrying .send transaction peer payload).encode none false = .ok raw ∧
      Sends raw peer.bare payload
  framable : ∀ number padded, a.channels.peer? number now = some peer →
    Packet.decode (ChannelData.encode ⟨number, payload⟩ padded) = .ok (.channelData ⟨number, payload⟩)

theorem result_receive_send (ha : s.endpoint.find? client now = some a) (hsends : Sends raw peer payload) :
    (s.receive raw client now).result = .done (.ok (if a.isPermitted peer.ip now then
      some (.relayed payload .message peer a.relay) else none)) := by
  obtain ⟨m, hdecode, htype, hpeer, hdata⟩ := hsends
  rw [receive_send hdecode htype, send_opened hpeer hdata ha]
  split <;> rfl

theorem table_receive_send (ha : s.endpoint.find? client now = some a) (hsends : Sends raw peer payload) :
    (s.receive raw client now).site.endpoint.table = if a.isPermitted peer.ip now then
      (s.opened now).endpoint.table.put (s.endpoint.tuple client) ((a.sweep now).permit peer.ip now)
      else (s.opened now).endpoint.table := by
  obtain ⟨m, hdecode, htype, hpeer, hdata⟩ := hsends
  rw [receive_send hdecode htype, send_opened hpeer hdata ha]
  split <;> rfl

theorem find?_receive_send (hs : s.Sound) (ha : s.endpoint.find? client now = some a)
    (hsends : Sends raw peer payload) (hpermitted : a.isPermitted peer.ip now = true) :
    ∃ b, (s.receive raw client now).site.endpoint.find? client now = some b ∧
      b.permissions.get? peer.ip = some (now + milliseconds s.endpoint.config.permissionLifetime) := by
  obtain ⟨hstored, hlive⟩ := AllocationTable.find?_eq_some_iff.1 ha
  have hidentity := (receive_spec s raw client now).identity
  refine ⟨(a.sweep now).permit peer.ip now, ?_, ?_⟩
  · rw [Endpoint.find?, tuple_eq_of_identity hidentity, table_receive_send ha hsends, if_pos hpermitted]
    exact AllocationTable.find?_put _ _ hlive
  · have hlifetime : a.permissions.lifetime = s.endpoint.table.permissionLifetime :=
      (hs.holdings.wellFormed.fits hstored).permission_lifetime
    rw [Allocation.get?_permit, if_pos rfl, ← hs.permission_lifetime, ← hlifetime]
    rfl

theorem gated (hs : s.Sound) (hc : s.endpoint.table.Channelled)
    (ha : s.endpoint.find? client now = some a) (random : Randomness) (peer : TransportAddress)
    (hsize : payload.length ≤ 60000) : s.Gated random now client a peer payload := by
  obtain ⟨hstored, hlive⟩ := AllocationTable.find?_eq_some_iff.1 ha
  have hpermitted := deliver_isSome_iff hs ha random peer hsize
  refine ⟨hpermitted, ?_, ?_, ?_, ?_, ?_, ?_, fun transaction => exists_sends transaction peer hsize, ?_⟩
  · intro raw hsends
    rw [result_receive_send ha hsends, ← hs.relay_eq hstored]
    simp only [hpermitted, TransportAddress.ip_bare]
  · intro raw number hdecode hpeer
    rw [receive_frame hdecode, result_settledProgress, forward_opened, ha, ← hs.relay_eq hstored]
    simp only [hpermitted, hpeer]
  · intro raw hsends
    rw [table_receive_send ha hsends]
    simp only [hpermitted, TransportAddress.ip_bare]
    split
    · exact view_permit hs ha peer.ip
    · exact view_opened hs now
  · intro raw hsends hdelivered
    rw [← peer.ip_bare]
    exact find?_receive_send hs ha hsends (peer.ip_bare.symm ▸ hpermitted.1 hdelivered)
  · exact fun raw number hdecode => view_receive_frame hs hdecode client now
  · obtain ⟨after, gone, hlapses, -, hsite⟩ :=
      (deliver_conveyed hs random a.relay.port peer payload now).lapses hs
    rw [hsite]
    split <;> exact hlapses.view_eq
  · intro number padded hpeer
    have hreachable := hc _ _ hstored
    have hnumber := hreachable.isChannelNumber_of_number? (hreachable.paired.peer?_iff.1 hpeer)
    exact Packet.decode_frame hnumber (by omega) padded

end Site

theorem Run.paths_gated {random : Randomness} {log : List Record} {m : Moment} (h : Run random log m) :
    (∀ raw source request, Packet.decode raw = .ok (.message request) →
      request.type = ⟨.send, .indication⟩ →
      ∃ response, (m.site.receive raw source m.now).result = .done (.ok response)) ∧
    (∀ raw source frame, Packet.decode raw = .ok (.channelData frame) → ∀ e,
      (m.site.receive raw source m.now).result = .done (.error e) ↔ e = .invalidInput ∧
        ∀ a, m.site.endpoint.find? source m.now = some a →
          a.channels.peer? frame.number m.now = none) ∧
    ∀ client a, m.site.endpoint.find? client m.now = some a → ∀ peer payload, payload.length ≤ 60000 →
      m.site.Gated random m.now client a peer payload := by
  refine ⟨fun raw source request hdecode htype => ?_, fun raw source frame hdecode e => ?_,
    fun client a ha peer payload hsize => ?_⟩
  · rw [Site.receive_send hdecode htype]
    exact ⟨_, rfl⟩
  · exact Site.frame_error_iff hdecode source m.now e
  · exact Site.gated h.sound.site h.channelled ha random peer hsize

theorem paths_gated_sample :
    Run Sample.random (Sample.start.records Sample.random Sample.calls []) Sample.permitted ∧
      ∃ a, Sample.permitted.site.endpoint.find? Sample.client Sample.permitted.now = some a ∧
        a.isPermitted Sample.peer.ip Sample.permitted.now = true ∧
        Sample.permitted.site.Gated Sample.random Sample.permitted.now Sample.client a Sample.peer
          [1, 2, 3] := by
  have hfound : (Sample.permitted.site.endpoint.find? Sample.client Sample.permitted.now).any
      (·.isPermitted Sample.peer.ip Sample.permitted.now) = true := by decide +kernel
  obtain ⟨a, ha, hpermitted⟩ := (Option.any_eq_true _ _).1 hfound
  exact ⟨Sample.run_permitted, a, ha, hpermitted,
    (Run.paths_gated Sample.run_permitted).2.2 _ _ ha _ _ (by decide)⟩

end TurnRelay
