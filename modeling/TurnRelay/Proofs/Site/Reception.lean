import TurnRelay.Endpoint.Exchange
import TurnRelay.Proofs.Table.Stored

/-!
The ways in which the first step with a packet ends, one constructor for each, with all that is known
then. Proofs about the step go by cases on these and never open it again.
-/

namespace TurnRelay

theorem Credential.code?_of_claimant_error {realm : String} {m : Message} {e : PacketError}
    (h : claimant realm m = .error e) : e.code? ≠ none := by
  rw [eq_of_claimant_error h]
  cases m.hasIntegrity <;> decide

theorem Message.eq_of_encode_error {m : Message} {key : Option Bytes} {stamped : Bool} {e : PacketError}
    (h : m.encode key stamped = .error e) : e = .invalidInput := by
  simp only [encode] at h
  split at h
  · cases h
    rfl
  · cases h

def Endpoint.identity (endpoint : Endpoint) : TransportAddress × TransportAddress × Config :=
  (endpoint.interface, endpoint.external, endpoint.config)

namespace Site

variable {s : Site} {source : TransportAddress} {user : String} {now : Nat}

def reaped (s : Site) (now : Nat) : Site := (s.reap now).2

def expiries (s : Site) (now : Nat) : List Event :=
  (s.holdings.reap now).1.map fun a => .aborted a.tuple.client a.username

@[simp] theorem reap_eq (s : Site) (now : Nat) : s.reap now = (s.expiries now, s.reaped now) := rfl

@[simp] theorem holdings_reaped (s : Site) (now : Nat) :
    (s.reaped now).holdings = (s.holdings.reap now).2 := rfl

def countProcessed (s : Site) : Site :=
  s.count fun stats => { stats with processed := stats.processed + 1 }

/-- The site at which a packet is looked at. -/
def opened (s : Site) (now : Nat) : Site := s.countProcessed.reaped now

@[simp] theorem holdings_opened (s : Site) (now : Nat) :
    (s.opened now).holdings = (s.holdings.reap now).2 := rfl

def procedureType : Procedure → MessageType
  | .allocate => ⟨.allocate, .request⟩
  | .refresh => ⟨.refresh, .request⟩
  | .createPermission => ⟨.createPermission, .request⟩
  | .channelBind => ⟨.channelBind, .request⟩

theorem class_procedureType (procedure : Procedure) :
    (procedureType procedure).messageClass = .request := by
  cases procedure <;> rfl

theorem procedureType_inj {first second : Procedure} (h : procedureType first = procedureType second) :
    first = second := by
  cases first <;> cases second <;> first | rfl | cases h

theorem dispatch_procedure (s : Site) {procedure : Procedure} {m : Message} (raw : Bytes)
    (source : TransportAddress) (now : Nat) (h : m.type = procedureType procedure) :
    s.dispatch m raw source now = s.askPassword procedure m raw source now := by
  cases procedure <;> simp only [dispatch, h, procedureType]

inductive Received (s : Site) (raw : Bytes) (source : TransportAddress) (now : Nat) :
    Step Progress → Prop
  | answered {m : Message} {data : Bytes} : Packet.decode raw = .ok (.message m) →
      m.type = ⟨.binding, .request⟩ →
      (s.successOf m (bindingAttributes source s.endpoint.external)).encode none true = .ok data →
      Received s raw source now ⟨.done (.ok (some (.reply data))),
        s.expiries now ++ [.bindingAnswered source], s.opened now⟩
  | dropped : (∀ m, Packet.decode raw = .ok (.message m) → m.type.messageClass ≠ .request) →
      Received s raw source now ⟨.done (.ok none), s.expiries now, s.opened now⟩
  | refused (e : PacketError) : (e.code? = none → Packet.decode raw = .error e) →
      Received s raw source now ⟨.done (.error e), s.expiries now, (s.opened now).countError⟩
  | waiting {procedure : Procedure} {m : Message} {user : String} :
      Packet.decode raw = .ok (.message m) → m.type = procedureType procedure →
      (procedure.needsAllocation = true → ((s.opened now).endpoint.find? source now).isSome) →
      Credential.claimant s.endpoint.config.realm m = .ok user →
      Received s raw source now ⟨.waiting ⟨procedure, m, raw, source, user⟩,
        s.expiries now ++ [.passwordAsked source user], s.opened now⟩
  | sent {m : Message} {peer : TransportAddress} {data : Bytes} {a : Allocation} :
      Packet.decode raw = .ok (.message m) → m.type = ⟨.send, .indication⟩ →
      m.peers.head? = some peer → m.data? = some data →
      (s.opened now).endpoint.find? source now = some a → a.isPermitted peer.ip now = true →
      Received s raw source now ⟨.done (.ok (some (.relayed data .message peer a.relay))),
        s.expiries now, ((s.opened now).setTable ((s.opened now).endpoint.table.put
          (s.endpoint.tuple source) (a.permit peer.ip now))).countRelayed data⟩
  | forwarded {frame : ChannelData} {peer : TransportAddress} {a : Allocation} :
      Packet.decode raw = .ok (.channelData frame) →
      (s.opened now).endpoint.find? source now = some a →
      a.channels.peer? frame.number now = some peer → a.isPermitted peer.ip now = true →
      Received s raw source now ⟨.done (.ok (some (.relayed frame.payload .channel peer a.relay))),
        s.expiries now, (s.opened now).countRelayed frame.payload⟩

theorem dropped_of_message {raw : Bytes} {m : Message} (hdecode : Packet.decode raw = .ok (.message m))
    (hclass : m.type.messageClass ≠ .request) :
    Received s raw source now ⟨.done (.ok none), s.expiries now, s.opened now⟩ := by
  apply Received.dropped
  intro other hother
  cases hdecode.symm.trans hother
  exact hclass

theorem askPassword_spec {raw : Bytes} {procedure : Procedure} {m : Message}
    (hdecode : Packet.decode raw = .ok (.message m)) (htype : m.type = procedureType procedure) :
    Received s raw source now
      ((((s.opened now).askPassword procedure m raw source now).after (s.expiries now)).settledProgress) := by
  unfold askPassword
  by_cases hneeds : procedure.needsAllocation = true ∧ ((s.opened now).endpoint.find? source now).isNone = true
  · simp only [if_pos hneeds, Step.after, Step.settledProgress, List.append_nil]
    exact .refused .invalidInput nofun
  · rw [if_neg hneeds]
    cases hclaim : Credential.claimant s.endpoint.config.realm m with
    | error e =>
      have hclaim' : Credential.claimant (s.opened now).endpoint.config.realm m = .error e := hclaim
      simp only [hclaim', Step.after, Step.settledProgress, List.append_nil]
      exact .refused e fun hcode => absurd hcode (Credential.code?_of_claimant_error hclaim)
    | ok user =>
      have hclaim' : Credential.claimant (s.opened now).endpoint.config.realm m = .ok user := hclaim
      simp only [hclaim', Step.after, Step.settledProgress]
      refine .waiting hdecode htype ?_ hclaim
      intro hprocedure
      cases hfind : (s.opened now).endpoint.find? source now with
      | none => exact absurd ⟨hprocedure, by rw [hfind]; rfl⟩ hneeds
      | some a => rfl

theorem send_spec {raw : Bytes} {m : Message} (hdecode : Packet.decode raw = .ok (.message m))
    (htype : m.type = ⟨.send, .indication⟩) :
    Received s raw source now ⟨.done (.ok ((s.opened now).send m source now).1), s.expiries now,
      ((s.opened now).send m source now).2⟩ := by
  have hdropped : Received s raw source now ⟨.done (.ok none), s.expiries now, s.opened now⟩ :=
    dropped_of_message hdecode (by rw [htype]; exact MessageClass.noConfusion)
  unfold send
  cases hpeer : m.peers.head? with
  | none => exact hdropped
  | some peer =>
    cases hdata : m.data? with
    | none => exact hdropped
    | some data =>
      cases hfind : (s.opened now).endpoint.find? source now with
      | none => exact hdropped
      | some a =>
        have hstored : (s.opened now).endpoint.table.find? ((s.opened now).endpoint.tuple source) now =
            some a := hfind
        by_cases hpermitted : a.isPermitted peer.ip now = true
        · simp only [AllocationTable.touch, hstored, if_pos hpermitted]
          exact .sent hdecode htype hpeer hdata hfind hpermitted
        · simp only [AllocationTable.touch, hstored, if_neg hpermitted, Bool.false_eq_true, if_false]
          exact hdropped

theorem forward_spec {raw : Bytes} {frame : ChannelData}
    (hdecode : Packet.decode raw = .ok (.channelData frame)) :
    Received s raw source now
      (((⟨.done ((s.opened now).forward frame source now).1, [],
        ((s.opened now).forward frame source now).2⟩ : Step Progress).after
          (s.expiries now)).settledProgress) := by
  unfold forward
  cases hfind : (s.opened now).endpoint.find? source now with
  | none =>
    simp only [Step.after, Step.settledProgress, List.append_nil]
    exact .refused .invalidInput nofun
  | some a =>
    cases hpeer : a.channels.peer? frame.number now with
    | none =>
      simp only [hpeer, Step.after, Step.settledProgress, List.append_nil]
      exact .refused .invalidInput nofun
    | some peer =>
      by_cases hpermitted : a.isPermitted peer.ip now = true
      · simp only [hpeer, if_pos hpermitted, Step.after, Step.settledProgress, List.append_nil]
        exact .forwarded hdecode hfind hpeer hpermitted
      · simp only [hpeer, if_neg hpermitted, Step.after, Step.settledProgress, List.append_nil]
        refine .dropped fun m hmessage => ?_
        cases hdecode.symm.trans hmessage

theorem receive_spec (s : Site) (raw : Bytes) (source : TransportAddress) (now : Nat) :
    Received s raw source now (s.receive raw source now) := by
  have hreceive : s.receive raw source now =
      (((s.opened now).handle raw source now).after (s.expiries now)).settledProgress := rfl
  rw [hreceive, handle]
  cases hdecode : Packet.decode raw with
  | error e =>
    simp only [Step.after, Step.settledProgress, List.append_nil]
    exact .refused e fun _ => hdecode
  | ok packet =>
    cases packet with
    | channelData frame => exact forward_spec hdecode
    | message m =>
      simp only [dispatch]
      split
      · rename_i htype
        unfold answerBinding
        split
        · next herror =>
          simp only [Step.map, Step.after, Step.settledProgress, List.append_nil]
          rw [Message.eq_of_encode_error herror]
          exact .refused .invalidInput nofun
        · next hencode => exact .answered hdecode htype hencode
      · next htype =>
        simp only [Step.after, Step.settledProgress, List.append_nil]
        exact dropped_of_message hdecode (by rw [htype]; exact MessageClass.noConfusion)
      · rename_i htype
        exact askPassword_spec hdecode htype
      · rename_i htype
        exact askPassword_spec hdecode htype
      · rename_i htype
        exact askPassword_spec hdecode htype
      · rename_i htype
        exact askPassword_spec hdecode htype
      · rename_i htype
        simp only [Step.after, Step.settledProgress, List.append_nil]
        exact send_spec hdecode htype
      · simp only [Step.after, Step.settledProgress, List.append_nil]
        exact .refused .unknownMethod nofun

theorem Received.of_procedure {raw : Bytes} {m : Message} {procedure : Procedure} {step : Step Progress}
    (h : Received s raw source now step) (hdecode : Packet.decode raw = .ok (.message m))
    (htype : m.type = procedureType procedure) :
    (∃ e, step = ⟨.done (.error e), s.expiries now, (s.opened now).countError⟩) ∨
      ∃ user, Credential.claimant s.endpoint.config.realm m = .ok user ∧
        step = ⟨.waiting ⟨procedure, m, raw, source, user⟩,
          s.expiries now ++ [.passwordAsked source user], s.opened now⟩ := by
  have hclass : m.type.messageClass = .request := htype ▸ class_procedureType procedure
  cases h with
  | answered hother hbinding =>
    cases hdecode.symm.trans hother
    cases procedure <;> cases htype.symm.trans hbinding
  | dropped hnot => exact absurd hclass (hnot m hdecode)
  | refused e => exact .inl ⟨e, rfl⟩
  | waiting hother hprocedure _ hclaim =>
    cases hdecode.symm.trans hother
    obtain rfl := procedureType_inj (htype.symm.trans hprocedure)
    exact .inr ⟨_, hclaim, rfl⟩
  | sent hother hsend =>
    cases hdecode.symm.trans hother
    rw [hsend] at hclass
    cases hclass
  | forwarded hframe => cases hdecode.symm.trans hframe

end Site

end TurnRelay
