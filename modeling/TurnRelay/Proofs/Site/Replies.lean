import TurnRelay.Proofs.Message.Bare
import TurnRelay.Proofs.Message.Grammar
import TurnRelay.Proofs.Site.Execution

namespace TurnRelay

theorem Utf8.encode_ofList (letters : List Char) :
    encode (String.ofList letters) = letters.flatMap String.utf8EncodeChar := by
  simp [encode, List.utf8Encode]

theorem Utf8.length_encode_ofList_le (letters : List Char) :
    (encode (String.ofList letters)).length ≤ 4 * letters.length := by
  rw [encode_ofList]
  induction letters with
  | nil => simp
  | cons letter letters ih =>
    have hletter := letter.utf8Size_le_four
    rw [List.flatMap_cons, List.length_append, String.length_utf8EncodeChar, List.length_cons]
    omega

theorem MessageType.method_ofWire (wire : UInt16) : ∃ code ≤ 0x0FFF, (ofWire wire).method = .ofCode code := by
  refine ⟨_, ?_, rfl⟩
  rw [UInt16.le_iff_toNat_le, UInt16.toNat_ofNat']
  generalize wire.toNat = n
  exact Nat.le_trans (Nat.mod_le _ _) (show n % 16 + n / 32 % 8 * 16 + n / 512 % 32 * 128 ≤ 4095 by omega)

theorem Message.method_of_decode {raw : Bytes} {m : Message} (h : decode raw = .ok m) :
    ∃ code ≤ 0x0FFF, m.type.method = .ofCode code := by
  obtain ⟨units, -, htype, -, -⟩ := grammatical_of_decode h
  rw [htype]
  exact MessageType.method_ofWire _

namespace Attribute

variable {a : Attribute} {attributes others : List Attribute} {size other : Nat}

/-- The wire keeps the attributes in their bare form, in at most `size` bytes. -/
structure Sendable (size : Nat) (attributes : List Attribute) : Prop where
  faithful : ∀ a ∈ attributes, a.bare.Faithful
  size_le : ∀ transaction, totalSize transaction attributes ≤ size

theorem Sendable.nil : Sendable 0 [] := ⟨by simp, fun _ => Nat.le_refl 0⟩

theorem Sendable.single (hfaithful : a.bare.Faithful)
    (hsize : ∀ transaction, (a.value.encode transaction).length ≤ size) :
    Sendable (4 + size + padding size) [a] := by
  refine ⟨by simpa using hfaithful, fun transaction => ?_⟩
  have hvalue := hsize transaction
  -- of two multiples of four, the one for the value is less than four above its length
  have hlength := length_add_padding (a.value.encode transaction).length
  have hpadded := length_add_padding size
  have hfill := padding_lt (a.value.encode transaction).length
  simp only [totalSize, wireSize]
  omega

theorem Sendable.append (h : Sendable size attributes) (h' : Sendable other others) :
    Sendable (size + other) (attributes ++ others) := by
  refine ⟨List.forall_mem_append.2 ⟨h.faithful, h'.faithful⟩, fun transaction => ?_⟩
  rw [totalSize_append]
  exact Nat.add_le_add (h.size_le transaction) (h'.size_le transaction)

theorem Sendable.mono (h : Sendable size attributes) (hle : size ≤ other) : Sendable other attributes :=
  ⟨h.faithful, fun transaction => Nat.le_trans (h.size_le transaction) hle⟩

theorem Sendable.address (hfaithful : a.bare.Faithful)
    (hsize : ∀ transaction, (a.value.encode transaction).length ≤ 20) : Sendable 24 [a] :=
  .single hfaithful hsize

theorem Sendable.text (hfaithful : a.bare.Faithful)
    (hsize : ∀ transaction, (a.value.encode transaction).length ≤ size) : Sendable (size + 7) [a] :=
  (Sendable.single hfaithful hsize).mono (by have hfill := padding_lt size; omega)

theorem sendable_mapped (address : TransportAddress) :
    Sendable 24 [⟨.mappedAddress, .mappedAddress address⟩] :=
  .address ⟨rfl, Bool.false_ne_true, .mappedAddress _, address.isBare_bare⟩ fun _ => AddressMask.length_encode_le ..

theorem sendable_origin (address : TransportAddress) :
    Sendable 24 [⟨.responseOrigin, .responseOrigin address⟩] :=
  .address ⟨rfl, Bool.false_ne_true, .responseOrigin _, address.isBare_bare⟩ fun _ => AddressMask.length_encode_le ..

theorem sendable_xorMapped (address : TransportAddress) :
    Sendable 24 [⟨.xorMappedAddress, .xorMappedAddress address⟩] :=
  .address ⟨rfl, Bool.false_ne_true, .xorMappedAddress _, address.isBare_bare⟩ fun _ => AddressMask.length_encode_le ..

theorem sendable_xorRelayed (address : TransportAddress) :
    Sendable 24 [⟨.xorRelayedAddress, .xorRelayedAddress address⟩] :=
  .address ⟨rfl, Bool.false_ne_true, .xorRelayedAddress _, address.isBare_bare⟩ fun _ => AddressMask.length_encode_le ..

theorem sendable_lifetime (seconds : UInt32) : Sendable 8 [⟨.lifetime, .lifetime seconds⟩] :=
  show Sendable (4 + 4 + padding 4) _ from
    .single ⟨rfl, Bool.false_ne_true, .lifetime _, trivial⟩ fun _ => Nat.le_refl 4

theorem sendable_software (text : String) :
    Sendable ((Utf8.encode text).length + 7) [⟨.software, .software text⟩] :=
  .text ⟨rfl, Bool.false_ne_true, .software _, trivial⟩ fun _ => Nat.le_refl _

theorem sendable_realm (text : String) :
    Sendable ((Utf8.encode text).length + 7) [⟨.realm, .realm text⟩] :=
  .text ⟨rfl, Bool.false_ne_true, .realm _, trivial⟩ fun _ => Nat.le_refl _

theorem sendable_nonce (text : String) :
    Sendable ((Utf8.encode text).length + 7) [⟨.nonce, .nonce text⟩] :=
  .text ⟨rfl, Bool.false_ne_true, .nonce _, trivial⟩ fun _ => Nat.le_refl _

theorem sendable_errorCode {code : UInt16} (h : code ≤ 799) (reason : String) :
    Sendable ((Utf8.encode reason).length + 11) [⟨.errorCode, .errorCode code reason⟩] :=
  .text ⟨rfl, Bool.false_ne_true, .errorCode _ _, h⟩ fun _ => Nat.le_refl _

end Attribute

open Attribute

theorem Randomness.length_nonce_le (random : Randomness) (draws : Draws) :
    (Utf8.encode (random.nonce draws).1).length ≤ 64 := by
  refine Nat.le_trans (Utf8.length_encode_ofList_le _) ?_
  simp [nonceLength]

namespace Message

variable {request m : Message} {key : Option Bytes} {size : Nat}

theorem exists_encode_of_sendable (hmethod : ∃ code ≤ 0x0FFF, m.type.method = .ofCode code)
    (h : Sendable size m.attributes) (hsize : size ≤ 65484) (key : Option Bytes) :
    ∃ data, m.encode key true = .ok data ∧ decode data = .ok (m.bare.withSeals key true) := by
  refine exists_encode ⟨hmethod, ?_⟩ ?_
  · simpa [bare] using h.faithful
  · have htotal := h.size_le m.transaction
    simp only [wireSize, headerSize, maxMessageSize, if_true]
    split <;> omega

structure Answers (request : Message) (messageClass : MessageClass) (reply : Message) (data : Bytes) :
    Prop where
  decoded : decode data = .ok reply
  type_eq : reply.type = ⟨request.type.method, messageClass⟩
  transaction_eq : reply.transaction = request.transaction
  fingerprinted : Fingerprinted data

end Message

namespace Site

variable {random : Randomness} {s : Site} {source : TransportAddress} {user : String} {now : Nat}
  {raw data : Bytes} {request : Message} {lookup : Lookup} {attributes : List Attribute} {e : PacketError}
  {size : Nat}

theorem sendable_bindingAttributes (source external : TransportAddress) :
    Sendable 72 (bindingAttributes source external) :=
  (sendable_xorMapped source).append ((sendable_mapped source).append (sendable_origin external))

theorem sendable_allocationAttributes (relay source : TransportAddress) (seconds : UInt32) :
    Sendable 56 (allocationAttributes relay source seconds) :=
  (sendable_xorRelayed relay).append ((sendable_xorMapped source).append (sendable_lifetime seconds))

theorem Executed.sendable {command : Command} {step : Step (Except PacketError (List Attribute))}
    (h : Executed random s source user now command step) (hok : step.result = .ok attributes) :
    Sendable 56 attributes := by
  cases h with
  | created | extended =>
    cases hok
    exact sendable_allocationAttributes ..
  | occupied | exhausted | disowned | unbound => cases hok
  | renewed | deleted =>
    cases hok
    exact (sendable_lifetime _).mono (by decide)
  | permitted | bound =>
    cases hok
    exact Sendable.nil.mono (by decide)

theorem faithful_successOf (hdecode : Message.decode raw = .ok request) (h : Sendable size attributes)
    (s : Site) : (s.successOf request attributes).bare.Faithful := by
  refine ⟨Message.method_of_decode (m := request) hdecode, fun a ha => ?_⟩
  obtain ⟨b, hb, rfl⟩ := List.mem_map.1 ha
  exact (h.append (sendable_software s.endpoint.config.software)).faithful b hb

def HasRoom (s : Site) (request : Message) (attributes : List Attribute) (key : Option Bytes) : Prop :=
  (s.successOf request attributes).wireSize key true ≤ maxMessageSize

theorem wireSize_successOf (s : Site) (request : Message) (attributes : List Attribute) (key : Option Bytes) :
    let length := (Utf8.encode s.endpoint.config.software).length
    (s.successOf request attributes).wireSize key true = 32 + totalSize request.transaction attributes +
      (length + padding length) + if key.isSome then 24 else 0 := by
  simp only [successOf, Message.wireSize, totalSize_append, totalSize, wireSize, Endpoint.software,
    AttributeValue.encode, headerSize, if_true]
  omega

theorem hasRoom_of_sendable {key : Option Bytes} (h : Sendable size attributes)
    (hsize : size + (if key.isSome then 24 else 0) ≤ 80)
    (hsoftware : (Utf8.encode s.endpoint.config.software).length ≤ 65424) (request : Message) :
    s.HasRoom request attributes key := by
  have htotal := h.size_le request.transaction
  -- the limit is a multiple of four, so the fill does not take the text over it
  have hlength := length_add_padding (Utf8.encode s.endpoint.config.software).length
  have hfill := padding_lt (Utf8.encode s.endpoint.config.software).length
  rw [HasRoom, wireSize_successOf, maxMessageSize]
  omega

/-- The answer to `request` is `reply` if that fits into a message, and a failure if not. -/
structure Replied (request reply : Message) (key : Option Bytes) (answer : Answer) : Prop where
  sent : reply.wireSize key true ≤ maxMessageSize → ∃ data, answer = .ok (some (.reply data)) ∧
    request.Answers .success (reply.bare.withSeals key true) data
  lost : maxMessageSize < reply.wireSize key true → answer = .error .invalidInput

theorem replied_successOf (hdecode : Message.decode raw = .ok request) (h : Sendable size attributes)
    (s : Site) (key : Option Bytes) : Replied request (s.successOf request attributes) key
      (((s.successOf request attributes).encode key true).map fun data => some (.reply data)) := by
  have hfaithful := faithful_successOf hdecode h s
  constructor
  · intro hsize
    obtain ⟨data, hencode, hread⟩ := Message.exists_encode hfaithful hsize
    exact ⟨data, by rw [hencode]; rfl, hread, rfl, rfl, Message.fingerprinted_of_encode hencode⟩
  · intro hsize
    cases hencode : (s.successOf request attributes).encode key true with
    | ok data => exact absurd (Message.size_le_of_encode hfaithful hencode) (Nat.not_le.2 hsize)
    | error e =>
      rw [Message.eq_of_encode_error hencode]
      rfl

theorem replied_sealed (hdecode : Message.decode raw = .ok lookup.request) (h : Sendable size attributes)
    (s : Site) (key : Bytes) : Replied lookup.request (s.successOf lookup.request attributes) (some key)
      (s.sealed lookup key (.ok attributes)) :=
  replied_successOf hdecode h s (some key)

theorem exists_success (hdecode : Message.decode raw = .ok request) (h : Sendable 72 attributes)
    (hsoftware : (Utf8.encode s.endpoint.config.software).length ≤ 65000) (key : Option Bytes) :
    ∃ data reply, (s.successOf request attributes).encode key true = .ok data ∧
      request.Answers .success reply data := by
  have hsendable := h.append (sendable_software s.endpoint.config.software)
  have hmethod : ∃ code ≤ 0x0FFF, (s.successOf request attributes).type.method = .ofCode code :=
    Message.method_of_decode (m := request) hdecode
  obtain ⟨data, hencode, hread⟩ := Message.exists_encode_of_sendable hmethod hsendable (by omega) key
  exact ⟨data, _, hencode, hread, rfl, rfl, Message.fingerprinted_of_encode hencode⟩

theorem exists_sealed (hdecode : Message.decode raw = .ok lookup.request) (h : Sendable 56 attributes)
    (hsoftware : (Utf8.encode s.endpoint.config.software).length ≤ 65000) (key : Bytes) :
    ∃ data reply, s.sealed lookup key (.ok attributes) = .ok (some (.reply data)) ∧
      lookup.request.Answers .success reply data := by
  obtain ⟨data, reply, hencode, hanswers⟩ := exists_success hdecode (h.mono (by decide)) hsoftware (some key)
  refine ⟨data, reply, ?_, hanswers⟩
  simp only [sealed, bind, Except.bind, hencode]
  rfl

theorem decode_sealed {key : Bytes} {response : Option Response}
    (hdecode : Message.decode raw = .ok lookup.request) (h : Sendable size attributes)
    (hsealed : s.sealed lookup key (.ok attributes) = .ok response) :
    ∃ data, response = some (.reply data) ∧ Message.decode data =
      .ok ((s.successOf lookup.request attributes).bare.withSeals (some key) true) := by
  have hreplied := replied_sealed hdecode h s key
  by_cases hsize : (s.successOf lookup.request attributes).wireSize (some key) true ≤ maxMessageSize
  · obtain ⟨data, hanswer, hanswers⟩ := hreplied.sent hsize
    cases hsealed.symm.trans hanswer
    exact ⟨data, rfl, hanswers.decoded⟩
  · cases hsealed.symm.trans (hreplied.lost (Nat.lt_of_not_le hsize))

theorem sealed_error (s : Site) (lookup : Lookup) (key : Bytes) (e : PacketError) :
    s.sealed lookup key (.error e) = .error e := rfl

theorem exists_of_sealed {s : Site} {lookup : Lookup} {key : Bytes} {response : Option Response}
    {result : Except PacketError (List Attribute)} (h : s.sealed lookup key result = .ok response) :
    ∃ attributes, result = .ok attributes := by
  cases result with
  | error e => cases h
  | ok attributes => exact ⟨attributes, rfl⟩

end Site

end TurnRelay
