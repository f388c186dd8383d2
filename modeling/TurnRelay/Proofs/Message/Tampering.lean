import TurnRelay.Proofs.Message.Framing
import TurnRelay.Proofs.Message.Trailer

namespace TurnRelay

variable {tlv : Tlv} {units front back : List Tlv} {k index position : Nat} {byte : UInt8} {raw : Bytes}

namespace Tlv

theorem Intact.exists_set_encode (h : tlv.Intact) (hlow : k ≠ 2) (hhigh : k ≠ 3) (byte : UInt8) :
    ∃ other : Tlv, other.Intact ∧ tlv.encode.set k byte = other.encode := by
  by_cases hcode : k < 2
  · have hlength : ((u16 tlv.code.toNat).set k byte).length = 2 := by simp
    have hlt : ofBigEndian ((u16 tlv.code.toNat).set k byte) < 65536 := ofBigEndian_lt (Nat.le_of_eq hlength)
    have hhead : u16 (ofBigEndian ((u16 tlv.code.toNat).set k byte)) = (u16 tlv.code.toNat).set k byte :=
      bigEndian_ofBigEndian_of_length hlength
    refine ⟨⟨.ofNat (ofBigEndian ((u16 tlv.code.toNat).set k byte)), tlv.value, tlv.fill⟩,
      ⟨h.value_lt, h.fill_length⟩, ?_⟩
    simp only [encode, List.append_assoc, UInt16.toNat_ofNat_of_lt' hlt]
    rw [List.set_append, if_pos (by simpa using hcode), hhead]
  · have hhead : (u16 tlv.code.toNat ++ u16 tlv.value.length).length = 4 := rfl
    rw [encode, List.append_assoc _ tlv.value, List.set_append, if_neg (by omega), hhead, List.set_append]
    split
    · refine ⟨⟨tlv.code, tlv.value.set (k - 4) byte, tlv.fill⟩, ⟨?_, ?_⟩, ?_⟩
      · simpa using h.value_lt
      · simpa using h.fill_length
      · simp [encode]
    · refine ⟨⟨tlv.code, tlv.value, tlv.fill.set (k - 4 - tlv.value.length) byte⟩,
        ⟨h.value_lt, ?_⟩, ?_⟩
      · simpa using h.fill_length
      · simp [encode]

theorem exists_unit_at (h : index < (encodeAll units).length) :
    ∃ front tlv back k, units = front ++ tlv :: back ∧ index = (encodeAll front).length + k ∧
      k < tlv.encode.length := by
  induction units generalizing index with
  | nil => cases h
  | cons tlv units ih =>
    by_cases hfirst : index < tlv.encode.length
    · exact ⟨[], tlv, units, index, rfl, (Nat.zero_add _).symm, hfirst⟩
    · rw [encodeAll_cons, List.length_append] at h
      obtain ⟨front, other, back, k, rfl, hindex, hk⟩ := ih (show index - tlv.encode.length < _ by omega)
      refine ⟨tlv :: front, other, back, k, rfl, ?_, hk⟩
      rw [encodeAll_cons, List.length_append]
      omega

theorem encodeAll_set (front : List Tlv) (tlv : Tlv) (back : List Tlv) (hk : k < tlv.encode.length)
    (byte : UInt8) :
    (encodeAll (front ++ tlv :: back)).set ((encodeAll front).length + k) byte =
      encodeAll front ++ (tlv.encode.set k byte ++ encodeAll back) := by
  rw [encodeAll_append, encodeAll_cons, List.set_append, if_neg (by omega), Nat.add_sub_cancel_left,
    List.set_append, if_pos hk]

end Tlv

namespace Message

variable {m forged : Message} {key : Bytes} {stamped : Bool}

/-- One of the two bytes that hold the length of an attribute. -/
def InLengthField (m : Message) (index : Nat) : Prop :=
  ∃ front tlv back, m.units = front ++ tlv :: back ∧
    (index = headerSize + (Tlv.encodeAll front).length + 2 ∨
      index = headerSize + (Tlv.encodeAll front).length + 3)

theorem exists_units_of_set (hintact : ∀ tlv ∈ m.units, tlv.Intact)
    (hindex : index < (Tlv.encodeAll m.units).length) (hfield : ¬ m.InLengthField (headerSize + index))
    (byte : UInt8) :
    ∃ others, (∀ tlv ∈ others, Tlv.Intact tlv) ∧
      (Tlv.encodeAll m.units).set index byte = Tlv.encodeAll others := by
  obtain ⟨front, tlv, back, k, hunits, rfl, hk⟩ := Tlv.exists_unit_at hindex
  have hoffset : k ≠ 2 ∧ k ≠ 3 := by
    constructor
    · rintro rfl
      exact hfield ⟨front, tlv, back, hunits, .inl (Nat.add_assoc ..).symm⟩
    · rintro rfl
      exact hfield ⟨front, tlv, back, hunits, .inr (Nat.add_assoc ..).symm⟩
  rw [hunits] at hintact ⊢
  simp only [List.forall_mem_append, List.forall_mem_cons] at hintact
  obtain ⟨hfront, htlv, hback⟩ := hintact
  obtain ⟨other, hother, hset⟩ := htlv.exists_set_encode hoffset.1 hoffset.2 byte
  refine ⟨front ++ other :: back, ?_, ?_⟩
  · simp only [List.forall_mem_append, List.forall_mem_cons]
    exact ⟨hfront, hother, hback⟩
  · rw [Tlv.encodeAll_set front tlv back hk, hset, Tlv.encodeAll_append, Tlv.encodeAll_cons]

theorem Faithful.firstUnit (h : m.Faithful) (hencode : m.encode (some key) stamped = .ok raw) :
    FirstUnit AttributeType.messageIntegrity.code raw (headerSize + (Tlv.encodeAll m.units).length)
      ((m.integritySeal key).unit m.transaction) := by
  rw [← h.body_eq]
  refine firstUnit_of_encode hencode fun a ha htype => ?_
  have hnumbered := (h.attributes a ha).numbered
  rw [htype] at hnumbered
  cases hnumbered

theorem Faithful.hasIntegrity_of_set (h : m.Faithful) (hencode : m.encode (some key) stamped = .ok raw)
    (hindex : index < headerSize + (Tlv.encodeAll m.units).length)
    (hdecode : decode (raw.set index byte) = .ok forged) (hfield : ¬ m.InLengthField index) :
    forged.hasIntegrity := by
  have hlayout := h.layout_of_encode hencode
  obtain ⟨units, hforged⟩ := decode_eq_ok_iff.1 hdecode
  obtain ⟨rest, hunits⟩ := m.units_signed key stamped
  have hintact := hlayout.intact
  rw [hunits] at hintact
  obtain ⟨hfront, hback⟩ := List.forall_mem_append.1 hintact
  have hbody := hlayout.drop_eq
  rw [hunits, Tlv.encodeAll_append] at hbody
  -- a change in the header leaves the units, and one behind it leaves their lengths
  obtain ⟨others, hothers, hset⟩ : ∃ others, (∀ tlv ∈ others, Tlv.Intact tlv) ∧
      (raw.set index byte).drop headerSize =
        Tlv.encodeAll (others ++ (m.integritySeal key).unit m.transaction :: rest) := by
    rw [List.drop_set]
    split
    · exact ⟨m.units, hfront, by rw [hbody, Tlv.encodeAll_append]⟩
    · have hinside : index - headerSize < (Tlv.encodeAll m.units).length := by omega
      have hplace : headerSize + (index - headerSize) = index := by omega
      obtain ⟨others, hothers, hset⟩ := exists_units_of_set hfront hinside (by rwa [hplace]) byte
      refine ⟨others, hothers, ?_⟩
      rw [hbody, List.set_append, if_pos hinside, hset, Tlv.encodeAll_append]
  have hsame := Tlv.encodeAll_inj hforged.intact (List.forall_mem_append.2 ⟨hothers, hback⟩)
    (hforged.drop_eq.symm.trans hset)
  exact hforged.hasIntegrity (hsame ▸ List.mem_append_right _ List.mem_cons_self) rfl

theorem Layout.length_slice (h : m.Layout raw units) :
    (raw.drop 2).take 2 = u16 (raw.length - headerSize) := by
  have hbody : raw.length - headerSize = (Tlv.encodeAll units).length := by
    rw [← List.length_drop, h.drop_eq]
  rw [hbody]
  conv => lhs; rw [h.raw_eq]
  exact (m.header_slices _ _).2.1

end Message

theorem length_integrityCover (hlow : headerSize ≤ position) (hhigh : position ≤ raw.length) :
    (integrityCover raw position).length = position := by
  rw [headerSize] at hlow
  simp only [integrityCover, List.length_append, List.length_take, List.length_drop, length_u16]
  omega

theorem getElem?_eq_of_integrityCover {raw₁ raw₂ : Bytes} {m₁ m₂ : Message} {units₁ units₂ : List Tlv}
    {position' : Nat} (h₁ : m₁.Layout raw₁ units₁) (h₂ : m₂.Layout raw₂ units₂)
    (hlength : raw₁.length = raw₂.length) (hlow : headerSize ≤ position ∧ headerSize ≤ position')
    (hhigh : position ≤ raw₁.length ∧ position' ≤ raw₂.length)
    (hcover : integrityCover raw₁ position = integrityCover raw₂ position') (hindex : index < position) :
    raw₁[index]? = raw₂[index]? := by
  obtain rfl : position = position' := by
    rw [← length_integrityCover hlow.1 hhigh.1, hcover, length_integrityCover hlow.2 hhigh.2]
  rw [headerSize] at hlow
  have hwidth : (raw₁.take 2).length = (raw₂.take 2).length := by
    rw [List.length_take, List.length_take, hlength]
  simp only [integrityCover, List.append_assoc] at hcover
  obtain ⟨htype, hrest⟩ := List.append_inj hcover hwidth
  rw [List.append_cancel_left_eq, List.drop_take, List.drop_take] at hrest
  have hfield : (raw₁.drop 2).take 2 = (raw₂.drop 2).take 2 := by
    rw [h₁.length_slice, h₂.length_slice, hlength]
  -- on the length field they agree because they are of one length
  by_cases hstart : index < 2
  · exact Message.getElem?_eq_of_slice htype (Nat.zero_le _) (by omega)
  · by_cases hstop : index < 4
    · exact Message.getElem?_eq_of_slice hfield (by omega) hstop
    · exact Message.getElem?_eq_of_slice hrest (by omega) (by omega)

/-- One changed byte in front of the hash is refused as a failed integrity check, or as a missing hash if it
is in a length field and no hash is left. It passes only if the hash that is found fits other bytes than
those that were signed. -/
theorem Message.tampering_shown {m forged : Message} {key : Bytes} {stamped : Bool} (h : m.Faithful)
    (hencode : m.encode (some key) stamped = .ok raw)
    (hposition : findAttribute raw AttributeType.messageIntegrity.code = some position)
    (hindex : index < position) (hbyte : raw[index]? ≠ some byte)
    (hdecode : decode (raw.set index byte) = .ok forged) (realm : String)
    (passwordOf : String → Option String) :
    (∀ e, Credential.verify realm passwordOf forged (raw.set index byte) = .error e →
      e = .integrityFailed ∨
        e = .integrityMissing ∧ forged.hasIntegrity = false ∧ m.InLengthField index) ∧
    (forged.hasIntegrity = false →
      Credential.verify realm passwordOf forged (raw.set index byte) = .error .integrityMissing) ∧
    ∀ credential, Credential.verify realm passwordOf forged (raw.set index byte) = .ok credential →
      ∃ position' tlv, FirstUnit AttributeType.messageIntegrity.code (raw.set index byte) position' tlv ∧
        Hmac.sha1 credential.key (integrityCover (raw.set index byte) position') = tlv.value ∧
        integrityCover (raw.set index byte) position' ≠ integrityCover raw position := by
  have hfirst := h.firstUnit hencode
  obtain rfl : _ = position := Option.some.inj (hfirst.find.symm.trans hposition)
  obtain ⟨units, hforged⟩ := decode_eq_ok_iff.1 hdecode
  refine ⟨fun e herror => ?_, Credential.verify_of_unsigned, fun credential hverify => ?_⟩
  · rw [Credential.eq_of_verify_error hforged herror]
    cases hintegrity : forged.hasIntegrity with
    | true => exact .inl rfl
    | false =>
      refine .inr ⟨rfl, rfl, Classical.byContradiction fun hfield => ?_⟩
      have hkept := h.hasIntegrity_of_set hencode hindex hdecode hfield
      rw [hintegrity] at hkept
      cases hkept
  · obtain ⟨name, hclaimant, hconfirm⟩ := bind_eq_ok hverify
    obtain ⟨hintegrity, -, -⟩ := Credential.claimant_eq_ok_iff.1 hclaimant
    obtain ⟨position', tlv, hfound⟩ := hforged.exists_integrity hintegrity
    obtain ⟨-, hlength⟩ := hforged.find?_integrity hfound
    obtain ⟨-, _, -, -, hhash⟩ := (Credential.confirm_eq_ok_iff hfound hlength).1 hconfirm
    refine ⟨position', tlv, hfound, hhash, fun hcover => hbyte ?_⟩
    have hend := hfirst.le_length
    have hend' := hfound.le_length
    have hsame := getElem?_eq_of_integrityCover (h.layout_of_encode hencode) hforged List.length_set.symm
      ⟨hfirst.headerSize_le, hfound.headerSize_le⟩ ⟨by omega, by omega⟩ hcover.symm hindex
    rw [hsame, List.getElem?_set_self (by omega)]

namespace Sample

theorem faithful_renewal : renewal.Faithful := by
  refine ⟨⟨0x004, by decide, rfl⟩, ?_⟩
  simp only [renewal, List.forall_mem_cons]
  exact ⟨⟨rfl, by decide, .username _, trivial⟩, ⟨rfl, by decide, .realm _, trivial⟩,
    ⟨rfl, by decide, .lifetime _, trivial⟩, by simp⟩

def prolongedRenewal : Message :=
  { renewal with
    attributes := [⟨.username, .username "alice"⟩, ⟨.realm, .realm "example.org"⟩,
      ⟨.lifetime, .lifetime 856⟩, ⟨.messageIntegrity, .raw (renewal.integrityOf renewalKey renewal.body)⟩] }

def reservation : Message :=
  ⟨⟨.refresh, .request⟩, 7, [⟨.username, .username "alice"⟩,
    ⟨.reservationToken, .raw [0x31, 0x32, 0x33, 0x34, 0x35, 0x36, 0x37, 0x38]⟩]⟩

def reservationBytes : Bytes := (reservation.encode (some renewalKey) false).toOption.getD []

/-- The token is 24 bytes longer, and with them it takes in the hash. -/
def swallowedBytes : Bytes := reservationBytes.set 35 32

def swallowed : Message :=
  ⟨⟨.refresh, .request⟩, 7, [⟨.username, .username "alice"⟩,
    ⟨.reservationToken, .raw (reservationBytes.drop 36)⟩]⟩

theorem faithful_reservation : reservation.Faithful := by
  refine ⟨⟨0x004, by decide, rfl⟩, ?_⟩
  simp only [reservation, List.forall_mem_cons]
  exact ⟨⟨rfl, by decide, .username _, trivial⟩, ⟨rfl, by decide, .raw (by trivial) _, trivial⟩, by simp⟩

theorem encode_reservation : reservation.encode (some renewalKey) false = .ok reservationBytes :=
  eq_ok_of_toOption (by decide +kernel)

theorem position_reservation :
    findAttribute reservationBytes AttributeType.messageIntegrity.code = some 44 := by
  decide +kernel

theorem decode_swallowedBytes : Message.decode swallowedBytes = .ok swallowed :=
  eq_ok_of_toOption (by decide +kernel)

end Sample

theorem tampering_shown_sample :
    (Message.decode (Sample.signedBytes.set 54 3) = .ok Sample.prolongedRenewal ∧
      Credential.verify "example.org" (Sample.passwords (.v4 0xC6336407 5000)) Sample.prolongedRenewal
        (Sample.signedBytes.set 54 3) = .error .integrityFailed) ∧
      Message.decode Sample.swallowedBytes = .ok Sample.swallowed ∧
        Credential.verify "example.org" (Sample.passwords (.v4 0xC6336407 5000)) Sample.swallowed
          Sample.swallowedBytes = .error .integrityMissing := by
  have hencode : Sample.renewal.encode (some Sample.renewalKey) false = .ok Sample.signedBytes :=
    Sample.eq_ok_of_toOption (by decide +kernel)
  have hdecode : Message.decode (Sample.signedBytes.set 54 3) = .ok Sample.prolongedRenewal :=
    Sample.eq_ok_of_toOption (by decide +kernel)
  have hrefused : (Credential.verify "example.org" (Sample.passwords (.v4 0xC6336407 5000)) Sample.prolongedRenewal
      (Sample.signedBytes.set 54 3)).isOk = false := by
    decide +kernel
  refine ⟨⟨hdecode, ?_⟩, Sample.decode_swallowedBytes, ?_⟩
  · cases hverify : Credential.verify "example.org" (Sample.passwords (.v4 0xC6336407 5000)) Sample.prolongedRenewal
        (Sample.signedBytes.set 54 3) with
    | ok credential =>
      rw [hverify] at hrefused
      cases hrefused
    | error e =>
      obtain ⟨herror, -, -⟩ := Message.tampering_shown Sample.faithful_renewal hencode
        (by decide +kernel : _ = some 56) (by decide) (by decide +kernel) hdecode "example.org"
        (Sample.passwords (.v4 0xC6336407 5000))
      obtain rfl | ⟨-, hlost, -⟩ := herror e hverify
      · rfl
      · exact absurd hlost (by decide)
  · exact (Message.tampering_shown Sample.faithful_reservation Sample.encode_reservation
      Sample.position_reservation (by decide) (by decide +kernel) Sample.decode_swallowedBytes "example.org"
      (Sample.passwords (.v4 0xC6336407 5000))).2.1 rfl

theorem exists_tampering_missed :
    ¬ ∀ (m forged : Message) (realm name secret : String) (passwordOf : String → Option String)
      (stamped : Bool) (raw : Bytes) (position index : Nat) (byte : UInt8) (e : PacketError),
      m.Faithful → m.type.messageClass = .request → m.username? = some name →
      passwordOf name = some secret →
      m.encode (some (longTermKey name realm secret)) stamped = .ok raw →
      findAttribute raw AttributeType.messageIntegrity.code = some position → index < position →
      raw[index]? ≠ some byte → Message.decode (raw.set index byte) = .ok forged →
      Credential.verify realm passwordOf forged (raw.set index byte) = .error e → e = .integrityFailed := by
  intro h
  have hverify : Credential.verify "example.org" (fun _ => some "secret") Sample.swallowed
      Sample.swallowedBytes = .error .integrityMissing := rfl
  have hfailed := h Sample.reservation Sample.swallowed "example.org" "alice" "secret" (fun _ => some "secret")
    false Sample.reservationBytes 44 35 32 .integrityMissing Sample.faithful_reservation rfl rfl rfl
    Sample.encode_reservation Sample.position_reservation (by decide) (by decide +kernel)
    Sample.decode_swallowedBytes hverify
  cases hfailed

end TurnRelay
