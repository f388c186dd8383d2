import TurnRelay.Proofs.Message.Units
import TurnRelay.Proofs.Message.Values

namespace TurnRelay

def Tlv.read (transaction : TransactionId) (tlv : Tlv) : Except PacketError Attribute :=
  Attribute.decode transaction (.ofCode tlv.code) tlv.value

section

variable {transaction : TransactionId} {tlv : Tlv} {a : Attribute}

theorem Tlv.type_of_read (h : tlv.read transaction = .ok a) : a.type = .ofCode tlv.code := by
  obtain ⟨value, -, rfl⟩ := map_eq_ok h
  rfl

theorem Tlv.holds_of_read (h : tlv.read transaction = .ok a) : a.type.Holds a.value := by
  obtain ⟨value, hvalue, rfl⟩ := map_eq_ok h
  exact AttributeValue.holds_of_decode hvalue

end

namespace Message

variable {transaction : TransactionId} {raw bytes : Bytes} {signed : Bool} {units : List Tlv}
  {attributes : List Attribute}

/-- What the units of a body make of it, from behind an integrity attribute if `signed`. -/
inductive Reads (transaction : TransactionId) (raw : Bytes) :
    Bool → List Tlv → List Attribute → Prop
  | nil {signed : Bool} : Reads transaction raw signed [] []
  | stamp {signed : Bool} {tlv : Tlv} {a : Attribute}
      (hread : tlv.read transaction = .ok a) (htype : a.type = .fingerprint)
      (hsum : fingerprint (before raw tlv.encode) = .ofNat 32 (ofBigEndian tlv.value)) :
      Reads transaction raw signed [tlv] [a]
  | dropped {tlv : Tlv} {units : List Tlv} {a : Attribute} {attributes : List Attribute}
      (hread : tlv.read transaction = .ok a) (htype : a.type ≠ .fingerprint)
      (hrest : Reads transaction raw true units attributes) :
      Reads transaction raw true (tlv :: units) attributes
  | kept {tlv : Tlv} {units : List Tlv} {a : Attribute} {attributes : List Attribute}
      (hread : tlv.read transaction = .ok a) (htype : a.type ≠ .fingerprint)
      (hrest : Reads transaction raw (a.type = .messageIntegrity) units attributes) :
      Reads transaction raw false (tlv :: units) (a :: attributes)

theorem Reads.holds (h : Reads transaction raw signed units attributes) :
    ∀ a ∈ attributes, a.type.Holds a.value := by
  induction h with
  | nil => simp
  | stamp hread => simpa using Tlv.holds_of_read hread
  | dropped _ _ _ ih => exact ih
  | kept hread _ _ ih => simpa using ⟨Tlv.holds_of_read hread, ih⟩

theorem decodeAttributes_cons {tlv : Tlv} (h : tlv.Intact) (rest : Bytes) :
    decodeAttributes transaction raw signed (tlv.encode ++ rest) = (do
      let a ← tlv.read transaction
      if a.type = .fingerprint then
        if !rest.isEmpty then .error .invalidInput
        else if fingerprint (before raw (tlv.encode ++ rest)) = .ofNat 32 (ofBigEndian tlv.value) then
          .ok [a]
        else .error .integrityFailed
      else if signed then decodeAttributes transaction raw true rest
      else return a :: (← decodeAttributes transaction raw (a.type = .messageIntegrity) rest)) := by
  have hfilled : (tlv.encode ++ rest).isEmpty = false := by simp [tlv.encode_ne_nil]
  rw [decodeAttributes, hfilled]
  split
  · contradiction
  · split
    · next hnone => rw [Tlv.next?_encode h] at hnone; cases hnone
    · next hsome =>
      rw [Tlv.next?_encode h] at hsome
      cases hsome
      rfl

theorem Reads.decodeAttributes_eq (hintact : ∀ tlv ∈ units, tlv.Intact)
    (h : Reads transaction raw signed units attributes) :
    decodeAttributes transaction raw signed (Tlv.encodeAll units) = .ok attributes := by
  induction h with
  | nil => rw [Tlv.encodeAll_nil, decodeAttributes]; rfl
  | stamp hread htype hsum =>
    rw [Tlv.encodeAll_cons, Tlv.encodeAll_nil, decodeAttributes_cons (hintact _ List.mem_cons_self), hread]
    simp only [bind, Except.bind, htype, List.append_nil, if_pos hsum]
    rfl
  | dropped hread htype _ ih =>
    rw [Tlv.encodeAll_cons, decodeAttributes_cons (hintact _ List.mem_cons_self), hread]
    simpa only [bind, Except.bind, if_neg htype, if_true] using
      ih fun tlv htlv => hintact tlv (List.mem_cons_of_mem _ htlv)
  | kept hread htype _ ih =>
    rw [Tlv.encodeAll_cons, decodeAttributes_cons (hintact _ List.mem_cons_self), hread]
    simp only [bind, Except.bind, if_neg htype,
      ih fun tlv htlv => hintact tlv (List.mem_cons_of_mem _ htlv)]
    rfl

theorem decodeAttributes_cons_cases {tlv : Tlv} (hintact : tlv.Intact) {rest : Bytes}
    (h : decodeAttributes transaction raw signed (tlv.encode ++ rest) = .ok attributes) :
    ∃ a, tlv.read transaction = .ok a ∧
      ((a.type = .fingerprint ∧ rest = [] ∧ attributes = [a] ∧
        fingerprint (before raw tlv.encode) = .ofNat 32 (ofBigEndian tlv.value)) ∨
      (a.type ≠ .fingerprint ∧ signed = true ∧
        decodeAttributes transaction raw true rest = .ok attributes) ∨
      (a.type ≠ .fingerprint ∧ signed = false ∧ ∃ later, attributes = a :: later ∧
        decodeAttributes transaction raw (a.type = .messageIntegrity) rest = .ok later)) := by
  rw [decodeAttributes_cons hintact] at h
  obtain ⟨a, hread, h⟩ := bind_eq_ok h
  refine ⟨a, hread, ?_⟩
  split at h
  · next htype =>
    split at h
    · cases h
    · next hlast =>
      obtain rfl : rest = [] := by simpa using hlast
      split at h
      · next hsum =>
        cases h
        rw [List.append_nil] at hsum
        exact .inl ⟨htype, rfl, rfl, hsum⟩
      · cases h
  · next htype =>
    split at h
    · next hsigned => exact .inr (.inl ⟨htype, hsigned, h⟩)
    · next hunsigned =>
      obtain ⟨later, hlater, h⟩ := bind_eq_ok h
      cases h
      exact .inr (.inr ⟨htype, by simpa using hunsigned, later, rfl, hlater⟩)

theorem reads_of_decodeAttributes (h : decodeAttributes transaction raw signed bytes = .ok attributes) :
    ∃ units, bytes = Tlv.encodeAll units ∧ (∀ tlv ∈ units, tlv.Intact) ∧
      Reads transaction raw signed units attributes := by
  fun_induction decodeAttributes transaction raw signed bytes generalizing attributes with
  | case1 signed bytes hempty =>
    cases h
    exact ⟨[], List.isEmpty_iff.1 hempty, by simp, .nil⟩
  | case2 => cases h
  | case3 signed bytes _ tlv rest hnext ihDropped ihKept =>
    obtain ⟨rfl, hintact⟩ := Tlv.eq_encode_of_next? hnext
    obtain ⟨a, hread, ⟨htype, rfl, rfl, hsum⟩ | ⟨htype, rfl, hrest⟩ | ⟨htype, rfl, later, rfl, hrest⟩⟩ :=
      decodeAttributes_cons_cases hintact ((decodeAttributes_cons hintact rest).trans h)
    · exact ⟨[tlv], rfl, by simpa using hintact, .stamp hread htype hsum⟩
    · obtain ⟨units, rfl, hunits, hreads⟩ := ihDropped hrest
      exact ⟨tlv :: units, rfl, List.forall_mem_cons.2 ⟨hintact, hunits⟩, .dropped hread htype hreads⟩
    · obtain ⟨units, rfl, hunits, hreads⟩ := ihKept a hrest
      exact ⟨tlv :: units, rfl, List.forall_mem_cons.2 ⟨hintact, hunits⟩, .kept hread htype hreads⟩

/-- `raw` is the header of `m` and the bytes of `units`, and these make up the attributes of `m`. -/
structure Layout (raw : Bytes) (m : Message) (units : List Tlv) : Prop where
  raw_eq : raw = m.header (Tlv.encodeAll units).length ++ Tlv.encodeAll units
  type_eq : .ofWire m.type.toWire = m.type
  body_lt : (Tlv.encodeAll units).length < 65536
  intact : ∀ tlv ∈ units, tlv.Intact
  reads : Reads m.transaction raw false units m.attributes

variable {m : Message}

@[simp] theorem length_header (m : Message) (length : Nat) : (m.header length).length = headerSize := by
  simp [header, headerSize]

theorem drop_header (m : Message) (length : Nat) (body : Bytes) :
    (m.header length ++ body).drop headerSize = body :=
  List.drop_left' (m.length_header length)

theorem header_slices (m : Message) (length : Nat) (body : Bytes) :
    (m.header length ++ body).take 2 = u16 m.type.toWire.toNat ∧
    ((m.header length ++ body).drop 2).take 2 = u16 length ∧
    ((m.header length ++ body).drop 4).take 4 = bigEndian 4 magicCookie.toNat ∧
    ((m.header length ++ body).drop 8).take 12 = bigEndian 12 m.transaction.toNat := by
  simp only [header, List.append_assoc]
  refine ⟨List.take_left' rfl, ?_, ?_, ?_⟩
  · rw [List.drop_left' (length_u16 _), List.take_left' (length_u16 _)]
  · rw [← List.append_assoc (u16 _), List.drop_left' (show (u16 _ ++ u16 _).length = 4 from rfl),
      List.take_left' (length_bigEndian _ _)]
  · rw [← List.append_assoc (u16 _), ← List.append_assoc (u16 _ ++ _),
      List.drop_left' (show (u16 _ ++ u16 _ ++ bigEndian 4 _).length = 8 from rfl),
      List.take_left' (length_bigEndian _ _)]

theorem Layout.fields (h : Layout raw m units) :
    ofBigEndian (raw.take 2) = m.type.toWire.toNat ∧
    ofBigEndian ((raw.drop 2).take 2) = (Tlv.encodeAll units).length ∧
    ofBigEndian ((raw.drop 4).take 4) = magicCookie.toNat ∧
    ofBigEndian ((raw.drop 8).take 12) = m.transaction.toNat := by
  obtain ⟨hwire, hlength, hcookie, htransaction⟩ :=
    m.header_slices (Tlv.encodeAll units).length (Tlv.encodeAll units)
  rw [h.raw_eq, hwire, hlength, hcookie, htransaction]
  exact ⟨ofBigEndian_bigEndian_of_lt m.type.toWire.toNat_lt, ofBigEndian_bigEndian_of_lt h.body_lt,
    ofBigEndian_bigEndian_of_lt magicCookie.isLt, ofBigEndian_bigEndian_of_lt m.transaction.isLt⟩

theorem Layout.drop_eq (h : Layout raw m units) : raw.drop headerSize = Tlv.encodeAll units := by
  rw [h.raw_eq, drop_header]

theorem Layout.decode_eq (h : Layout raw m units) : decode raw = .ok m := by
  obtain ⟨hwire, hlength, hcookie, htransaction⟩ := h.fields
  have hsize : ¬ (raw.length < headerSize ∨ 0x4000 ≤ m.type.toWire.toNat) := by
    have hlt := m.type.toWire_lt
    rw [h.raw_eq, List.length_append, length_header]
    omega
  simp only [decode, hwire, hlength, hcookie, htransaction, h.drop_eq, if_neg hsize, ne_eq,
    Tlv.length_encodeAll_mod h.intact, not_true_eq_false, or_self, if_false, BitVec.ofNat_toNat,
    BitVec.setWidth_eq, h.reads.decodeAttributes_eq h.intact, UInt16.ofNat_toNat, h.type_eq]
  rfl

theorem header_of_slices (hsize : headerSize ≤ raw.length)
    (hwire : u16 m.type.toWire.toNat = raw.take 2)
    (hlength : ofBigEndian ((raw.drop 2).take 2) = (raw.drop headerSize).length)
    (hcookie : ofBigEndian ((raw.drop 4).take 4) = magicCookie.toNat)
    (htransaction : ofBigEndian ((raw.drop 8).take 12) = m.transaction.toNat) :
    raw = m.header (raw.drop headerSize).length ++ raw.drop headerSize := by
  have hslice {start width : Nat} (h : start + width ≤ headerSize) :
      bigEndian width (ofBigEndian ((raw.drop start).take width)) = (raw.drop start).take width := by
    apply bigEndian_ofBigEndian_of_length
    rw [List.length_take, List.length_drop]
    omega
  have hhead : m.header (raw.drop headerSize).length = raw.take headerSize := calc
    _ = raw.take 2 ++ (raw.drop 2).take 2 ++ (raw.drop 4).take 4 ++ (raw.drop 8).take 12 := by
      rw [header, hwire, u16, ← hlength, ← hcookie, ← htransaction, hslice (by decide), hslice (by decide),
        hslice (by decide)]
    _ = raw.take (2 + 2 + 4 + 12) := by rw [List.take_add, List.take_add, List.take_add]
  rw [hhead, List.take_append_drop]

theorem layout_of_decode (h : decode raw = .ok m) : ∃ units, Layout raw m units := by
  simp only [decode] at h
  split at h
  · cases h
  next hsize =>
  split at h
  · cases h
  next hcookie =>
  split at h
  · cases h
  next hshape =>
  cases hattributes : decodeAttributes (.ofNat 96 (ofBigEndian ((raw.drop 8).take 12))) raw false
      (raw.drop headerSize) with
  | error e => rw [hattributes] at h; cases h
  | ok attributes =>
    rw [hattributes] at h
    cases h
    obtain ⟨units, hbody, hintact, hreads⟩ := reads_of_decodeAttributes hattributes
    have hshort (start width : Nat) : ((raw.drop start).take width).length ≤ width :=
      List.length_take_le _ _
    have hlength : ofBigEndian ((raw.drop 2).take 2) < 65536 := ofBigEndian_lt (hshort 2 2)
    have hwire : (UInt16.ofNat (ofBigEndian (raw.take 2))).toNat = ofBigEndian (raw.take 2) :=
      UInt16.toNat_ofNat_of_lt' (ofBigEndian_lt (hshort 0 2))
    have htype := MessageType.toWire_ofWire (.ofNat (ofBigEndian (raw.take 2))) (by omega)
    refine ⟨units, ?_, by rw [htype], by rw [← hbody]; omega, hintact, hreads⟩
    rw [← hbody]
    have hfull : headerSize ≤ raw.length := by omega
    refine header_of_slices hfull ?_ (by omega) (by omega) ?_
    · rw [htype, hwire]
      apply bigEndian_ofBigEndian_of_length
      rw [List.length_take, Nat.min_eq_left (Nat.le_trans (by decide) hfull)]
    · exact (Nat.mod_eq_of_lt (ofBigEndian_lt (hshort 8 12))).symm

theorem decode_eq_ok_iff : decode raw = .ok m ↔ ∃ units, Layout raw m units :=
  ⟨layout_of_decode, fun ⟨_, h⟩ => h.decode_eq⟩

end Message

end TurnRelay
