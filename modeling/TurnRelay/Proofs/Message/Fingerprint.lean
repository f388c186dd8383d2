import TurnRelay.Proofs.Hash.Burst
import TurnRelay.Proofs.Message.Bare
import TurnRelay.Proofs.Message.Grammar
import TurnRelay.Proofs.Message.Signature

namespace TurnRelay

theorem Tlv.mem_of_mem_heeded {tlv : Tlv} {units : List Tlv} (h : tlv ∈ heeded units) : tlv ∈ units := by
  obtain hfront | hback := List.mem_append.1 h
  · exact List.mem_of_mem_take hfront
  · exact List.mem_of_mem_drop (List.mem_filter.1 hback).1

namespace Message

variable {raw other covered : Bytes} {m : Message} {units : List Tlv} {tlv : Tlv} {start : Nat}

theorem Grammatical.fingerprinted (h : Grammatical raw units) (htlv : tlv ∈ units)
    (hfingerprint : tlv.IsFingerprint) : Fingerprinted raw := by
  obtain ⟨front, back, rfl⟩ := List.append_of_mem htlv
  obtain ⟨rfl, hsums⟩ := h.stamped front tlv back rfl hfingerprint
  have hraw : raw = raw.take headerSize ++ Tlv.encodeAll front ++ tlv.encode := by
    have hbody := h.body
    simp only [Tlv.encodeAll_append, Tlv.encodeAll_cons, Tlv.encodeAll_nil, List.append_nil] at hbody
    rw [List.append_assoc, ← hbody, List.take_append_drop]
  have hcovered : before raw tlv.encode = raw.take headerSize ++ Tlv.encodeAll front := by
    rw [before]
    conv => lhs; rw [hraw]
    rw [List.length_append, Nat.add_sub_cancel, List.take_left' rfl]
  have hfill : tlv.fill.length = 0 := by
    rw [(h.intact tlv htlv).fill_length, hfingerprint.length_value (h.valid tlv htlv)]
    rfl
  rw [Sums, hcovered] at hsums
  obtain ⟨code, value, fill⟩ := tlv
  obtain rfl : code = AttributeType.fingerprint.code := hfingerprint
  obtain rfl : fill = [] := List.length_eq_zero_iff.1 hfill
  obtain rfl : value = _ := hsums
  exact ⟨_, hraw⟩

theorem fingerprinted_of_decode (h : decode raw = .ok m) (hstamp : ∃ a ∈ m.attributes, a.type = .fingerprint) :
    Fingerprinted raw := by
  obtain ⟨units, hgrammatical, -, -, hattributes⟩ := grammatical_of_decode h
  obtain ⟨a, ha, htype⟩ := hstamp
  have hread : Except.ok a ∈ (Tlv.heeded units).map (·.read m.transaction) := by
    rw [hattributes]
    exact List.mem_map_of_mem ha
  obtain ⟨tlv, htlv, hread⟩ := List.mem_map.1 hread
  exact hgrammatical.fingerprinted (Tlv.mem_of_mem_heeded htlv) ((Tlv.type_eq_fingerprint_iff hread).1 htype)

theorem drop_stamp (h : raw = covered ++
      Tlv.encode ⟨AttributeType.fingerprint.code, bigEndian 4 (fingerprint covered).toNat, []⟩) :
    raw.length = covered.length + 8 ∧
      raw.drop (covered.length + 4) = bigEndian 4 (fingerprint covered).toNat := by
  subst h
  refine ⟨?_, ?_⟩
  · simp [Tlv.length_encode]
  · rw [← List.drop_drop, List.drop_left' rfl]
    simp [Tlv.encode, u16, bigEndian_two]

theorem Fingerprinted.eq_of_agreeOutside (h : Fingerprinted raw) (hother : Fingerprinted other)
    (hlength : raw.length = other.length) (hburst : AgreeOutside start 4 raw other) : raw = other := by
  obtain ⟨covered, hraw⟩ := h
  obtain ⟨covered', hraw'⟩ := hother
  obtain ⟨hsize, htail⟩ := drop_stamp hraw
  obtain ⟨hsize', htail'⟩ := drop_stamp hraw'
  have hcovered : covered.length = covered'.length := by omega
  -- the burst reaches into the covered bytes or into the checksum, and never into both
  by_cases hsame : covered = covered'
  · rw [hraw, hraw', hsame]
  · have hinside : AgreeOutside start 4 covered covered' := by
      rw [hraw, hraw'] at hburst
      exact hburst.of_append_right hcovered
    have hstart := hinside.start_lt hcovered hsame
    have hsums : fingerprint covered = fingerprint covered' := by
      have htails : raw.drop (covered.length + 4) = other.drop (covered.length + 4) :=
        hburst.drop_eq (by omega)
      rw [htail, hcovered, htail'] at htails
      have hvalues := congrArg ofBigEndian htails
      rw [ofBigEndian_bigEndian_of_lt (BitVec.isLt _), ofBigEndian_bigEndian_of_lt (BitVec.isLt _)] at hvalues
      exact BitVec.toNat_inj.1 hvalues
    have hchecksums := (BitVec.xor_left_inj fingerprintMask).1 hsums
    exact absurd hchecksums (Crc32.checksum_ne_of_agreeOutside hcovered hsame hinside)

/-- A message with a fingerprint that is damaged inside four consecutive bytes is refused, or has no
fingerprint any more. -/
theorem burst_detected (h : decode raw = .ok m) (hstamp : ∃ a ∈ m.attributes, a.type = .fingerprint)
    (hlength : other.length = raw.length) (hne : other ≠ raw) (hburst : AgreeOutside start 4 other raw) :
    (∃ e, decode other = .error e) ∨
      ∃ m', decode other = .ok m' ∧ ∀ a ∈ m'.attributes, a.type ≠ .fingerprint := by
  cases hdecode : decode other with
  | error e => exact .inl ⟨e, rfl⟩
  | ok m' =>
    refine .inr ⟨m', rfl, fun a ha htype => hne ?_⟩
    exact (fingerprinted_of_decode hdecode ⟨a, ha, htype⟩).eq_of_agreeOutside (fingerprinted_of_decode h hstamp)
      hlength hburst

end Message

namespace Sample

def probe : Message := ⟨⟨.binding, .request⟩, 7, []⟩

def probeBytes : Bytes := (probe.encode none true).toOption.getD []

def damagedProbe : Bytes := probeBytes.take 10 ++ [1, 2, 3, 4] ++ probeBytes.drop 14

end Sample

theorem burst_detected_sample :
    (∃ a ∈ (Sample.probe.withSeals none true).attributes, a.type = .fingerprint) ∧
      Sample.damagedProbe ≠ Sample.probeBytes ∧ AgreeOutside 10 4 Sample.damagedProbe Sample.probeBytes ∧
      ((∃ e, Message.decode Sample.damagedProbe = .error e) ∨
        ∃ m', Message.decode Sample.damagedProbe = .ok m' ∧ ∀ a ∈ m'.attributes, a.type ≠ .fingerprint) := by
  have hdecode : Message.decode Sample.probeBytes = .ok (Sample.probe.withSeals none true) :=
    Sample.eq_ok_of_toOption (by decide +kernel)
  have hstamp : ∃ a ∈ (Sample.probe.withSeals none true).attributes, a.type = .fingerprint :=
    ⟨_, List.mem_singleton.2 rfl, rfl⟩
  have hne : Sample.damagedProbe ≠ Sample.probeBytes := by decide +kernel
  have hparts : Sample.probeBytes = Sample.probeBytes.take 10 ++ [0, 0, 0, 0] ++ Sample.probeBytes.drop 14 := by
    decide +kernel
  have hburst : AgreeOutside 10 4 Sample.damagedProbe Sample.probeBytes := by
    have hfront : (Sample.probeBytes.take 10).length = 10 := by decide +kernel
    have hsame : ([1, 2, 3, 4] : Bytes).length = ([0, 0, 0, 0] : Bytes).length := rfl
    have h := AgreeOutside.of_append (Sample.probeBytes.take 10) (Sample.probeBytes.drop 14) hsame
    rwa [hfront, ← hparts] at h
  exact ⟨hstamp, hne, hburst, Message.burst_detected hdecode hstamp (by decide +kernel) hne hburst⟩

end TurnRelay
