namespace TurnRelay

abbrev Bytes := List UInt8

/-- The last `width` base-256 digits of a number. -/
def bigEndian : Nat → Nat → Bytes
  | 0, _ => []
  | width + 1, n => bigEndian width (n / 256) ++ [.ofNat n]

def ofBigEndian (bs : Bytes) : Nat := bs.foldl (fun n b => n * 256 + b.toNat) 0

@[simp] theorem length_bigEndian (width n : Nat) : (bigEndian width n).length = width := by
  induction width generalizing n with
  | zero => rfl
  | succ width ih => simp [bigEndian, ih]

@[simp] theorem ofBigEndian_nil : ofBigEndian [] = 0 := rfl

@[simp] theorem ofBigEndian_concat (bs : Bytes) (b : UInt8) :
    ofBigEndian (bs ++ [b]) = ofBigEndian bs * 256 + b.toNat := by
  simp [ofBigEndian]

@[simp] theorem ofBigEndian_bigEndian (width n : Nat) :
    ofBigEndian (bigEndian width n) = n % Nat.pow 256 width := by
  induction width generalizing n with
  | zero => exact (Nat.mod_one n).symm
  | succ width ih =>
    have hpow : Nat.pow 256 (width + 1) = 256 * Nat.pow 256 width := Nat.mul_comm _ _
    rw [bigEndian, ofBigEndian_concat, ih, UInt8.toNat_ofNat', hpow, Nat.mod_mul]
    omega

theorem ofBigEndian_bigEndian_of_lt {width n : Nat} (h : n < Nat.pow 256 width) :
    ofBigEndian (bigEndian width n) = n := by
  rw [ofBigEndian_bigEndian, Nat.mod_eq_of_lt h]

theorem bigEndian_two (n : Nat) : bigEndian 2 n = [.ofNat (n / 256), .ofNat n] := rfl

theorem ofBigEndian_pair {n : Nat} (h : n < 65536) :
    ofBigEndian [.ofNat (n / 256), .ofNat n] = n := by
  rw [← bigEndian_two]
  exact ofBigEndian_bigEndian_of_lt h

theorem bigEndian_concat (width n : Nat) (b : UInt8) :
    bigEndian (width + 1) (n * 256 + b.toNat) = bigEndian width n ++ [b] := by
  have hb : b.toNat < 256 := b.toNat_lt
  rw [bigEndian, show (n * 256 + b.toNat) / 256 = n by omega]
  congr 2
  apply UInt8.toNat_inj.1
  simp only [UInt8.toNat_ofNat']
  omega

theorem bigEndian_foldl (bs : Bytes) (width n : Nat) :
    bigEndian (width + bs.length) (bs.foldl (fun n b => n * 256 + b.toNat) n) =
      bigEndian width n ++ bs := by
  induction bs generalizing width n with
  | nil => simp
  | cons b rest ih =>
    rw [List.foldl_cons, List.length_cons, Nat.add_comm rest.length, ← Nat.add_assoc, ih,
      bigEndian_concat, List.append_assoc, List.singleton_append]

@[simp] theorem bigEndian_ofBigEndian (bs : Bytes) : bigEndian bs.length (ofBigEndian bs) = bs := by
  simpa [bigEndian, ofBigEndian] using bigEndian_foldl bs 0 0

theorem bigEndian_ofBigEndian_of_length {bs : Bytes} {width : Nat} (h : bs.length = width) :
    bigEndian width (ofBigEndian bs) = bs := by
  rw [← h, bigEndian_ofBigEndian]

theorem ofBigEndian_lt {bs : Bytes} {width : Nat} (h : bs.length ≤ width) :
    ofBigEndian bs < Nat.pow 256 width := by
  have hdigits : ofBigEndian bs < Nat.pow 256 bs.length := by
    rw [← bigEndian_ofBigEndian bs, ofBigEndian_bigEndian, length_bigEndian]
    exact Nat.mod_lt _ (Nat.pow_pos (by decide))
  exact Nat.lt_of_lt_of_le hdigits (Nat.pow_le_pow_right (by decide) h)

def zeros (n : Nat) : Bytes := List.replicate n 0

def padding (length : Nat) : Nat := (4 - length % 4) % 4

theorem padding_lt (length : Nat) : padding length < 4 := Nat.mod_lt _ (by decide)

theorem length_add_padding (length : Nat) : (length + padding length) % 4 = 0 := by
  unfold padding; omega

end TurnRelay

namespace TurnRelay.Utf8

def encode (text : String) : Bytes := text.toUTF8.data.toList

def decode? (bytes : Bytes) : Option String := String.fromUTF8? ⟨bytes.toArray⟩

@[simp] theorem decode?_encode (text : String) : decode? (encode text) = some text := by
  simp only [decode?, encode, String.fromUTF8?]
  exact dif_pos text.isValidUTF8

theorem encode_of_decode? {bytes : Bytes} {text : String} (h : decode? bytes = some text) :
    encode text = bytes := by
  simp only [decode?, String.fromUTF8?] at h
  split at h
  · cases h; rfl
  · cases h

end TurnRelay.Utf8
