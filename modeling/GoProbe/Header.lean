import Mathlib.Data.BitVec
import Mathlib.Data.List.OfFn
import Mathlib.Data.List.GetD
import Mathlib.Tactic.IntervalCases

/-!
# The GPFile header codec

`pkg/goDB/GPFile.go` keeps three arrays of `NumElements = 512` Go `int64` slots in memory
(block end offsets, timestamps, uncompressed lengths) and stores them at the front of the
file as three 4096-byte big-endian arrays. Both directions of the codec are written out by
hand in the source:

* `WriteTimedBlock` fills `wBuf[pos+j] = byte(v >> uint(56-(j*8)))` for slot `i` at
  `pos = 8*i` (`serializeSlots`, `serializeHeader`);
* `NewGPFile` rebuilds slot `i` as `int64(buf[pos])<<56 | … | int64(buf[pos+7])`
  (`readInt64`, `parseSlots`).

A Go `int64` is `BitVec 64` (two's complement) and a Go `byte` is `UInt8`.

* **The encoding is big-endian** (`serializeSlots_eq`): the shifts write each slot's eight
  base-256 digits of its two's-complement value, most significant first (`bigEndian`).
* **Parsing inverts serialising** (`parseSlots_serializeSlots`) for every slot value, negative
  ones included: it is what lets a reopened file see the header its writer left.
* **Serialising inverts parsing** (`serializeSlots_parseSlots`, `serializeHeader_parse`): the
  arrays parsed from any buffer of the right length serialise back to its bytes.
-/

namespace GoProbe

/-- `BufSize`: the bytes of one header array. -/
abbrev BufSize : Nat := 4096

/-- `NumElements`: the slots of one header array. -/
abbrev NumElements : Nat := BufSize / 8

/-- One header array, a Go `[]int64` of length `NumElements`. -/
abbrev Slots := Fin NumElements → BitVec 64

/-- `byte(v >> uint(56-(j*8)))`: byte `j` of `v`, most significant first. -/
def beByte (v : BitVec 64) (j : Nat) : UInt8 := ⟨(v.sshiftRight (56 - j * 8)).setWidth 8⟩

/-- `int64(b)` for a byte `b`. -/
def widen (b : UInt8) : BitVec 64 := b.toBitVec.setWidth 64

/-- The slot `NewGPFile` parses from the eight bytes at `pos`. -/
def readInt64 (buf : List UInt8) (pos : Nat) : BitVec 64 :=
  widen (buf.getD pos 0) <<< 56 ||| widen (buf.getD (pos + 1) 0) <<< 48 |||
  widen (buf.getD (pos + 2) 0) <<< 40 ||| widen (buf.getD (pos + 3) 0) <<< 32 |||
  widen (buf.getD (pos + 4) 0) <<< 24 ||| widen (buf.getD (pos + 5) 0) <<< 16 |||
  widen (buf.getD (pos + 6) 0) <<< 8 ||| widen (buf.getD (pos + 7) 0)

/-- The bytes `WriteTimedBlock`'s loop leaves in one header array: byte `n` of the buffer is
byte `n % 8` of slot `n / 8`. -/
def serializeSlots (a : Slots) : List UInt8 :=
  List.ofFn fun n : Fin BufSize => beByte (a ⟨n / 8, Nat.div_lt_div_of_lt_of_dvd (by decide) n.isLt⟩) (n % 8)

/-- `NewGPFile`'s parse of one header array. -/
def parseSlots (buf : List UInt8) : Slots := fun i => readInt64 buf (8 * i)

/-- The whole header buffer `wBuf`: offsets, then timestamps, then lengths. -/
def serializeHeader (blocks timestamps lengths : Slots) : List UInt8 :=
  serializeSlots blocks ++ serializeSlots timestamps ++ serializeSlots lengths

/-! ## One slot -/

/-- Byte `j` of `v`, widened and shifted back by `56 - 8j`, holds exactly the bits of `v`
that lie in its byte. -/
theorem getLsbD_widen_beByte (v : BitVec 64) {j s : Nat} (hs : s + j * 8 = 56) {i : Nat}
    (hi : i < 64) :
    (widen (beByte v j) <<< s).getLsbD i = (decide (i / 8 = 7 - j) && v.getLsbD i) := by
  simp only [widen, beByte, BitVec.getLsbD_shiftLeft, BitVec.getLsbD_setWidth,
    BitVec.getLsbD_sshiftRight, show 56 - j * 8 = s by omega]
  by_cases h : s ≤ i ∧ i < s + 8
  · simp [hi, show ¬ i < s by omega, show i / 8 = 7 - j by omega, show i - s < 8 by omega,
      show s + (i - s) = i by omega, show i - s < 64 by omega, show ¬ 64 ≤ i - s by omega]
  · rcases (by omega : i < s ∨ 8 ≤ i - s) with h' | h'
    · simp [h', show ¬ i / 8 = 7 - j by omega]
    · simp [h', show ¬ i / 8 = 7 - j by omega, show ¬ i - s < 8 by omega]

/-- **Slot round trip.** Eight bytes holding `v` big-endian parse back to `v`. -/
theorem readInt64_of_bytes {buf : List UInt8} {pos : Nat} {v : BitVec 64}
    (h : ∀ k, k < 8 → buf.getD (pos + k) 0 = beByte v k) : readInt64 buf pos = v := by
  apply BitVec.eq_of_getLsbD_eq
  intro ⟨i, hi⟩
  have h7 : (widen (beByte v 7)).getLsbD i = (decide (i / 8 = 0) && v.getLsbD i) := by
    simpa using getLsbD_widen_beByte v (j := 7) (s := 0) rfl hi
  simp only [readInt64]
  rw [← Nat.add_zero pos, h 0 (by omega), h 1 (by omega), h 2 (by omega), h 3 (by omega),
    h 4 (by omega), h 5 (by omega), h 6 (by omega), h 7 (by omega)]
  simp only [BitVec.getLsbD_or, getLsbD_widen_beByte v _ hi, h7]
  have : i / 8 < 8 := by omega
  generalize i / 8 = q at this ⊢
  interval_cases q <;> simp

/-! ## Whole arrays -/

@[simp] theorem length_serializeSlots (a : Slots) : (serializeSlots a).length = BufSize :=
  List.length_ofFn _

theorem getD_serializeSlots (a : Slots) (i : Fin NumElements) {k : Nat} (hk : k < 8) :
    (serializeSlots a).getD (8 * i + k) 0 = beByte (a i) k := by
  obtain ⟨i, hi⟩ := i
  have hn : 8 * i + k < BufSize := by simp only [NumElements, BufSize] at hi ⊢; omega
  rw [serializeSlots, List.getD_eq_getElem _ _ (by rwa [List.length_ofFn]), List.getElem_ofFn]
  congr 2
  · exact Fin.ext (show (8 * i + k) / 8 = i by omega)
  · show (8 * i + k) % 8 = k; omega

/-- **Array round trip.** Parsing a serialised header array gives the array back. -/
@[simp] theorem parseSlots_serializeSlots (a : Slots) : parseSlots (serializeSlots a) = a :=
  funext fun i => readInt64_of_bytes fun _ hk => getD_serializeSlots a i hk

@[simp] theorem length_serializeHeader (b t l : Slots) :
    (serializeHeader b t l).length = 3 * BufSize := by
  simp [serializeHeader]; omega

/-! ## The big-endian encoding -/

/-- The big-endian two's-complement encoding of an `int64`: the eight base-256 digits of its
64-bit two's-complement value, most significant first. -/
def bigEndian (v : BitVec 64) : List UInt8 :=
  List.ofFn fun j : Fin 8 => UInt8.ofNat (v.toNat / 256 ^ (7 - j.val))

/-- The encodings of an array's slots, one after another. -/
def encodeSlots (a : Slots) : List UInt8 := (List.ofFn fun i => bigEndian (a i)).flatten

/-- `byte(v >> uint(56-(j*8)))` is big-endian digit `j` of `v`: the arithmetic shift brings the
digit's bits down, and the conversion to `byte` keeps only them. -/
theorem beByte_eq (v : BitVec 64) {j : Nat} (hj : j < 8) :
    beByte v j = UInt8.ofNat (v.toNat / 256 ^ (7 - j)) := by
  have h256 : 256 ^ (7 - j) = 2 ^ (56 - j * 8) := by
    rw [show (256 : Nat) = 2 ^ 8 from rfl, ← Nat.pow_mul]; congr 1; omega
  apply UInt8.eq_of_toBitVec_eq
  apply BitVec.eq_of_getLsbD_eq
  intro ⟨i, hi⟩
  show ((v.sshiftRight (56 - j * 8)).setWidth 8).getLsbD i = (BitVec.ofNat 8 _).getLsbD i
  rw [BitVec.getLsbD_setWidth, BitVec.getLsbD_sshiftRight, BitVec.getLsbD_ofNat, h256,
    ← Nat.shiftRight_eq_div_pow, Nat.testBit_shiftRight, BitVec.testBit_toNat,
    if_pos (by omega), Nat.add_comm]
  simp [hi, show ¬ 64 ≤ i by omega]

/-- **The encoding is big-endian.** `WriteTimedBlock`'s loop lays the slots' big-endian
encodings end to end. -/
theorem serializeSlots_eq (a : Slots) : serializeSlots a = encodeSlots a := by
  rw [serializeSlots, List.ofFn_mul (m := NumElements) (n := 8)]
  refine congrArg List.flatten (List.ofFn_inj.mpr (funext fun i =>
    List.ofFn_inj.mpr (funext fun j => ?_)))
  have hi : (⟨(i.val * 8 + j.val) / 8, by omega⟩ : Fin NumElements) = i := Fin.ext (by simp; omega)
  simp only [hi, show (i.val * 8 + j.val) % 8 = j.val by omega, beByte_eq _ j.isLt]

/-! ## Serialising what was parsed -/

/-- An eight-digit base-256 numeral gives back each of its digits. -/
theorem digit_of_bytes (b : Fin 8 → Nat) (hb : ∀ m, b m < 256) (k : Fin 8) :
    (b 0 * 256 ^ 7 + b 1 * 256 ^ 6 + b 2 * 256 ^ 5 + b 3 * 256 ^ 4 + b 4 * 256 ^ 3 +
      b 5 * 256 ^ 2 + b 6 * 256 + b 7) / 256 ^ (7 - k.val) % 256 = b k := by
  have := hb 0; have := hb 1; have := hb 2; have := hb 3
  have := hb 4; have := hb 5; have := hb 6; have := hb 7
  fin_cases k <;> simp <;> omega

/-- Eight bytes parsed as a slot serialise back to the same eight bytes: they are the
big-endian digits of the numeral they spell, and that numeral's slot is what `readInt64`
parses. -/
theorem beByte_readInt64 (buf : List UInt8) (pos : Nat) {k : Nat} (hk : k < 8) :
    beByte (readInt64 buf pos) k = buf.getD (pos + k) 0 := by
  let b : Fin 8 → Nat := fun m => (buf.getD (pos + m) 0).toNat
  have hb : ∀ m, b m < 256 := fun m => UInt8.toNat_lt_size _
  have hN : b 0 * 256 ^ 7 + b 1 * 256 ^ 6 + b 2 * 256 ^ 5 + b 3 * 256 ^ 4 + b 4 * 256 ^ 3 +
      b 5 * 256 ^ 2 + b 6 * 256 + b 7 < 2 ^ 64 := by
    have := hb 0; have := hb 1; have := hb 2; have := hb 3
    have := hb 4; have := hb 5; have := hb 6; have := hb 7
    omega
  have hv : ∀ k, k < 8 → buf.getD (pos + k) 0 = beByte (BitVec.ofNat 64 (b 0 * 256 ^ 7 +
      b 1 * 256 ^ 6 + b 2 * 256 ^ 5 + b 3 * 256 ^ 4 + b 4 * 256 ^ 3 + b 5 * 256 ^ 2 + b 6 * 256 +
      b 7)) k := fun k hk => by
    rw [beByte_eq _ hk]
    apply UInt8.toNat.inj
    show b ⟨k, hk⟩ = (BitVec.ofNat 8 _).toNat
    rw [BitVec.toNat_ofNat, BitVec.toNat_ofNat, Nat.mod_eq_of_lt hN]
    exact (digit_of_bytes b hb ⟨k, hk⟩).symm
  rw [readInt64_of_bytes hv, hv k hk]

/-- **Serialising inverts parsing** on a buffer of one header array. -/
theorem serializeSlots_parseSlots {buf : List UInt8} (h : buf.length = BufSize) :
    serializeSlots (parseSlots buf) = buf := by
  apply List.ext_getElem (by simp [h])
  intro n h1 h2
  have hn : n / 8 < NumElements := by
    rw [length_serializeSlots] at h1
    simp only [NumElements, BufSize] at h1 ⊢
    omega
  have hk : n % 8 < 8 := Nat.mod_lt _ (by decide)
  rw [← List.getD_eq_getElem _ 0 h1, ← List.getD_eq_getElem _ 0 h2, ← Nat.div_add_mod n 8,
    getD_serializeSlots _ ⟨n / 8, hn⟩ hk]
  exact beByte_readInt64 buf _ hk

/-- The three arrays parsed from a whole header buffer serialise back to it. -/
theorem serializeHeader_parse {buf : List UInt8} (h : buf.length = 3 * BufSize) :
    serializeHeader (parseSlots (buf.take BufSize)) (parseSlots ((buf.drop BufSize).take BufSize))
      (parseSlots ((buf.drop (2 * BufSize)).take BufSize)) = buf := by
  have h2 : (buf.drop (2 * BufSize)).take BufSize = buf.drop (2 * BufSize) :=
    List.take_of_length_le (by simp [h]; omega)
  rw [serializeHeader, serializeSlots_parseSlots (by simp [h]),
    serializeSlots_parseSlots (by simp [h]; omega), serializeSlots_parseSlots (by simp [h]; omega), h2,
    show 2 * BufSize = BufSize + BufSize by omega, ← List.drop_drop, List.append_assoc,
    List.take_append_drop, List.take_append_drop]

/-- A zero buffer parses to zero slots. -/
theorem parseSlots_zeros : parseSlots (List.replicate BufSize 0) = fun _ => 0 :=
  funext fun _ => readInt64_of_bytes fun _ _ => by simp [List.getD_eq_getElem?_getD, beByte]

end GoProbe
