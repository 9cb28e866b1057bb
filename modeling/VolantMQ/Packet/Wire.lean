import VolantMQ.Packet.Types
import Mathlib.Tactic.Ring
import Mathlib.Data.Nat.Bitwise
import Mathlib.Tactic.IntervalCases

/-!
# Integers and length-prefixed fields on the wire

The variable byte integers of `header.go` and the length-prefixed fields of `routines.go`,
with the big-endian and unsigned-varint writers of Go's `encoding/binary`. Each reader is
proved to invert the corresponding writer in front of arbitrary further bytes.
-/

namespace VolantMQ.Packet

open Lib

/-- What holds of all values of four bits holds of the flags of a packet. -/
theorem forall_nibble {P : UInt8 → Prop} (table : ∀ low : Fin 16, P (UInt8.ofNat low.val))
    {flags : UInt8} (small : flags.toNat < 16) : P flags := by
  have entry := table ⟨flags.toNat, small⟩
  rwa [UInt8.ofNat_toNat] at entry

/-- `binary.BigEndian.PutUint16` -/
def putUint16 (value : UInt16) : Bytes :=
  [UInt8.ofNat (value.toNat / 256), UInt8.ofNat (value.toNat % 256)]

/-- `binary.BigEndian.Uint16` of two bytes -/
def uint16 (high low : UInt8) : UInt16 := UInt16.ofNat (high.toNat * 256 + low.toNat)

/-- `binary.BigEndian.PutUint32` -/
def putUint32 (value : UInt32) : Bytes :=
  [UInt8.ofNat (value.toNat / 16777216), UInt8.ofNat (value.toNat / 65536 % 256),
    UInt8.ofNat (value.toNat / 256 % 256), UInt8.ofNat (value.toNat % 256)]

/-- `binary.BigEndian.Uint32` of four bytes -/
def uint32 (b3 b2 b1 b0 : UInt8) : UInt32 :=
  UInt32.ofNat (b3.toNat * 16777216 + b2.toNat * 65536 + b1.toNat * 256 + b0.toNat)

@[simp]
theorem length_putUint16 (value : UInt16) : (putUint16 value).length = 2 := rfl

@[simp]
theorem length_putUint32 (value : UInt32) : (putUint32 value).length = 4 := rfl

theorem uint16_putUint16 (value : UInt16) :
    uint16 (UInt8.ofNat (value.toNat / 256)) (UInt8.ofNat (value.toNat % 256)) = value := by
  apply UInt16.toNat_inj.mp
  have bound := value.toNat_lt
  simp only [uint16, UInt8.toNat_ofNat', UInt16.toNat_ofNat']
  omega

theorem uint32_putUint32 (value : UInt32) :
    uint32 (UInt8.ofNat (value.toNat / 16777216)) (UInt8.ofNat (value.toNat / 65536 % 256))
      (UInt8.ofNat (value.toNat / 256 % 256)) (UInt8.ofNat (value.toNat % 256)) = value := by
  apply UInt32.toNat_inj.mp
  have bound := value.toNat_lt
  simp only [uint32, UInt8.toNat_ofNat', UInt32.toNat_ofNat']
  omega

theorem putUint16_uint16 (high low : UInt8) : putUint16 (uint16 high low) = [high, low] := by
  have highBound := high.toNat_lt
  have lowBound := low.toNat_lt
  have value : (uint16 high low).toNat = high.toNat * 256 + low.toNat := by
    rw [uint16, UInt16.toNat_ofNat', Nat.mod_eq_of_lt (by omega)]
  have first : (high.toNat * 256 + low.toNat) / 256 = high.toNat := by omega
  have second : (high.toNat * 256 + low.toNat) % 256 = low.toNat := by omega
  simp only [putUint16, value, first, second, UInt8.ofNat_toNat]

theorem putUint32_uint32 (b3 b2 b1 b0 : UInt8) :
    putUint32 (uint32 b3 b2 b1 b0) = [b3, b2, b1, b0] := by
  have bound3 := b3.toNat_lt
  have bound2 := b2.toNat_lt
  have bound1 := b1.toNat_lt
  have bound0 := b0.toNat_lt
  obtain ⟨total, value, sum⟩ : ∃ total, (uint32 b3 b2 b1 b0).toNat = total ∧
      total = b3.toNat * 16777216 + b2.toNat * 65536 + b1.toNat * 256 + b0.toNat :=
    ⟨_, rfl, by rw [uint32, UInt32.toNat_ofNat', Nat.mod_eq_of_lt (by omega)]⟩
  have first : total / 16777216 = b3.toNat := by omega
  have second : total / 65536 % 256 = b2.toNat := by omega
  have third : total / 256 % 256 = b1.toNat := by omega
  have fourth : total % 256 = b0.toNat := by omega
  simp only [putUint32, value, first, second, third, fourth, UInt8.ofNat_toNat]

/-- The bytes `binary.PutUvarint` stores; ten rounds are enough for 64 bits. -/
def uvarintBytes : ℕ → ℕ → Bytes
  | 0, _ => []
  | rounds + 1, value =>
      if 0x80 ≤ value then (UInt8.ofNat value ||| 0x80) :: uvarintBytes rounds (value >>> 7)
      else [UInt8.ofNat value]

/-- `binary.PutUvarint` as the bytes it stores. -/
def putUvarint (value : ℕ) : Bytes := uvarintBytes 10 value

/-- `uint32(b) << s` in Go: bits shifted out of the 32 are lost. -/
def shl32 (byte : UInt8) (shift : ℕ) : UInt32 := UInt32.ofNat (byte.toNat <<< shift)

/-- The loop of `uvarint`, with index `i`, accumulator `x` and shift `s`. -/
def uvarintLoop : Bytes → ℕ → UInt32 → ℕ → UInt32 × Int
  | [], _, _, _ => (0, 0)
  | byte :: rest, i, x, s =>
      if byte < 0x80 then
        if 4 < i ∨ i = 4 ∧ 1 < byte then (0, -((i : Int) + 1))
        else (x ||| shl32 byte s, (i : Int) + 1)
      else uvarintLoop rest (i + 1) (x ||| shl32 (byte &&& 0x7f) s) (s + 7)

/-- `packet.uvarint`: value and number of bytes read; not positive on error. -/
def uvarint (buf : Bytes) : UInt32 × Int := uvarintLoop buf 0 0 0

/-- The loop of `uvarintCalc`; five rounds are enough for 32 bits. -/
def uvarintCalcLoop : ℕ → ℕ → ℕ
  | 0, _ => 0
  | rounds + 1, value => if 0x80 ≤ value then uvarintCalcLoop rounds (value >>> 7) + 1 else 1

/-- `packet.uvarintCalc`: the length of the encoding of a value. -/
def uvarintCalc (value : UInt32) : ℕ := uvarintCalcLoop 5 value.toNat

theorem toNat_or_0x80 (value : ℕ) : (UInt8.ofNat value ||| 0x80).toNat = value % 128 + 128 := by
  have table : ∀ low : Fin 256, (low.val ||| 128) = low.val % 128 + 128 := by decide +kernel
  rw [UInt8.toNat_or, UInt8.toNat_ofNat']
  have entry := table ⟨value % 256, Nat.mod_lt _ (by decide)⟩
  simp only at entry
  change (value % 256 ||| 128) = _
  rw [entry]
  omega

theorem toNat_and_0x7f (byte : UInt8) : (byte &&& 0x7f).toNat = byte.toNat % 128 := by
  rw [UInt8.toNat_and]
  exact Nat.and_two_pow_sub_one_eq_mod byte.toNat 7

theorem toNat_shl32 {byte : UInt8} {shift : ℕ} (fits : byte.toNat * 2 ^ shift < 2 ^ 32) :
    (shl32 byte shift).toNat = byte.toNat * 2 ^ shift := by
  rw [shl32, UInt32.toNat_ofNat', Nat.shiftLeft_eq]
  exact Nat.mod_eq_of_lt fits

/-- Bits shifted above an accumulator add to it. -/
theorem toNat_or_shl32 {x : UInt32} {byte : UInt8} {shift : ℕ} (below : x.toNat < 2 ^ shift)
    (fits : byte.toNat * 2 ^ shift < 2 ^ 32) :
    (x ||| shl32 byte shift).toNat = x.toNat + byte.toNat * 2 ^ shift := by
  rw [UInt32.toNat_or, toNat_shl32 fits, Nat.or_comm, Nat.mul_comm,
    ← Nat.two_pow_add_eq_or_of_lt below byte.toNat]
  omega

theorem uvarintCalcLoop_eq_length {rounds extra value : ℕ} (enough : value < 2 ^ (7 * rounds))
    (notEmpty : 0 < rounds) :
    uvarintCalcLoop rounds value = (uvarintBytes (rounds + extra) value).length := by
  induction rounds generalizing value with
  | zero => omega
  | succ rounds ih =>
      rw [show rounds + 1 + extra = rounds + extra + 1 by omega]
      simp only [uvarintCalcLoop, uvarintBytes]
      split
      · rename_i more
        have roundsPos : 0 < rounds := by
          rcases rounds with _ | rounds
          · simp at enough; omega
          · omega
        rw [List.length_cons, ih _ roundsPos]
        rw [Nat.shiftRight_eq_div_pow]
        rw [show 7 * (rounds + 1) = 7 * rounds + 7 by ring, Nat.pow_add] at enough
        omega
      · simp

/-- `uvarintCalc` is the number of bytes `PutUvarint` stores. -/
theorem uvarintCalc_eq_length (value : UInt32) :
    uvarintCalc value = (putUvarint value.toNat).length :=
  @uvarintCalcLoop_eq_length 5 5 _ (by have := value.toNat_lt; omega) (by decide)

theorem uvarintCalcLoop_le (rounds value : ℕ) : uvarintCalcLoop rounds value ≤ rounds := by
  induction rounds generalizing value with
  | zero => simp [uvarintCalcLoop]
  | succ rounds ih =>
      simp only [uvarintCalcLoop]
      split
      · exact Nat.succ_le_succ (ih _)
      · omega

theorem uvarintCalc_le (value : UInt32) : uvarintCalc value ≤ 5 := uvarintCalcLoop_le 5 _

theorem uvarintCalc_pos (value : UInt32) : 0 < uvarintCalc value := by
  simp only [uvarintCalc, uvarintCalcLoop]
  split <;> omega

theorem uvarintCalcLoop_le_of_lt {rounds width value : ℕ} (positive : 0 < width)
    (fits : value < 2 ^ (7 * width)) : uvarintCalcLoop rounds value ≤ width := by
  induction rounds generalizing width value with
  | zero => simp [uvarintCalcLoop]
  | succ rounds ih =>
      simp only [uvarintCalcLoop]
      split
      · rename_i more
        cases width with
        | zero => omega
        | succ width =>
            rw [show 7 * (width + 1) = 7 * width + 7 by ring, Nat.pow_add] at fits
            have widthPos : 0 < width := by
              rcases width with _ | width
              · omega
              · omega
            refine Nat.succ_le_succ (ih widthPos ?_)
            rw [Nat.shiftRight_eq_div_pow]
            omega
      · omega

/-- The number that the groups of seven bits at the start of the bytes stand for and the bytes they
take; none if the bytes end before the last group. -/
def uvarintValue : Bytes → Option (ℕ × ℕ)
  | [] => none
  | byte :: rest =>
      if byte < 0x80 then some (byte.toNat, 1)
      else (uvarintValue rest).map fun (value, width) => (byte.toNat % 128 + 128 * value, width + 1)

theorem uvarintValue_pos {buf : Bytes} {value width : ℕ}
    (found : uvarintValue buf = some (value, width)) : 0 < width ∧ width ≤ buf.length := by
  induction buf generalizing value width with
  | nil => simp [uvarintValue] at found
  | cons byte rest ih =>
      simp only [uvarintValue] at found
      split at found
      · simp only [Option.some.injEq, Prod.mk.injEq] at found
        rw [List.length_cons]
        omega
      · rcases Option.map_eq_some_iff.mp found with ⟨⟨high, more⟩, tail, same⟩
        simp only [Prod.mk.injEq] at same
        have := ih tail
        rw [List.length_cons]
        omega

theorem uvarintValue_lt {buf : Bytes} {value width : ℕ}
    (found : uvarintValue buf = some (value, width)) : value < 2 ^ (7 * width) := by
  induction buf generalizing value width with
  | nil => simp [uvarintValue] at found
  | cons byte rest ih =>
      simp only [uvarintValue] at found
      split at found
      · rename_i final
        simp only [Option.some.injEq, Prod.mk.injEq] at found
        rw [← found.1, ← found.2]
        simpa [UInt8.lt_iff_toNat_lt] using final
      · rcases Option.map_eq_some_iff.mp found with ⟨⟨high, more⟩, tail, same⟩
        simp only [Prod.mk.injEq] at same
        have below := ih tail
        rw [← same.1, ← same.2, show 7 * (more + 1) = 7 * more + 7 by ring, Nat.pow_add]
        omega

theorem uvarintLoop_eq {i : ℕ} {x : UInt32} (accumulated : i ≤ 4 → x.toNat < 2 ^ (7 * i))
    (buf : Bytes) :
    uvarintLoop buf i x (7 * i) =
      match uvarintValue buf with
      | none => (0, 0)
      | some (value, width) =>
          if i + width ≤ 5 ∧ x.toNat + value * 2 ^ (7 * i) < 2 ^ 29 then
            (UInt32.ofNat (x.toNat + value * 2 ^ (7 * i)), (i + width : ℕ))
          else (0, -((i + width : ℕ) : Int)) := by
  induction buf generalizing i x with
  | nil => rfl
  | cons byte rest ih =>
      simp only [uvarintLoop, uvarintValue]
      split
      · rename_i final
        have small : byte.toNat < 128 := by simpa [UInt8.lt_iff_toNat_lt] using final
        have top : 1 < byte ↔ 1 < byte.toNat := by simp [UInt8.lt_iff_toNat_lt]
        -- the guard of the source is the bound on the value
        have guard : (4 < i ∨ i = 4 ∧ 1 < byte) ↔
            ¬(i + 1 ≤ 5 ∧ x.toNat + byte.toNat * 2 ^ (7 * i) < 2 ^ 29) := by
          by_cases low : i ≤ 4
          · have below := accumulated low
            rw [top]
            interval_cases i <;> omega
          · omega
        simp only
        by_cases fits : i + 1 ≤ 5 ∧ x.toNat + byte.toNat * 2 ^ (7 * i) < 2 ^ 29
        · rw [if_neg (fun large => guard.mp large fits), if_pos fits]
          refine Prod.ext ?_ (by simp)
          apply UInt32.toNat_inj.mp
          rw [toNat_or_shl32 (accumulated (by omega)) (by omega), UInt32.toNat_ofNat']
          omega
        · rw [if_pos (guard.mpr fits), if_neg fits]
          simp
      · have powStep : 2 ^ (7 * (i + 1)) = 128 * 2 ^ (7 * i) := by
          rw [show 7 * (i + 1) = 7 * i + 7 by ring, Nat.pow_add]; ring
        have sum : i ≤ 3 → (x ||| shl32 (byte &&& 0x7f) (7 * i)).toNat =
            x.toNat + byte.toNat % 128 * 2 ^ (7 * i) := by
          intro low
          have scaled : byte.toNat % 128 * 2 ^ (7 * i) ≤ 127 * 2 ^ (7 * i) :=
            Nat.mul_le_mul_right _ (by omega)
          have room : 127 * 2 ^ (7 * i) < 2 ^ 32 := by interval_cases i <;> omega
          rw [toNat_or_shl32 (accumulated (by omega)) (by rw [toNat_and_0x7f]; omega),
            toNat_and_0x7f]
        have next := @ih (i + 1) (x ||| shl32 (byte &&& 0x7f) (7 * i)) (by
          intro low
          have below := accumulated (by omega)
          have scaled : byte.toNat % 128 * 2 ^ (7 * i) ≤ 127 * 2 ^ (7 * i) :=
            Nat.mul_le_mul_right _ (by omega)
          rw [sum (by omega), powStep]
          omega)
        rw [show 7 * i + 7 = 7 * (i + 1) by ring, next]
        cases tail : uvarintValue rest with
        | none => rfl
        | some found =>
            rcases found with ⟨value, width⟩
            have positive := (uvarintValue_pos tail).1
            simp only [Option.map_some]
            by_cases low : i ≤ 3
            · have regroup : x.toNat + byte.toNat % 128 * 2 ^ (7 * i) + value * 2 ^ (7 * (i + 1)) =
                  x.toNat + (byte.toNat % 128 + 128 * value) * 2 ^ (7 * i) := by
                rw [powStep]; ring
              rw [sum low, regroup, show i + 1 + width = i + (width + 1) by omega]
            · rw [if_neg (by omega), if_neg (by omega), show i + 1 + width = i + (width + 1) by omega]

/-- What `uvarint` makes of any bytes: it reads the encodings of at most five bytes of the numbers
below `2 ^ 29`. -/
theorem uvarint_eq (buf : Bytes) :
    uvarint buf =
      match uvarintValue buf with
      | none => (0, 0)
      | some (value, width) =>
          if width ≤ 5 ∧ value < 2 ^ 29 then (UInt32.ofNat value, (width : Int))
          else (0, -(width : Int)) := by
  have loop := @uvarintLoop_eq 0 0 (by simp) buf
  simpa [uvarint] using loop

theorem uvarintValue_uvarintBytes {rounds value : ℕ} (rest : Bytes)
    (enough : value < 2 ^ (7 * rounds)) (notEmpty : 0 < rounds) :
    uvarintValue (uvarintBytes rounds value ++ rest) =
      some (value, (uvarintBytes rounds value).length) := by
  induction rounds generalizing value with
  | zero => omega
  | succ rounds ih =>
      simp only [uvarintBytes]
      split
      · rename_i more
        have roundsPos : 0 < rounds := by
          rcases rounds with _ | rounds
          · simp at enough; omega
          · omega
        have notFinal : ¬(UInt8.ofNat value ||| 0x80) < 0x80 := by
          rw [UInt8.lt_iff_toNat_lt, toNat_or_0x80]
          simp
        rw [show 7 * (rounds + 1) = 7 * rounds + 7 by ring, Nat.pow_add] at enough
        have shifted : value >>> 7 = value / 128 := Nat.shiftRight_eq_div_pow value 7
        have tail := @ih (value >>> 7) (by omega) roundsPos
        simp only [List.cons_append, uvarintValue, if_neg notFinal, tail, Option.map_some,
          toNat_or_0x80, List.length_cons, Option.some.injEq, Prod.mk.injEq, and_true]
        omega
      · rename_i less
        have byteVal : (UInt8.ofNat value).toNat = value := by
          rw [UInt8.toNat_ofNat']; omega
        have final : UInt8.ofNat value < 0x80 := by
          rw [UInt8.lt_iff_toNat_lt, byteVal]
          simpa using less
        simp [uvarintValue, final, byteVal]

/-- `PutUvarint` writes an encoding of its number. -/
theorem uvarintValue_putUvarint {value : ℕ} (fits : value < 2 ^ 64) (rest : Bytes) :
    uvarintValue (putUvarint value ++ rest) = some (value, (putUvarint value).length) :=
  uvarintValue_uvarintBytes rest (by omega) (by decide)

theorem length_putUvarint_le {value : ℕ} (fits : value < 2 ^ 32) : (putUvarint value).length ≤ 5 := by
  have width := uvarintCalc_le (UInt32.ofNat value)
  rwa [uvarintCalc_eq_length, UInt32.toNat_ofNat', Nat.mod_eq_of_lt fits] at width

/-- The reader accepts every value below `2 ^ 29`, which covers all lengths of the protocol. -/
theorem uvarint_putUvarint {value : ℕ} (fits : value < 2 ^ 29) (rest : Bytes) :
    uvarint (putUvarint value ++ rest) =
      (UInt32.ofNat value, ((putUvarint value).length : Int)) := by
  rw [uvarint_eq, uvarintValue_putUvarint (by omega)]
  exact if_pos ⟨length_putUvarint_le (by omega), fits⟩

/-- Larger values take a fifth byte that the reader refuses. -/
theorem uvarint_putUvarint_of_le {value : ℕ} (large : 2 ^ 29 ≤ value) (small : value < 2 ^ 32)
    (rest : Bytes) : uvarint (putUvarint value ++ rest) = (0, -5) := by
  have encoded := uvarintValue_putUvarint (show value < 2 ^ 64 by omega) rest
  have width : (putUvarint value).length = 5 := by
    have most := length_putUvarint_le small
    have room := uvarintValue_lt encoded
    by_contra other
    have fewer : 2 ^ (7 * (putUvarint value).length) ≤ 2 ^ (7 * 4) :=
      Nat.pow_le_pow_right (by decide) (by omega)
    omega
  rw [uvarint_eq, encoded, width]
  exact if_neg (by omega)

/-- A value that was read fits into 29 bits and into the bytes it was read from. -/
theorem uvarint_bound {buf : Bytes} {value : UInt32} {n : Int} (read : uvarint buf = (value, n))
    (positive : 0 < n) :
    value.toNat < 2 ^ 29 ∧ uvarintCalc value ≤ n.toNat ∧ n.toNat ≤ buf.length := by
  rw [uvarint_eq] at read
  split at read
  · simp only [Prod.mk.injEq] at read
    omega
  · rename_i found width encoded
    have within := uvarintValue_pos encoded
    have below := uvarintValue_lt encoded
    split at read
    · rename_i fits
      simp only [Prod.mk.injEq] at read
      rcases read with ⟨rfl, rfl⟩
      have same : (UInt32.ofNat found).toNat = found := by
        rw [UInt32.toNat_ofNat', Nat.mod_eq_of_lt (by omega)]
      rw [same, Int.toNat_natCast]
      exact ⟨fits.2, uvarintCalcLoop_le_of_lt within.1 (by rwa [same]), within.2⟩
    · simp only [Prod.mk.injEq] at read
      omega

/-- No integer takes more than five bytes. -/
theorem uvarint_le (buf : Bytes) : (uvarint buf).2 ≤ 5 := by
  rw [uvarint_eq]
  split
  · simp
  · split
    · rename_i fits
      simp only
      omega
    · simp only
      omega

theorem uvarintValue_append {buf : Bytes} {value width : ℕ}
    (found : uvarintValue buf = some (value, width)) (more : Bytes) :
    uvarintValue (buf ++ more) = some (value, width) := by
  induction buf generalizing value width with
  | nil => simp [uvarintValue] at found
  | cons byte rest ih =>
      simp only [List.cons_append, uvarintValue] at found ⊢
      split
      · rename_i final
        rwa [if_pos final] at found
      · rename_i further
        rw [if_neg further] at found
        rcases Option.map_eq_some_iff.mp found with ⟨⟨high, most⟩, tail, same⟩
        rw [ih tail, Option.map_some, same]

/-- Bytes that end before the last group of an encoding. -/
theorem uvarint_of_cut {value : ℕ} (fits : value < 2 ^ 64) {front back : Bytes}
    (whole : front ++ back = putUvarint value) (more : back ≠ []) : uvarint front = (0, 0) := by
  rw [uvarint_eq]
  cases found : uvarintValue front with
  | none => rfl
  | some pair =>
      exfalso
      rcases pair with ⟨early, width⟩
      have within := (uvarintValue_pos found).2
      have encoded := uvarintValue_putUvarint fits []
      rw [List.append_nil, ← whole, uvarintValue_append found back] at encoded
      simp only [Option.some.injEq, Prod.mk.injEq, List.length_append] at encoded
      have := List.length_pos_iff.mpr more
      omega

/-- What `uvarint` and `uvarintCalc` are to do: read back the encoding of a number in front of other
bytes, report that an encoding is cut off, and report an overflow only at the encoding of a number
of more than 32 bits. -/
structure UvarintCodec (x : UInt32) (rest buf : Bytes) : Prop where
  width : uvarintCalc x = (putUvarint x.toNat).length
  reads : uvarint (putUvarint x.toNat ++ rest) = (x, (uvarintCalc x : Int))
  cut : ∀ (v : UInt64) (front back : Bytes), front ++ back = putUvarint v.toNat → back ≠ [] →
    uvarint front = (0, 0)
  overflow : (uvarint buf).2 < 0 →
    ∃ value width, uvarintValue buf = some (value, width) ∧ 2 ^ 32 ≤ value

/-- The bytes start with an encoding of a number of 32 bits that is too large for the guard of
`uvarint`, or has more groups than it reads. -/
def Overlong (buf : Bytes) : Prop :=
  ∃ value width, uvarintValue buf = some (value, width) ∧ value < 2 ^ 32 ∧
    (2 ^ 29 ≤ value ∨ 5 < width)

theorem overflow_iff (buf : Bytes) :
    ((uvarint buf).2 < 0 → ∃ value width, uvarintValue buf = some (value, width) ∧ 2 ^ 32 ≤ value) ↔
      ¬Overlong buf := by
  unfold Overlong
  rw [uvarint_eq]
  cases found : uvarintValue buf with
  | none => simp
  | some pair =>
      rcases pair with ⟨value, width⟩
      have positive := (uvarintValue_pos found).1
      simp only [Option.some.injEq, Prod.mk.injEq]
      constructor
      · rintro large ⟨_, _, ⟨rfl, rfl⟩, small, refused⟩
        rw [if_neg (by omega)] at large
        rcases large (by simp only; omega) with ⟨_, _, ⟨rfl, rfl⟩, big⟩
        omega
      · intro accepted negative
        refine ⟨value, width, ⟨rfl, rfl⟩, ?_⟩
        by_contra small
        rw [if_pos] at negative
        · simp only at negative
          omega
        · by_contra refused
          exact accepted ⟨value, width, ⟨rfl, rfl⟩, by omega, by omega⟩

/-- The codec is right below `2 ^ 29`: the guard on the fifth byte lets only one of its four bits
through. -/
theorem uvarintCodec_iff (x : UInt32) (rest buf : Bytes) :
    UvarintCodec x rest buf ↔ x.toNat < 2 ^ 29 ∧ ¬Overlong buf := by
  constructor
  · intro codec
    refine ⟨?_, (overflow_iff buf).mp codec.overflow⟩
    by_contra large
    have read := codec.reads
    rw [uvarint_putUvarint_of_le (by omega) x.toNat_lt, Prod.mk.injEq] at read
    omega
  · rintro ⟨small, accepted⟩
    refine ⟨uvarintCalc_eq_length x, ?_, ?_, (overflow_iff buf).mpr accepted⟩
    · rw [uvarint_putUvarint small, UInt32.ofNat_toNat, uvarintCalc_eq_length]
    · exact fun v front back whole more => uvarint_of_cut v.toNat_lt whole more

/-- `1 << 29` is written as five bytes, which `uvarint` takes for an overflow. -/
theorem uvarintCodec_refuses :
    ¬UvarintCodec 536870912 [] [0x80, 0x80, 0x80, 0x80, 0x02] ∧
      putUvarint 536870912 = [0x80, 0x80, 0x80, 0x80, 0x02] ∧
      uvarint [0x80, 0x80, 0x80, 0x80, 0x02] = (0, -5) := by
  refine ⟨?_, by decide, by decide⟩
  intro codec
  have read := codec.reads
  revert read
  decide

/-- The variable-length integer at the start of the bytes takes no more of them than necessary. -/
def Minimal (buf : Bytes) : Prop := (uvarint buf).2 = uvarintCalc (uvarint buf).1

instance (buf : Bytes) : Decidable (Minimal buf) := inferInstanceAs (Decidable (_ = _))

/-- `packet.ReadLPBytes`: the field and the number of bytes it takes. -/
def readLPBytes (buf : Bytes) : Except (Fault PacketError) (Bytes × ℕ) :=
  match buf with
  | high :: low :: body =>
      let n := (uint16 high low).toNat
      if body.length < n then .error (.error .ErrInsufficientDataSize)
      else .ok (body.take n, 2 + n)
  | _ => .error (.error .ErrInsufficientDataSize)

/-- The bytes of a length-prefixed field. -/
def lpBytes (field : Bytes) : Bytes := putUint16 (UInt16.ofNat field.length) ++ field

def writeLPBytes (field : Bytes) : Writer PacketError := fun dest =>
  if MaxLPString < field.length then .error (.error .ErrInvalidLPStringSize)
  else if dest.length < 2 + field.length then .error (.error .ErrInsufficientBufferSize)
  else .ok (lpBytes field ++ dest.drop (2 + field.length), 2 + field.length)

@[simp]
theorem length_lpBytes (field : Bytes) : (lpBytes field).length = 2 + field.length := by
  simp [lpBytes]

theorem emits_writeLPBytes {good : Bytes → Prop} {field : Bytes}
    (fits : field.length ≤ MaxLPString) : Emits good (writeLPBytes field) (lpBytes field) := by
  intro dest _ enough
  rw [length_lpBytes] at enough
  simp [writeLPBytes, Nat.not_lt.mpr fits, Nat.not_lt.mpr enough]

theorem readLPBytes_lpBytes {field : Bytes} (fits : field.length ≤ MaxLPString) (rest : Bytes) :
    readLPBytes (lpBytes field ++ rest) = .ok (field, 2 + field.length) := by
  have bound : field.length < 65536 := by
    unfold MaxLPString at fits
    omega
  have prefixed : (UInt16.ofNat field.length).toNat = field.length := by
    rw [UInt16.toNat_ofNat']
    exact Nat.mod_eq_of_lt bound
  have read := uint16_putUint16 (UInt16.ofNat field.length)
  rw [prefixed] at read
  simp only [lpBytes, putUint16, List.cons_append, List.nil_append, readLPBytes, prefixed, read]
  simp

/-- What was read was there: the field is the content of its own encoding. -/
theorem readLPBytes_eq_ok {buf field : Bytes} {n : ℕ} (read : readLPBytes buf = .ok (field, n)) :
    field.length ≤ MaxLPString ∧ n = 2 + field.length ∧ n ≤ buf.length := by
  rcases buf with _ | ⟨high, _ | ⟨low, body⟩⟩
  · simp [readLPBytes] at read
  · simp [readLPBytes] at read
  · simp only [readLPBytes] at read
    have bound := (uint16 high low).toNat_lt
    split at read
    · simp at read
    · simp only [Except.ok.injEq, Prod.mk.injEq] at read
      rcases read with ⟨rfl, rfl⟩
      simp only [List.length_take, List.length_cons, MaxLPString]
      omega

/-- A field that was read is there as it would be written. -/
theorem take_of_readLPBytes {src field : Bytes} {n : ℕ} (read : readLPBytes src = .ok (field, n)) :
    src.take n = lpBytes field := by
  rcases src with _ | ⟨high, _ | ⟨low, body⟩⟩
  · simp [readLPBytes] at read
  · simp [readLPBytes] at read
  · simp only [readLPBytes] at read
    split at read
    · simp at read
    · rename_i enough
      simp only [Except.ok.injEq, Prod.mk.injEq] at read
      rcases read with ⟨rfl, rfl⟩
      rw [lpBytes, List.length_take, Nat.min_eq_left (by omega), UInt16.ofNat_toNat,
        putUint16_uint16, Nat.add_comm]
      rfl

end VolantMQ.Packet
