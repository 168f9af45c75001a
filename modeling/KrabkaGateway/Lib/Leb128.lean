import Mathlib.Data.Nat.Bitwise
import Mathlib.Tactic.Ring

/-!
# LEB128 numbers

A number is written in groups of seven bits, the lowest group first, and every byte
but the last one has its top bit set. The usual reader shifts the groups into 64 bits:
it takes up to ten bytes and keeps the number modulo 2^64.
-/

namespace Lib.Leb128

inductive Number : List UInt8 → Nat → Prop where
  | last {byte : UInt8} (final : byte.toNat < 128) : Number [byte] byte.toNat
  | more {byte : UInt8} {bytes : List UInt8} {value : Nat} (continues : 128 ≤ byte.toNat)
      (rest : Number bytes value) : Number (byte :: bytes) (byte.toNat - 128 + 128 * value)

def encode (value : Nat) : List UInt8 :=
  if value < 128 then [value.toUInt8]
  else (value % 128 + 128).toUInt8 :: encode (value / 128)

inductive Fault where
  | truncated
  | overflow
  deriving DecidableEq, Repr

/-- The loop of a reader, which returns the bytes behind the number. -/
def scan : List UInt8 → Nat → Nat → Except Fault (Nat × List UInt8)
  | [], _, _ => .error .truncated
  | byte :: rest, result, shift =>
    -- Bits that are shifted out of the 64 are lost.
    let result := result ||| ((byte.toNat &&& 0x7f) <<< shift) % 2 ^ 64
    if byte.toNat &&& 0x80 = 0 then .ok (result, rest)
    else if 64 ≤ shift + 7 then .error .overflow
    else scan rest result (shift + 7)

/-! ## Numbers -/

variable {bytes : List UInt8} {value : Nat}

theorem Number.ne_nil (number : Number bytes value) : bytes ≠ [] := by
  cases number <;> exact List.cons_ne_nil _ _

theorem Number.lt_pow (number : Number bytes value) : value < 2 ^ (7 * bytes.length) := by
  induction number with
  | last final => exact final
  | @more byte bytes value continues _ ih =>
    have bound := byte.toNat_lt
    have wide : 2 ^ (7 * (byte :: bytes).length) = 128 * 2 ^ (7 * bytes.length) := by
      rw [List.length_cons]
      ring
    omega

/-- Where a number ends is known from its bytes. -/
theorem Number.unique {first second rest behind : List UInt8} {other : Nat}
    (number : Number first value) (another : Number second other)
    (same : first ++ rest = second ++ behind) : first = second ∧ value = other ∧ rest = behind := by
  induction number generalizing second other with
  | last final =>
    cases another with
    | last _ =>
      cases same
      exact ⟨rfl, rfl, rfl⟩
    | more continues _ =>
      cases same
      omega
  | more continues _ ih =>
    cases another with
    | last final =>
      cases same
      omega
    | more _ later =>
      rw [List.cons_append, List.cons_append, List.cons.injEq] at same
      obtain ⟨rfl, tails⟩ := same
      obtain ⟨rfl, rfl, rfl⟩ := ih later tails
      exact ⟨rfl, rfl, rfl⟩

theorem encode_of_lt (small : value < 128) : encode value = [value.toUInt8] := by
  rw [encode, if_pos small]

theorem encode_ne_nil (value : Nat) : encode value ≠ [] := by
  rw [encode]
  split <;> exact List.cons_ne_nil _ _

theorem number_encode (value : Nat) : Number (encode value) value := by
  induction value using encode.induct with
  | case1 value small =>
    have written : value.toUInt8.toNat = value := by
      rw [UInt8.toNat_ofNat', Nat.mod_eq_of_lt (by omega)]
    rw [encode, if_pos small]
    have number := Number.last (written.symm ▸ small)
    rwa [written] at number
  | case2 value large ih =>
    have written : (value % 128 + 128).toUInt8.toNat = value % 128 + 128 := by
      rw [UInt8.toNat_ofNat', Nat.mod_eq_of_lt (by omega)]
    rw [encode, if_neg large]
    have number := Number.more (by rw [written]; omega) ih
    rwa [written, Nat.add_sub_cancel, Nat.mod_add_div] at number

theorem length_encode_le {count : Nat} (bound : value < 2 ^ (7 * (count + 1))) :
    (encode value).length ≤ count + 1 := by
  induction count generalizing value with
  | zero =>
    rw [encode, if_pos (by simpa using bound)]
    exact Nat.le_refl _
  | succ count ih =>
    rw [encode]
    split
    · exact Nat.le_add_left _ _
    · refine Nat.succ_le_succ (ih ?_)
      have wide : 2 ^ (7 * (count + 1 + 1)) = 128 * 2 ^ (7 * (count + 1)) := by ring
      omega

/-! ## The reader -/

theorem and_low (byte : Nat) : byte &&& 0x7f = byte % 128 :=
  Nat.and_two_pow_sub_one_eq_mod byte 7

theorem and_top {byte : UInt8} : byte.toNat &&& 0x80 = 0 ↔ byte.toNat < 128 := by
  have bound := byte.toNat_lt
  rw [show (0x80 : Nat) = 2 ^ 7 from rfl, Nat.and_two_pow]
  by_cases small : byte.toNat < 128
  · rw [Nat.testBit_lt_two_pow small]
    simpa using small
  · have whole : byte.toNat = 2 ^ 7 + (byte.toNat - 128) := by omega
    have low : byte.toNat - 128 < 2 ^ 7 := by omega
    rw [whole, Nat.testBit_two_pow_add_eq, Nat.testBit_lt_two_pow low]
    simp

variable {result : Nat}

theorem or_group {shift : Nat} (group : Nat) (below : result < 2 ^ shift) (small : shift < 64) :
    result ||| group <<< shift % 2 ^ 64 = (result + group * 2 ^ shift) % 2 ^ 64 := by
  have whole : 2 ^ 64 = 2 ^ (64 - shift) * 2 ^ shift := by
    rw [← Nat.pow_add, Nat.sub_add_cancel small.le]
  have kept : group <<< shift % 2 ^ 64 = (group % 2 ^ (64 - shift)) <<< shift := by
    rw [Nat.shiftLeft_eq, Nat.shiftLeft_eq, whole, Nat.mul_mod_mul_right]
  have least : group % 2 ^ (64 - shift) + 1 ≤ 2 ^ (64 - shift) := Nat.mod_lt _ (Nat.two_pow_pos _)
  have fits : result + (group % 2 ^ (64 - shift)) * 2 ^ shift < 2 ^ 64 := by
    calc result + (group % 2 ^ (64 - shift)) * 2 ^ shift
        < 2 ^ shift + (group % 2 ^ (64 - shift)) * 2 ^ shift := Nat.add_lt_add_right below _
      _ = (group % 2 ^ (64 - shift) + 1) * 2 ^ shift := by ring
      _ ≤ 2 ^ (64 - shift) * 2 ^ shift := Nat.mul_le_mul_right _ least
      _ = 2 ^ 64 := whole.symm
  have added : result ||| (group % 2 ^ (64 - shift)) <<< shift =
      result + (group % 2 ^ (64 - shift)) * 2 ^ shift := by
    rw [Nat.or_comm, ← Nat.shiftLeft_add_eq_or_of_lt below, Nat.shiftLeft_eq, Nat.add_comm]
  rw [kept, added, ← Nat.mod_eq_of_lt fits, ← Nat.shiftLeft_eq, ← kept, Nat.shiftLeft_eq,
    Nat.add_mod_mod]

theorem group_fits {shift group : Nat} (below : result < 2 ^ shift) (small : group < 128) :
    result + group * 2 ^ shift < 2 ^ (shift + 7) := by
  have : group * 2 ^ shift ≤ 127 * 2 ^ shift := Nat.mul_le_mul_right _ (by omega)
  have : 2 ^ (shift + 7) = 128 * 2 ^ shift := by ring
  omega

theorem scan_eq_ok_iff {rest : List UInt8} {turn : Nat} (few : turn < 10)
    (below : result < 2 ^ (7 * turn)) :
    scan bytes result (7 * turn) = .ok (value, rest) ↔
      ∃ digits number, bytes = digits ++ rest ∧ Number digits number ∧
        digits.length + turn ≤ 10 ∧ value = (result + number * 2 ^ (7 * turn)) % 2 ^ 64 := by
  induction bytes generalizing turn result with
  | nil =>
    constructor
    · nofun
    · rintro ⟨digits, number, empty, read, _⟩
      exact absurd (List.append_eq_nil_iff.mp empty.symm).1 read.ne_nil
  | cons byte bytes ih =>
    have added := or_group (byte.toNat % 128) below (by omega)
    have group : byte.toNat % 128 < 128 := Nat.mod_lt _ (by decide)
    rw [scan, and_low, added]
    by_cases final : byte.toNat < 128
    · rw [if_pos (and_top.mpr final), Nat.mod_eq_of_lt final]
      constructor
      · intro read
        cases read
        exact ⟨[byte], _, rfl, .last final, by rw [List.length_singleton]; omega, rfl⟩
      · rintro ⟨digits, number, split, read, _, rfl⟩
        obtain ⟨rfl, rfl, rfl⟩ := (Number.last final).unique read
          (show [byte] ++ bytes = digits ++ rest from split)
        rfl
    · rw [if_neg (mt and_top.mp final)]
      have continues : 128 ≤ byte.toNat := Nat.not_lt.mp final
      have low : byte.toNat % 128 = byte.toNat - 128 := by
        have := byte.toNat_lt
        omega
      by_cases full : 64 ≤ 7 * turn + 7
      · rw [if_pos full]
        constructor
        · nofun
        · rintro ⟨digits, number, split, read, short, _⟩
          cases read with
          | last small =>
            cases split
            exact absurd small final
          | more _ later =>
            have := List.length_pos_iff.mpr later.ne_nil
            rw [List.length_cons] at short
            omega
      · have fits := group_fits below group
        have grows : 2 ^ (7 * turn + 7) ≤ 2 ^ 64 := Nat.pow_le_pow_right (by decide) (by omega)
        rw [if_neg full, Nat.mod_eq_of_lt (by omega), show 7 * turn + 7 = 7 * (turn + 1) by ring]
        rw [show 7 * turn + 7 = 7 * (turn + 1) by ring] at fits
        rw [ih (by omega) fits]
        have sum (number : Nat) :
            byte.toNat % 128 * 2 ^ (7 * turn) + number * 2 ^ (7 * (turn + 1)) =
            (byte.toNat - 128 + 128 * number) * 2 ^ (7 * turn) := by
          rw [low]
          ring
        constructor
        · rintro ⟨digits, number, rfl, read, short, rfl⟩
          refine ⟨byte :: digits, _, rfl, .more continues read, ?_, ?_⟩
          · rw [List.length_cons]
            omega
          · rw [Nat.add_assoc, sum]
        · rintro ⟨digits, number, split, read, short, rfl⟩
          cases read with
          | last small =>
            cases split
            exact absurd small final
          | @more _ digits number _ later =>
            cases split
            refine ⟨digits, number, rfl, later, ?_, ?_⟩
            · rw [List.length_cons] at short
              omega
            · rw [Nat.add_assoc, sum]

theorem scan_start_eq_ok_iff {rest : List UInt8} :
    scan bytes 0 0 = .ok (value, rest) ↔
      ∃ digits number, bytes = digits ++ rest ∧ Number digits number ∧
        digits.length ≤ 10 ∧ value = number % 2 ^ 64 := by
  have whole : scan bytes 0 (7 * 0) = .ok (value, rest) ↔ _ :=
    scan_eq_ok_iff (by decide) (by decide)
  simpa using whole

theorem scan_encode (bound : value < 2 ^ 64) (rest : List UInt8) :
    scan (encode value ++ rest) 0 0 = .ok (value, rest) := by
  refine scan_start_eq_ok_iff.mpr ⟨encode value, value, rfl, number_encode value, ?_, ?_⟩
  · exact length_encode_le (bound.trans (by decide))
  · exact (Nat.mod_eq_of_lt bound).symm

end Lib.Leb128
