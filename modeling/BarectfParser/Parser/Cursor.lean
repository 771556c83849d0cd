import BarectfParser.Types

/-!
# Sizes, field descriptors and the aligned cursor

`Size`, `FieldDesc` and `AlignedCursor` (`src/parser/types.rs`). The cursor's bit index is a
`Nat`; `AlignedCursor.alignTo` computes `(bit_index + (align_bits - 1)) & (!align_bits + 1)` with
`!x = 2^64 - 1 - x`, the `usize` complement, and agrees with the `usize` computation whenever
`bit_index + (align_bits - 1)` fits in 64 bits (`alignTo_usize`).

* `alignTo_bitIndex`: below that bound the new index is the least multiple of the alignment at
  or above the old one (`alignUp`, `alignUp_spec`); `alignTo_usize`: it is the `usize` value.
* `alignTo_padding_mod_eight`: from a byte boundary, the padding is whole bytes at any index.
* `le_alignTo`, `le_alignedIncrement`: the cursor never moves back, and a field moves it on.
-/

namespace BarectfParser

/-! ## Sizes and field descriptors -/

inductive Size
  | bits8
  | bits16
  | bits32
  | bits64
deriving DecidableEq, Repr

def Size.fromBits : Nat → Option Size
  | 8 => some .bits8
  | 16 => some .bits16
  | 32 => some .bits32
  | 64 => some .bits64
  | _ => none

def Size.bits : Size → Nat
  | .bits8 => 8
  | .bits16 => 16
  | .bits32 => 32
  | .bits64 => 64

structure FieldDesc where
  size : Size
  alignment : Size
deriving DecidableEq, Repr

def FieldDesc.fromFt {α : Type} [FieldType α] (ft : α) : Except FieldUnsupportedError FieldDesc :=
  match Size.fromBits (FieldType.size ft), Size.fromBits (FieldType.alignment ft) with
  | some size, some alignment => .ok ⟨size, alignment⟩
  | _, _ => .error ⟨FieldType.size ft, FieldType.alignment ft⟩

@[simp] theorem Size.bits_fromBits {n : Nat} {s : Size} (h : Size.fromBits n = some s) :
    s.bits = n := by
  unfold Size.fromBits at h; split at h <;> cases h <;> rfl

theorem Size.bits_pos (s : Size) : 8 ≤ s.bits ∧ s.bits ≤ 64 ∧ s.bits % 8 = 0 := by
  cases s <;> decide

theorem FieldDesc.fromFt_ok {α : Type} [FieldType α] {ft : α} {d : FieldDesc}
    (h : FieldDesc.fromFt ft = .ok d) :
    d.size.bits = FieldType.size ft ∧ d.alignment.bits = FieldType.alignment ft := by
  unfold FieldDesc.fromFt at h
  split at h
  · cases h; exact ⟨Size.bits_fromBits ‹_›, Size.bits_fromBits ‹_›⟩
  · cases h

/-! ## The cursor -/

@[ext] structure AlignedCursor where
  bitIndex : Nat
deriving DecidableEq, Repr

instance : Inhabited AlignedCursor := ⟨⟨0⟩⟩

@[simp] theorem AlignedCursor.default_bitIndex : (default : AlignedCursor).bitIndex = 0 := rfl

def AlignedCursor.cursorBits (c : AlignedCursor) : Nat := c.bitIndex

def AlignedCursor.cursorBytes (c : AlignedCursor) : Nat := c.bitIndex >>> 3

/-- `!x` on a `usize`. -/
def usizeNot (x : Nat) : Nat := 2 ^ 64 - 1 - x

/-- Moves to the next multiple of `align`; returns the padding (bits). -/
def AlignedCursor.alignTo (c : AlignedCursor) (align : Size) : Nat × AlignedCursor :=
  let alignBits := align.bits
  let nextIndex := (c.bitIndex + (alignBits - 1)) &&& (usizeNot alignBits + 1)
  let padding := nextIndex - c.bitIndex
  (padding, ⟨c.bitIndex + padding⟩)

def AlignedCursor.increment (c : AlignedCursor) (size : Size) : AlignedCursor :=
  ⟨c.bitIndex + size.bits⟩

def AlignedCursor.alignedIncrement (c : AlignedCursor) (desc : FieldDesc) : AlignedCursor :=
  (c.alignTo desc.alignment).2.increment desc.size

@[simp] theorem AlignedCursor.increment_bitIndex (c : AlignedCursor) (s : Size) :
    (c.increment s).bitIndex = c.bitIndex + s.bits := rfl

theorem AlignedCursor.alignTo_bitIndex_eq (c : AlignedCursor) (a : Size) :
    (c.alignTo a).2.bitIndex = c.bitIndex + (c.alignTo a).1 := rfl

/-- The padding is a truncated difference: aligning never moves the cursor back. -/
theorem AlignedCursor.le_alignTo (c : AlignedCursor) (a : Size) :
    c.bitIndex ≤ (c.alignTo a).2.bitIndex :=
  c.alignTo_bitIndex_eq a ▸ Nat.le_add_right _ _

theorem AlignedCursor.le_alignedIncrement (c : AlignedCursor) (d : FieldDesc) :
    c.bitIndex + 8 ≤ (c.alignedIncrement d).bitIndex := by
  have := c.le_alignTo d.alignment
  have := d.size.bits_pos.1
  simp only [AlignedCursor.alignedIncrement, AlignedCursor.increment_bitIndex]
  omega

/-! ## Alignment arithmetic -/

/-- The least multiple of `a` at or above `i`. -/
def alignUp (i a : Nat) : Nat := (i + (a - 1)) / a * a

/-- Clearing the low `k` bits of a 64-bit value with the mask `2^64 - 2^k`. -/
theorem and_two_pow_sub_two_pow {x k : Nat} (hk : k ≤ 64) (hx : x < 2 ^ 64) :
    x &&& (2 ^ 64 - 2 ^ k) = x / 2 ^ k * 2 ^ k := by
  have hm : 2 ^ 64 - 2 ^ k = (2 ^ (64 - k) - 1) <<< k := by
    rw [Nat.shiftLeft_eq, Nat.sub_mul, Nat.one_mul, ← Nat.pow_add, Nat.sub_add_cancel hk]
  rw [hm, ← Nat.shiftRight_eq_div_pow, ← Nat.shiftLeft_eq]
  apply Nat.eq_of_testBit_eq
  intro j
  simp only [Nat.testBit_and, Nat.testBit_shiftLeft, Nat.testBit_two_pow_sub_one,
    Nat.testBit_shiftRight]
  by_cases hj : k ≤ j
  · rw [Nat.add_sub_cancel' hj]
    by_cases hj' : j < 64
    · simp [hj, show j - k < 64 - k by omega]
    · rw [Nat.testBit_lt_two_pow
        (Nat.lt_of_lt_of_le hx (Nat.pow_le_pow_right (by decide) (by omega)))]
      simp
  · simp [hj]

theorem Size.bits_eq_two_pow (a : Size) : ∃ k, k ≤ 64 ∧ a.bits = 2 ^ k := by
  cases a
  exacts [⟨3, by decide, rfl⟩, ⟨4, by decide, rfl⟩, ⟨5, by decide, rfl⟩, ⟨6, by decide, rfl⟩]

/-- The mask `!align_bits + 1` of each alignment. -/
theorem usizeNot_add_one (a : Size) : usizeNot a.bits + 1 = 2 ^ 64 - a.bits := by
  unfold usizeNot; cases a <;> decide

theorem alignTo_nextIndex (c : AlignedCursor) (a : Size) (h : c.bitIndex + (a.bits - 1) < 2 ^ 64) :
    (c.bitIndex + (a.bits - 1)) &&& (usizeNot a.bits + 1) = alignUp c.bitIndex a.bits := by
  obtain ⟨k, hk, ha⟩ := a.bits_eq_two_pow
  rw [usizeNot_add_one, alignUp, ha]
  exact and_two_pow_sub_two_pow hk (ha ▸ h)

/-- `alignUp i a` is a multiple of `a`, at least `i`, below every other such multiple, and less
than `a` above `i`. -/
theorem alignUp_spec (i : Nat) (a : Size) :
    a.bits ∣ alignUp i a.bits ∧ i ≤ alignUp i a.bits ∧
      (∀ m, a.bits ∣ m → i ≤ m → alignUp i a.bits ≤ m) ∧ alignUp i a.bits < i + a.bits := by
  refine ⟨Nat.dvd_mul_left _ _, ?_, fun m ⟨q, hq⟩ hm => ?_, ?_⟩ <;> unfold alignUp <;>
    cases a <;> simp only [Size.bits] at * <;> omega

/-- Below the `usize` bound the cursor moves to `alignUp`. -/
theorem alignTo_bitIndex (c : AlignedCursor) (a : Size) (h : c.bitIndex + (a.bits - 1) < 2 ^ 64) :
    (c.alignTo a).2.bitIndex = alignUp c.bitIndex a.bits := by
  have hn := alignTo_nextIndex c a h
  simp only [AlignedCursor.alignTo, hn]
  have := (alignUp_spec c.bitIndex a).2.1
  omega

/-- The mask has no bit below 8, so neither has the masked index. -/
theorem and_usizeNot_mod_eight (x : Nat) (a : Size) : (x &&& (usizeNot a.bits + 1)) % 8 = 0 := by
  obtain ⟨k, hk, ha⟩ := a.bits_eq_two_pow
  have h3 : 3 ≤ k := by
    have := a.bits_pos.1
    rw [ha] at this
    by_contra hk3
    have : 2 ^ k ≤ 2 ^ 2 := Nat.pow_le_pow_right (by decide) (by omega)
    omega
  rw [usizeNot_add_one, ha, show 2 ^ 64 - 2 ^ k = (2 ^ (64 - k) - 1) <<< k by
    rw [Nat.shiftLeft_eq, Nat.sub_mul, Nat.one_mul, ← Nat.pow_add, Nat.sub_add_cancel hk],
    show (8 : Nat) = 2 ^ 3 from rfl]
  apply Nat.eq_of_testBit_eq
  intro j
  simp only [Nat.testBit_mod_two_pow, Nat.testBit_and, Nat.testBit_shiftLeft, Nat.zero_testBit]
  by_cases hj : j < 3
  · simp [show ¬ j ≥ k by omega]
  · simp [hj]

/-- From a byte boundary the padding is whole bytes, at every index. -/
theorem alignTo_padding_mod_eight (c : AlignedCursor) (a : Size) (h : c.bitIndex % 8 = 0) :
    (c.alignTo a).1 % 8 = 0 := by
  have := and_usizeNot_mod_eight (c.bitIndex + (a.bits - 1)) a
  simp only [AlignedCursor.alignTo]
  omega

/-- `align_to` leaves a cursor that is already aligned where it is, and so does it one whose
index is too close to the top of `usize` for the sum to fit (the mask then falls below it). -/
theorem alignTo_eq_self (c : AlignedCursor) (a : Size)
    (h : a.bits ∣ c.bitIndex ∨ 2 ^ 64 ≤ c.bitIndex + (a.bits - 1)) : c.alignTo a = (0, c) := by
  have hb := a.bits_pos
  by_cases hfit : c.bitIndex + (a.bits - 1) < 2 ^ 64
  · have hx := alignTo_nextIndex c a hfit
    have hd : a.bits ∣ c.bitIndex := h.resolve_right (by omega)
    have hup : alignUp c.bitIndex a.bits = c.bitIndex := by
      have := (alignUp_spec c.bitIndex a).2.2.1 c.bitIndex hd le_rfl
      have := (alignUp_spec c.bitIndex a).2.1
      omega
    simp only [AlignedCursor.alignTo, hx, hup, Nat.sub_self, Nat.add_zero]
  · have hle : (c.bitIndex + (a.bits - 1)) &&& (2 ^ 64 - a.bits) ≤ 2 ^ 64 - a.bits :=
      Nat.and_le_right
    have h0 : ((c.bitIndex + (a.bits - 1)) &&& (2 ^ 64 - a.bits)) - c.bitIndex = 0 := by omega
    simp only [AlignedCursor.alignTo, usizeNot_add_one, h0, Nat.add_zero]

/-- Aligning twice is aligning once. -/
theorem alignTo_alignTo (c : AlignedCursor) (a : Size) :
    (c.alignTo a).2.alignTo a = (0, (c.alignTo a).2) := by
  apply alignTo_eq_self
  by_cases hfit : c.bitIndex + (a.bits - 1) < 2 ^ 64
  · exact .inl (alignTo_bitIndex c a hfit ▸ (alignUp_spec c.bitIndex a).1)
  · refine .inr ?_
    have := c.alignTo_bitIndex_eq a
    omega

/-- `align_to` is the `usize` computation `(i + (a - 1)) & (!a + 1)` whenever the sum fits. -/
theorem alignTo_usize (c : AlignedCursor) (a : Size) (h : c.bitIndex + (a.bits - 1) < 2 ^ 64) :
    (BitVec.ofNat 64 c.bitIndex + BitVec.ofNat 64 (a.bits - 1)) &&&
        (~~~(BitVec.ofNat 64 a.bits) + 1#64) =
      BitVec.ofNat 64 (c.alignTo a).2.bitIndex := by
  rw [alignTo_bitIndex c a h, ← alignTo_nextIndex c a h]
  apply BitVec.eq_of_toNat_eq
  have := a.bits_pos
  simp only [BitVec.toNat_and, BitVec.toNat_add, BitVec.toNat_not, BitVec.toNat_ofNat,
    usizeNot]
  rw [Nat.mod_eq_of_lt (show c.bitIndex < 2 ^ 64 by omega),
    Nat.mod_eq_of_lt (show a.bits - 1 < 2 ^ 64 by omega), Nat.mod_eq_of_lt h,
    Nat.mod_eq_of_lt (show a.bits < 2 ^ 64 by omega),
    Nat.mod_eq_of_lt (show 1 < 2 ^ 64 by decide),
    Nat.mod_eq_of_lt (show 2 ^ 64 - 1 - a.bits + 1 < 2 ^ 64 by omega)]
  exact (Nat.mod_eq_of_lt (Nat.lt_of_le_of_lt Nat.and_le_left h)).symm

end BarectfParser
