/-
  SelectiveRepeat.Lib.Crc32

  The CRC-32 of zlib (reflected, polynomial 0xEDB88320), bit by bit.  The division
  loses nothing: the highest bit of the polynomial says whether it was taken, so
  a byte that differs leaves two states apart to the end.
-/
import SelectiveRepeat.Lib.Bytes

namespace SelectiveRepeat.Crc32

/-- One bit of the reflected division. -/
def shiftBit (crc : UInt32) : UInt32 :=
  if crc &&& 1 = 1 then (crc >>> 1) ^^^ 0xEDB88320 else crc >>> 1

/-- One byte: eight bits. -/
def update (crc : UInt32) (b : UInt8) : UInt32 :=
  Nat.repeat shiftBit 8 (crc ^^^ b.toUInt32)

/-- `crc32(crc, bs, length of bs)` -/
def crc32 (crc : UInt32) (bs : Bytes) : UInt32 :=
  bs.foldl update (crc ^^^ 0xFFFFFFFF) ^^^ 0xFFFFFFFF

/-- The check value of CRC-32: the digits "123456789". -/
example : crc32 0 [0x31, 0x32, 0x33, 0x34, 0x35, 0x36, 0x37, 0x38, 0x39] = 0xCBF43926 := by
  decide +kernel

/-! ## One byte apart -/

theorem and_one_iff (crc : UInt32) : crc &&& 1 = 1 ↔ crc.toBitVec.getLsbD 0 = true := by
  have h : (crc &&& 1).toBitVec =
      BitVec.setWidth 32 (BitVec.ofBool (crc.toBitVec.getLsbD 0)) := by
    rw [UInt32.toBitVec_and]
    exact BitVec.and_one_eq_setWidth_ofBool_getLsbD
  rw [← UInt32.toBitVec_inj, h]
  cases crc.toBitVec.getLsbD 0 <;> decide

/-- Every bit moves down one place, and the lowest one decides about the polynomial. -/
theorem shiftBit_getLsbD (crc : UInt32) (i : Nat) :
    (shiftBit crc).toBitVec.getLsbD i =
      (crc.toBitVec.getLsbD (i + 1) ^^
        (crc.toBitVec.getLsbD 0 && (0xEDB88320#32).getLsbD i)) := by
  simp only [shiftBit, and_one_iff]
  cases h : crc.toBitVec.getLsbD 0 <;> simp [Nat.add_comm 1 i]

theorem shiftBit_injective : Function.Injective shiftBit := by
  intro a b h
  have hbit (i : Nat) := congrArg (fun crc => crc.toBitVec.getLsbD i) h
  simp only [shiftBit_getLsbD] at hbit
  -- nothing else reaches bit 31
  have h0 : a.toBitVec.getLsbD 0 = b.toBitVec.getLsbD 0 := by
    have h31 := hbit 31
    rw [BitVec.getLsbD_of_ge a.toBitVec _ (by omega),
      BitVec.getLsbD_of_ge b.toBitVec _ (by omega)] at h31
    simpa using h31
  apply UInt32.toBitVec_inj.mp
  apply BitVec.eq_of_getLsbD_eq
  intro i _
  cases i with
  | zero => exact h0
  | succ i =>
      have hi := hbit i
      rw [h0] at hi
      simpa using hi

theorem repeat_injective {α : Type} {f : α → α} (h : Function.Injective f) (n : Nat) :
    Function.Injective (Nat.repeat f n) := by
  induction n with
  | zero => exact Function.injective_id
  | succ n ih => exact h.comp ih

theorem foldl_injective {α β : Type} {f : α → β → α} (h : ∀ b, Function.Injective (f · b))
    (l : List β) : Function.Injective (l.foldl f) := by
  induction l with
  | nil => exact Function.injective_id
  | cons b l ih => exact ih.comp (h b)

theorem update_injective (b : UInt8) : Function.Injective (update · b) := by
  intro crc crc' h
  exact (UInt32.xor_left_inj _).mp (repeat_injective shiftBit_injective 8 h)

theorem update_byte_injective (crc : UInt32) : Function.Injective (update crc) := by
  intro b b' h
  have hxor := repeat_injective shiftBit_injective 8 h
  exact UInt8.toUInt32_inj.mp ((UInt32.xor_right_inj crc).mp hxor)

/-- Strings of one length that differ in exactly one byte have different CRCs. -/
theorem crc32_ne_of_apart (crc : UInt32) {bs bs' : Bytes} (h : OneByteApart bs bs') :
    crc32 crc bs ≠ crc32 crc bs' := by
  obtain ⟨front, x, y, back, hne, rfl, rfl⟩ := h
  intro hcrc
  have hfold := (UInt32.xor_left_inj _).mp hcrc
  simp only [List.foldl_append, List.foldl_cons] at hfold
  exact hne (update_byte_injective _ (foldl_injective update_injective back hfold))

end SelectiveRepeat.Crc32
