/-
  SelectiveRepeat.Lib.Bytes

  Byte buffers by offset.  A `Mem` gives every byte from a pointer on; `slice`
  reads a run of it and `blit` is `memcpy` into it.  Scalars are copied in the
  machine's own (little-endian) order, and the network-order swaps are
  involutions, so what one side stores the other side loads.
-/
import Mathlib.Logic.Function.Basic
import Mathlib.Data.List.Basic

namespace SelectiveRepeat

/-- A string of bytes. -/
abbrev Bytes := List UInt8

/-- The memory from a pointer on. -/
abbrev Mem := Nat → UInt8

namespace Mem

/-- The `n` bytes at offset `off`. -/
def slice (m : Mem) (off n : Nat) : Bytes :=
  (List.range n).map fun i => m (off + i)

/-- `memcpy(m + off, bs, length of bs)`. -/
def blit (m : Mem) (off : Nat) (bs : Bytes) : Mem := fun i =>
  if off ≤ i then bs[i - off]?.getD (m i) else m i

/-! ## Reading -/

@[simp] theorem slice_length (m : Mem) (off n : Nat) : (m.slice off n).length = n := by
  simp [slice]

@[simp] theorem slice_zero (m : Mem) (off : Nat) : m.slice off 0 = [] := rfl

@[simp] theorem getElem_slice (m : Mem) (off n i : Nat) (h : i < (m.slice off n).length) :
    (m.slice off n)[i] = m (off + i) := by
  simp [slice]

theorem slice_succ (m : Mem) (off n : Nat) :
    m.slice off (n + 1) = m off :: m.slice (off + 1) n := by
  apply List.ext_getElem
  · simp
  · intro i h1 h2
    cases i with
    | zero => simp
    | succ i => simp [Nat.add_assoc, Nat.add_comm 1 i]

theorem slice_add (m : Mem) (off a b : Nat) :
    m.slice off (a + b) = m.slice off a ++ m.slice (off + a) b := by
  induction a generalizing off with
  | zero => simp
  | succ a ih =>
      rw [show a + 1 + b = (a + b) + 1 by omega, slice_succ, slice_succ, ih,
        show off + 1 + a = off + (a + 1) by omega]
      rfl

/-- Two memories have the same slice exactly when they agree on its bytes. -/
theorem slice_eq_iff {m m' : Mem} {off off' n : Nat} :
    m.slice off n = m'.slice off' n ↔ ∀ i < n, m (off + i) = m' (off' + i) := by
  refine ⟨?_, ?_⟩
  · intro h i hi
    have hbyte := congrArg (·[i]?) h
    simpa [hi] using hbyte
  · intro h
    apply List.ext_getElem (by simp)
    intro i h1 h2
    simpa using h i (by simpa using h1)

/-- A slice that spells `bs ++ rest` splits into the two parts. -/
theorem slice_eq_append {m : Mem} {off n : Nat} {bs rest : Bytes} (h : m.slice off n = bs ++ rest) :
    m.slice off bs.length = bs ∧ m.slice (off + bs.length) (n - bs.length) = rest := by
  have hn : bs.length ≤ n := by
    have hlen := congrArg List.length h
    simp only [slice_length, List.length_append] at hlen
    omega
  rw [show n = bs.length + (n - bs.length) by omega, slice_add] at h
  exact List.append_inj h (by simp)

theorem slice_eq_cons {m : Mem} {off n : Nat} {b : UInt8} {rest : Bytes}
    (h : m.slice off n = b :: rest) : m off = b ∧ m.slice (off + 1) (n - 1) = rest := by
  have hs : m.slice off n = [b] ++ rest := h
  simpa [slice_succ] using slice_eq_append hs

/-! ## Writing -/

theorem blit_of_lt {m : Mem} {off i : Nat} {bs : Bytes} (h : i < off) : m.blit off bs i = m i := by
  simp [blit, Nat.not_le.mpr h]

theorem blit_at {m : Mem} {off i : Nat} {bs : Bytes} (h : i < bs.length) :
    m.blit off bs (off + i) = bs[i] := by
  simp [blit, h]

theorem blit_of_ge {m : Mem} {off i : Nat} {bs : Bytes} (h : off + bs.length ≤ i) :
    m.blit off bs i = m i := by
  simp [blit, show bs.length ≤ i - off by omega]

/-- What is copied to the start of a memory hides what was there. -/
theorem blit_start (m m' : Mem) {bs : Bytes} {i : Nat} (h : i < bs.length) :
    m.blit 0 bs i = m'.blit 0 bs i := by
  simp [blit, h]

@[simp] theorem blit_nil (m : Mem) (off : Nat) : m.blit off [] = m := by
  funext i
  simp [blit]

/-- What was copied is read back. -/
@[simp] theorem slice_blit (m : Mem) (off : Nat) (bs : Bytes) :
    (m.blit off bs).slice off bs.length = bs := by
  apply List.ext_getElem (by simp)
  intro i h1 h2
  simpa using blit_at h2

/-- What was copied from one memory to another is read there. -/
theorem slice_blit_slice (m m' : Mem) (dst off n : Nat) :
    (m.blit dst (m'.slice off n)).slice dst n = m'.slice off n := by
  have h := slice_blit m dst (m'.slice off n)
  rwa [slice_length] at h

/-- Bytes before the copy are untouched. -/
theorem slice_blit_left {m : Mem} {off k n : Nat} {bs : Bytes} (h : k + n ≤ off) :
    (m.blit off bs).slice k n = m.slice k n := by
  rw [slice_eq_iff]
  intro i hi
  exact blit_of_lt (by omega)

/-- A copy right after what is already there extends it. -/
theorem slice_blit_append (m : Mem) (n : Nat) (bs : Bytes) :
    (m.blit n bs).slice 0 (n + bs.length) = m.slice 0 n ++ bs := by
  rw [slice_add, slice_blit_left (by omega), Nat.zero_add, slice_blit]

theorem slice_blit_of_slice {m : Mem} {n : Nat} {head : Bytes} (h : m.slice 0 n = head)
    (bs : Bytes) : (m.blit n bs).slice 0 (n + bs.length) = head ++ bs := by
  rw [slice_blit_append, h]

end Mem

/-! ## One byte apart -/

/-- Two strings of one length that differ in exactly one byte. -/
def OneByteApart (bs bs' : Bytes) : Prop :=
  ∃ front x y back, x ≠ y ∧ bs = front ++ x :: back ∧ bs' = front ++ y :: back

theorem OneByteApart.ne {bs bs' : Bytes} (h : OneByteApart bs bs') : bs ≠ bs' := by
  obtain ⟨front, x, y, back, hne, rfl, rfl⟩ := h
  simpa using hne

theorem OneByteApart.cons {bs bs' : Bytes} (h : OneByteApart bs bs') (b : UInt8) :
    OneByteApart (b :: bs) (b :: bs') := by
  obtain ⟨front, x, y, back, hne, rfl, rfl⟩ := h
  exact ⟨b :: front, x, y, back, hne, rfl, rfl⟩

/-- Two memories that differ, among their first `n` bytes, in the one at `i` and no other. -/
structure Mem.ApartAt (m m' : Mem) (n i : Nat) : Prop where
  lt : i < n
  ne : m i ≠ m' i
  same : ∀ j < n, j ≠ i → m j = m' j

section
variable {m m' : Mem} {n i off k : Nat} (h : m.ApartAt m' n i)
include h

/-- A run of bytes around the place differs in that one. -/
theorem Mem.ApartAt.slice (hlo : off ≤ i) (hhi : i < off + k) (hn : off + k ≤ n) :
    OneByteApart (m.slice off k) (m'.slice off k) := by
  obtain ⟨a, rfl⟩ := Nat.exists_eq_add_of_le hlo
  obtain ⟨b, rfl⟩ := Nat.exists_eq_add_of_le (show a + 1 ≤ k by omega)
  refine ⟨m.slice off a, m (off + a), m' (off + a), m.slice (off + a + 1) b, h.ne, ?_, ?_⟩
  · rw [Nat.add_assoc a, Nat.add_comm 1 b, Mem.slice_add, Mem.slice_succ]
  · have hfront : m.slice off a = m'.slice off a := by
      rw [Mem.slice_eq_iff]
      intro j hj
      exact h.same _ (by omega) (by omega)
    have hback : m.slice (off + a + 1) b = m'.slice (off + a + 1) b := by
      rw [Mem.slice_eq_iff]
      intro j hj
      exact h.same _ (by omega) (by omega)
    rw [hfront, hback, Nat.add_assoc a, Nat.add_comm 1 b, Mem.slice_add, Mem.slice_succ]

/-- A run of bytes off the place is the same. -/
theorem Mem.ApartAt.slice_eq (hout : i < off ∨ off + k ≤ i) (hn : off + k ≤ n) :
    m.slice off k = m'.slice off k := by
  rw [Mem.slice_eq_iff]
  intro j hj
  exact h.same _ (by omega) (by omega)

end

/-! ## Scalars

`bytes16` and `bytes32` are the bytes of a scalar in memory order, `load16` and
`load32` read them back. -/

/-- The two bytes of a `uint16_t` in memory. -/
def bytes16 (v : UInt16) : Bytes :=
  [UInt8.ofNat v.toNat, UInt8.ofNat (v.toNat / 256)]

/-- The four bytes of a `uint32_t` in memory. -/
def bytes32 (v : UInt32) : Bytes :=
  [UInt8.ofNat v.toNat, UInt8.ofNat (v.toNat / 256), UInt8.ofNat (v.toNat / 65536),
    UInt8.ofNat (v.toNat / 16777216)]

/-- `*(uint16_t *)(m + off)`. -/
def Mem.load16 (m : Mem) (off : Nat) : UInt16 :=
  UInt16.ofNat ((m off).toNat + 256 * (m (off + 1)).toNat)

/-- `*(uint32_t *)(m + off)`. -/
def Mem.load32 (m : Mem) (off : Nat) : UInt32 :=
  UInt32.ofNat ((m off).toNat + 256 * (m (off + 1)).toNat + 65536 * (m (off + 2)).toNat +
    16777216 * (m (off + 3)).toNat)

@[simp] theorem bytes16_length (v : UInt16) : (bytes16 v).length = 2 := rfl

@[simp] theorem bytes32_length (v : UInt32) : (bytes32 v).length = 4 := rfl

theorem uint16_pos {n : UInt16} : 0 < n ↔ 0 < n.toNat := UInt16.lt_iff_toNat_lt

theorem load16_of_slice {m : Mem} {off : Nat} {v : UInt16} (h : m.slice off 2 = bytes16 v) :
    m.load16 off = v := by
  obtain ⟨h0, h⟩ := Mem.slice_eq_cons h
  obtain ⟨h1, -⟩ := Mem.slice_eq_cons h
  apply UInt16.toNat_inj.mp
  have hv := v.toNat_lt
  simp only [Mem.load16, h0, h1, UInt16.toNat_ofNat', UInt8.toNat_ofNat']
  omega

theorem load32_of_slice {m : Mem} {off : Nat} {v : UInt32} (h : m.slice off 4 = bytes32 v) :
    m.load32 off = v := by
  obtain ⟨h0, h⟩ := Mem.slice_eq_cons h
  obtain ⟨h1, h⟩ := Mem.slice_eq_cons h
  obtain ⟨h2, h⟩ := Mem.slice_eq_cons h
  obtain ⟨h3, -⟩ := Mem.slice_eq_cons h
  apply UInt32.toNat_inj.mp
  have hv := v.toNat_lt
  simp only [Nat.add_assoc] at h2 h3
  simp only [Mem.load32, h0, h1, h2, h3, UInt32.toNat_ofNat', UInt8.toNat_ofNat']
  omega

/-- The byte a stored scalar keeps of a number. -/
theorem ofNat_of_mod {b : UInt8} {n : Nat} (h : n % 256 = b.toNat) : UInt8.ofNat n = b := by
  apply UInt8.toNat_inj.mp
  rw [UInt8.toNat_ofNat', h]

/-- Storing a loaded scalar writes the bytes it was loaded from. -/
theorem bytes16_load16 (m : Mem) (off : Nat) : bytes16 (m.load16 off) = m.slice off 2 := by
  have h0 := (m off).toNat_lt
  have h1 := (m (off + 1)).toNat_lt
  have hval : (m.load16 off).toNat = (m off).toNat + 256 * (m (off + 1)).toNat := by
    rw [Mem.load16, UInt16.toNat_ofNat']
    omega
  have hb0 : UInt8.ofNat (m.load16 off).toNat = m off := ofNat_of_mod (by omega)
  have hb1 : UInt8.ofNat ((m.load16 off).toNat / 256) = m (off + 1) := ofNat_of_mod (by omega)
  rw [bytes16, hb0, hb1]
  simp [Mem.slice_succ]

theorem bytes32_load32 (m : Mem) (off : Nat) : bytes32 (m.load32 off) = m.slice off 4 := by
  have h0 := (m off).toNat_lt
  have h1 := (m (off + 1)).toNat_lt
  have h2 := (m (off + 2)).toNat_lt
  have h3 := (m (off + 3)).toNat_lt
  have hval : (m.load32 off).toNat = (m off).toNat + 256 * (m (off + 1)).toNat +
      65536 * (m (off + 2)).toNat + 16777216 * (m (off + 3)).toNat := by
    rw [Mem.load32, UInt32.toNat_ofNat']
    omega
  have hb0 : UInt8.ofNat (m.load32 off).toNat = m off := ofNat_of_mod (by omega)
  have hb1 : UInt8.ofNat ((m.load32 off).toNat / 256) = m (off + 1) := ofNat_of_mod (by omega)
  have hb2 : UInt8.ofNat ((m.load32 off).toNat / 65536) = m (off + 2) := ofNat_of_mod (by omega)
  have hb3 : UInt8.ofNat ((m.load32 off).toNat / 16777216) = m (off + 3) :=
    ofNat_of_mod (by omega)
  rw [bytes32, hb0, hb1, hb2, hb3]
  simp [Mem.slice_succ]

/-- `htons` (and `ntohs`): swap the two bytes. -/
def htons (v : UInt16) : UInt16 :=
  UInt16.ofNat (v.toNat % 256 * 256 + v.toNat / 256)

/-- `ntohs` is the same swap. -/
abbrev ntohs (v : UInt16) : UInt16 := htons v

/-- `htonl` (and `ntohl`): reverse the four bytes. -/
def htonl (v : UInt32) : UInt32 :=
  UInt32.ofNat (v.toNat % 256 * 16777216 + v.toNat / 256 % 256 * 65536 +
    v.toNat / 65536 % 256 * 256 + v.toNat / 16777216)

/-- `ntohl` is the same reversal. -/
abbrev ntohl (v : UInt32) : UInt32 := htonl v

/-- The base-256 digits of a two-byte number. -/
theorem digits16 {a b : Nat} (ha : a < 256) :
    (a + b * 256) % 256 = a ∧ (a + b * 256) / 256 = b := by
  omega

/-- The base-256 digits of a four-byte number. -/
theorem digits32 {a b c d : Nat} (ha : a < 256) (hb : b < 256) (hc : c < 256) :
    (a + b * 256 + c * 65536 + d * 16777216) % 256 = a ∧
      (a + b * 256 + c * 65536 + d * 16777216) / 256 % 256 = b ∧
      (a + b * 256 + c * 65536 + d * 16777216) / 65536 % 256 = c ∧
      (a + b * 256 + c * 65536 + d * 16777216) / 16777216 = d := by
  refine ⟨?_, ?_, ?_, ?_⟩ <;> omega

@[simp] theorem ntohs_htons (v : UInt16) : ntohs (htons v) = v := by
  obtain ⟨a, b, ha, hb, hval⟩ : ∃ a b, a < 256 ∧ b < 256 ∧ v.toNat = a + b * 256 :=
    ⟨v.toNat % 256, v.toNat / 256, by omega, by have := v.toNat_lt; omega, by omega⟩
  -- the digits in the other order
  have hs : (htons v).toNat = b + a * 256 := by
    rw [htons, UInt16.toNat_ofNat', hval, (digits16 ha).1, (digits16 ha).2]
    omega
  apply UInt16.toNat_inj.mp
  rw [ntohs, htons, hs, UInt16.toNat_ofNat', (digits16 hb).1, (digits16 hb).2, hval]
  omega

@[simp] theorem ntohl_htonl (v : UInt32) : ntohl (htonl v) = v := by
  obtain ⟨a, b, c, d, ha, hb, hc, hd, hval⟩ : ∃ a b c d, a < 256 ∧ b < 256 ∧ c < 256 ∧ d < 256 ∧
      v.toNat = a + b * 256 + c * 65536 + d * 16777216 :=
    ⟨v.toNat % 256, v.toNat / 256 % 256, v.toNat / 65536 % 256, v.toNat / 16777216,
      by omega, by omega, by omega, by have := v.toNat_lt; omega, by omega⟩
  have hs : (htonl v).toNat = d + c * 256 + b * 65536 + a * 16777216 := by
    obtain ⟨h0, h1, h2, h3⟩ := digits32 (d := d) ha hb hc
    rw [htonl, UInt32.toNat_ofNat', hval, h0, h1, h2, h3]
    omega
  obtain ⟨h0, h1, h2, h3⟩ := digits32 (d := a) hd hc hb
  apply UInt32.toNat_inj.mp
  rw [ntohl, htonl, hs, UInt32.toNat_ofNat', h0, h1, h2, h3, hval]
  omega

end SelectiveRepeat
