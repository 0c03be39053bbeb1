/-
  SelectiveRepeat.Read

  `read` and `recv` as both loops use them: an error, or some bytes of which the
  caller's buffer takes at most its size.
-/
import SelectiveRepeat.Segment.Packet
import Mathlib.Algebra.Ring.Int.Defs
import Mathlib.Algebra.Ring.Nat

namespace SelectiveRepeat

/-- What `read` or `recv` finds: an error, or these bytes. -/
inductive ReadResult where
  | error
  | bytes (data : Bytes)

/-- The value returned by a read of at most `max` bytes. -/
def ReadResult.nb (max : Nat) : ReadResult → Int
  | .error => -1
  | .bytes data => (data.take max).length

/-- The buffer after a read of at most `max` bytes into it. -/
def ReadResult.fill (max : Nat) (buf : Mem) : ReadResult → Mem
  | .error => buf
  | .bytes data => buf.blit 0 (data.take max)

/-- The bytes `read` put in `payload_buffer`. -/
def ReadResult.payload : ReadResult → Bytes
  | .error => []
  | .bytes data => data.take MAX_PAYLOAD_SIZE

/-- The conversion of the `int` a read returned to a `size_t`. -/
def sizeOfInt (nb : Int) : Nat := (nb % 2 ^ 64).toNat

theorem sizeOfInt_natCast {n : Nat} (h : n < 2 ^ 64) : sizeOfInt n = n := by
  rw [sizeOfInt]
  omega

end SelectiveRepeat
