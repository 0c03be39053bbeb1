/-
  SelectiveRepeat.Sender.Clock

  The timeout test in real time.  `current_timestamp` counts the milliseconds since
  the start modulo 2^32, through a cast, a 64-bit subtraction and a truncation.  The
  difference of two readings is therefore the time between them whatever wrapped,
  but the scan of `Check RT` compares readings, and is right only where neither or
  both of the numbers it compares have wrapped.
-/
import SelectiveRepeat.Sender.Loop

namespace SelectiveRepeat

theorem toNat_uint32_ofInt (x : Int) : ((UInt32.ofInt x).toNat : Int) = x % 2 ^ 32 := by
  have hmod : (UInt32.ofInt x).toNat = (x % 2 ^ 32).toNat % 2 ^ 32 := UInt32.toNat_ofNat'
  omega

/-- A reading is the time since the start modulo 2^32: the cast changes it by a multiple. -/
theorem currentTimestamp_toNat (milliseconds start : Int) :
    ((currentTimestamp milliseconds start).toNat : Int) = (milliseconds - start) % 2 ^ 32 := by
  rw [currentTimestamp, toNat_uint32_ofInt, toNat_uint32_ofInt]
  omega

/-- A later reading is the earlier one and the time that passed, modulo 2^32. -/
theorem currentTimestamp_later (start t c : Int) :
    ((currentTimestamp c start).toNat : Int) =
      ((currentTimestamp t start).toNat + (c - t)) % 2 ^ 32 := by
  rw [currentTimestamp_toNat, currentTimestamp_toNat]
  omega

/-- The difference of two readings, which the round-trip statistics take, is the time
    between them. -/
theorem currentTimestamp_sub {start t c : Int} (hle : t ≤ c) (hlt : c - t < 2 ^ 32) :
    ((currentTimestamp c start - currentTimestamp t start).toNat : Int) = c - t := by
  have hlater := currentTimestamp_later start t c
  have ht := (currentTimestamp t start).toNat_lt
  have hc := (currentTimestamp c start).toNat_lt
  rw [UInt32.toNat_sub]
  omega

theorem timedOut_toNat (pkt : Pkt) (clock_time : UInt32) :
    timedOut pkt clock_time = true ↔
      (pkt.timestamp.toNat + 60) % 2 ^ 32 < clock_time.toNat := by
  have hadd : (pkt.timestamp + TIMEOUT / 20).toNat = (pkt.timestamp.toNat + 60) % 2 ^ 32 :=
    UInt32.toNat_add pkt.timestamp (TIMEOUT / 20)
  rw [timedOut, decide_eq_true_iff, UInt32.lt_iff_toNat_lt, hadd]

/-- For a packet stamped at `t` and a scan at `c`, the test is true exactly when more than
    `TIMEOUT/20` ms have passed if and only if the deadline and the clock are on the same
    lap of the counter. -/
theorem timedOut_elapsed_iff (start t c : Int) (hle : t ≤ c) (hlt : c - t < 2 ^ 31) (pkt : Pkt)
    (hstamp : pkt.timestamp = currentTimestamp t start) :
    (timedOut pkt (currentTimestamp c start) = true ↔ (TIMEOUT / 20).toNat < c - t) ↔
      ((currentTimestamp t start).toNat + (TIMEOUT / 20).toNat < 2 ^ 32 ↔
        (currentTimestamp t start).toNat + (c - t) < 2 ^ 32) := by
  have hdelay : (TIMEOUT / 20).toNat = 60 := rfl
  have hlater := currentTimestamp_later start t c
  have ht := (currentTimestamp t start).toNat_lt
  have hc := (currentTimestamp c start).toNat_lt
  rw [timedOut_toNat, hstamp, hdelay]
  generalize (currentTimestamp t start).toNat = stamp at *
  generalize (currentTimestamp c start).toNat = clock at *
  by_cases hdeadline : stamp + 60 < 2 ^ 32 <;>
    by_cases hclock : (stamp : Int) + (c - t) < 2 ^ 32
  · -- neither has wrapped
    rw [Nat.mod_eq_of_lt hdeadline, Int.emod_eq_of_lt (by omega) hclock] at *
    exact iff_of_true (by omega) (iff_of_true hdeadline hclock)
  · -- the clock has wrapped and looks smaller than the deadline
    refine iff_of_false (fun hright => ?_) (fun hsame => hclock (hsame.mp hdeadline))
    omega
  · -- the deadline has wrapped and looks passed at once
    refine iff_of_false (fun hright => ?_) (fun hsame => hdeadline (hsame.mpr hclock))
    omega
  · -- both have
    refine iff_of_true ?_ (iff_of_false hdeadline hclock)
    omega

/-- Stamped 30 ms before the counter wraps and looked at 100 ms later: deadline and clock
    have both wrapped. -/
theorem timedOut_elapsed_iff_wrapped :
    timedOut (bytePkt 0 (currentTimestamp 1621294967266 1617000000000) 7)
      (currentTimestamp 1621294967366 1617000000000) = true := by
  refine ((timedOut_elapsed_iff 1617000000000 1621294967266 1621294967366 (by omega) (by omega)
    (bytePkt 0 (currentTimestamp 1621294967266 1617000000000) 7) rfl).mpr ?_).mpr ?_
  · have hstamp : (currentTimestamp 1621294967266 1617000000000).toNat = 4294967266 := rfl
    have hdelay : (TIMEOUT / 20).toNat = 60 := rfl
    omega
  · have hdelay : (TIMEOUT / 20).toNat = 60 := rfl
    omega

/-- Stamped 10 ms before the counter wraps, a packet has timed out at once. -/
theorem timedOut_not_elapsed :
    ¬ ∀ start t c : Int, t ≤ c → c - t < 2 ^ 31 → ∀ pkt : Pkt,
      pkt.timestamp = currentTimestamp t start →
      (timedOut pkt (currentTimestamp c start) = true ↔ (TIMEOUT / 20).toNat < c - t) := by
  intro h
  have hout : timedOut (bytePkt 0 (currentTimestamp 1621294967286 1617000000000) 7)
      (currentTimestamp 1621294967286 1617000000000) = true := rfl
  have helapsed := (h 1617000000000 1621294967286 1621294967286 (by omega) (by omega) _ rfl).mp hout
  omega

end SelectiveRepeat
