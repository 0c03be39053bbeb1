/-
  SelectiveRepeat.Sender.Rescan

  The `Check RT` loop on windows of any DATA packets, also such that `pkt_encode`
  refuses.  It ends, since the places it comes to are fewer than 32; they are
  different places, and a packet is judged by the timestamp it had before the
  pass.  A refusal ends the pass early, and what was sent until then stands.
-/
import SelectiveRepeat.Sender.Scan

namespace SelectiveRepeat

/-- The DATA packet is encoded or refused, whatever its length and TR. -/
theorem pktEncode_data [Zlib] {pkt : Pkt} (hd : pkt.type = ptypeData) (buf : Mem) :
    ∃ status buf' size, pktEncode pkt buf pktBufferSize = .ok (status, buf', size) := by
  by_cases htr : pkt.tr = 0
  · obtain ⟨hlong, hshort⟩ := pktEncode_failed hd htr buf
    rcases Nat.lt_or_ge 512 pkt.length.toNat with hover | hle
    · exact ⟨_, _, _, hlong hover⟩
    · obtain ⟨buf', size, henc⟩ := hshort hle
      exact ⟨_, _, _, henc⟩
  · simp only [pktEncode, ne_eq, htr, not_false_eq_true, if_true]
    split
    · exact ⟨_, _, _, rfl⟩
    · exact ⟨_, _, _, rfl⟩

/-! ## What a pass sends and leaves -/

/-- `d` was sent for the packet at place `j` of `l`, which had timed out. -/
def SentFor [Zlib] (clock_time : UInt32) (l : List Pkt) (j : Nat) (d : Bytes) : Prop :=
  ∃ pkt ts buf buf' size, l[j]? = some pkt ∧ timedOut pkt clock_time = true ∧
    pktEncode (pkt.restamp ts) buf pktBufferSize = .ok (.pktOk, buf', size) ∧
    d = buf'.slice 0 size

/-- The window of `st'` holds the packets of `l` where `st` has them, with other timestamps at
    most. -/
def KeepsWindow (st : SenderState) (l : List Pkt) (st' : SenderState) : Prop :=
  ∃ l', st'.window.Holds l' ∧ SameButTimestamp l l' ∧ st'.window.ptrPop = st.window.ptrPop ∧
    st'.pktInWindow = st.pktInWindow

/-- A pass over different places sends for each at most once.  `l₀` is the window before the
    pass: the places still to come are as they were. -/
theorem scanPlaces_sound [Zlib] {env : SenderEnv} {clock_time : UInt32} {st : SenderState}
    {l₀ l : List Pkt} {js : List Nat} (hl : st.window.Holds l) (hsame : SameButTimestamp l₀ l)
    (hdata : ∀ pkt ∈ l, pkt.type = ptypeData) (hjs : ∀ j ∈ js, j < l.length)
    (hnodup : js.Nodup) (hfresh : ∀ j ∈ js, l[j]? = l₀[j]?) (n : Nat) :
    ∃ t places, scanPlaces env clock_time n js st = .ok t ∧ places.Sublist js ∧
      List.Forall₂ (SentFor clock_time l₀) places t.sent ∧ KeepsWindow st l₀ t.state := by
  induction js generalizing st l n with
  | nil =>
      exact ⟨_, [], rfl, List.Sublist.refl [], List.Forall₂.nil, l, hl, hsame, rfl, rfl⟩
  | cons j js ih =>
      obtain ⟨hj, hjs⟩ := List.forall_mem_cons.mp hjs
      obtain ⟨hjfresh, hfresh⟩ := List.forall_mem_cons.mp hfresh
      obtain ⟨hnot, hnodup⟩ := List.nodup_cons.mp hnodup
      have hpkt : l[j]? = some l[j] := List.getElem?_eq_getElem hj
      rw [scanPlaces_cons hl hj, scanSlot]
      cases ht : timedOut l[j] clock_time with
      | false =>
          obtain ⟨t, places, hrun, hsub, hsent, hkeeps⟩ :=
            ih hl hsame hdata hjs hnodup hfresh (n + 1)
          exact ⟨t, places, hrun, hsub.cons j, hsent, hkeeps⟩
      | true =>
          have htype : (l[j].restamp (env.now (.resend n) st)).type = ptypeData :=
            hdata l[j] (List.getElem_mem hj)
          obtain ⟨status, buf, size, henc⟩ := pktEncode_data htype st.pktBuffer
          have hset := sameButTimestamp_set hpkt (env.now (.resend n) st)
          have hholds := hl.store hj (l[j].restamp (env.now (.resend n) st))
          simp only [henc, ok_bind, if_true]
          by_cases hok : status = .pktOk
          case neg =>
            -- refused: stored back with the new timestamp, and that is all
            rw [if_pos hok]
            exact ⟨_, [], rfl, List.nil_sublist _, List.Forall₂.nil, _, hholds, hsame.trans hset,
              rfl, rfl⟩
          rw [if_neg (not_not.mpr hok)]
          have hdata' : ∀ pkt ∈ l.set j (l[j].restamp (env.now (.resend n) st)),
              pkt.type = ptypeData := hset.forall_mem (fun _ _ hd => hd) hdata
          -- the other places keep their timestamps
          have hfresh' : ∀ i ∈ js,
              (l.set j (l[j].restamp (env.now (.resend n) st)))[i]? = l₀[i]? := by
            intro i hi
            have hij : j ≠ i := fun heq => hnot (heq ▸ hi)
            rw [List.getElem?_set_ne hij, hfresh i hi]
          obtain ⟨t, places, hrun, hsub, hsent, hkeeps⟩ := @ih
            { st with
              pktBuffer := buf
              window := st.window.store (Ring.slot st.window.ptrPop j)
                (l[j].restamp (env.now (.resend n) st))
              senderLogger := st.senderLogger.addPacketRetransmitted }
            _ hholds (hsame.trans hset) hdata' (by rwa [← hset.length_eq]) hnodup hfresh' (n + 1)
          have hfor : SentFor clock_time l₀ j (buf.slice 0 size) :=
            ⟨l[j], _, _, buf, size, hjfresh ▸ hpkt, ht, hok ▸ henc, rfl⟩
          rw [hrun]
          exact ⟨_, j :: places, rfl, hsub.cons_cons j, List.Forall₂.cons hfor hsent, hkeeps⟩

/-- The retransmission scan terminates and is sound.  On a window of consecutive numbers, anywhere
    in the ring, of DATA packets as `build_pkt` makes them, the pass returns, and the loop needs no
    more than 32 calls of `get` for it: with 32 or more it returns the same.  It sends only for
    packets whose timestamp plus `TIMEOUT/20` was below the clock, for each at most once, and leaves
    the window as it was but for timestamps. -/
theorem checkRt_sound [Zlib] (env : SenderEnv) (st : SenderState) (h : UInt8) (l : List Pkt)
    (hne : l ≠ []) (hl : st.window.Holds l) (hc : Consecutive h l)
    (hdata : ∀ pkt ∈ l, pkt.type = ptypeData) :
    ∃ t, checkRt env st = .ok t ∧
      (∀ calls, 32 ≤ calls →
        checkRtLoop env (env.now .check st) h calls 0 true h none st = .ok t) ∧
      (∃ places : List Nat, places.Nodup ∧
        List.Forall₂ (SentFor (env.now .check st) l) places t.sent) ∧
      KeepsWindow st l t.state := by
  have hlt : ∀ j ∈ visited h l.length, j < l.length :=
    fun j hj => lt_of_mem_visited (List.length_pos_iff.mpr hne) hj
  obtain ⟨t, places, hrun, hsub, hsent, hkeeps⟩ := scanPlaces_sound
    hl (sameButTimestamp_refl l) hdata hlt (visited_nodup h l.length) (fun _ _ => rfl) 0
  refine ⟨t, ?_, ?_, ⟨places, hsub.nodup (visited_nodup h l.length), hsent⟩, hkeeps⟩
  · rw [checkRt_eq_scan env hl hc, if_neg hne, hrun]
  · intro calls hcalls
    rw [checkRtLoop_eq_scan env _ hl hc hne hcalls, hrun]

/-- The window 29, 30, 31: the first two have timed out, and the third is not come to. -/
theorem checkRt_sound_wrap : letI := zlib
    let l := [bytePkt 29 0 1, bytePkt 30 0 2, bytePkt 31 90 3]
    ∃ t, checkRt (quietEnv 100) (senderHolding l) = .ok t ∧
      (∀ calls, 32 ≤ calls →
        checkRtLoop (quietEnv 100) ((quietEnv 100).now .check (senderHolding l)) 29 calls 0 true 29
          none (senderHolding l) = .ok t) ∧
      (∃ places : List Nat, places.Nodup ∧
        List.Forall₂ (SentFor ((quietEnv 100).now .check (senderHolding l)) l) places t.sent) ∧
      KeepsWindow (senderHolding l) l t.state :=
  letI := zlib
  checkRt_sound (quietEnv 100) (senderHolding [bytePkt 29 0 1, bytePkt 30 0 2, bytePkt 31 90 3]) 29
    [bytePkt 29 0 1, bytePkt 30 0 2, bytePkt 31 90 3] (List.cons_ne_nil _ _)
    (Queue.newList_holds.addAll (by decide)) ⟨rfl, rfl, rfl, trivial⟩
    (by
      simp only [List.forall_mem_cons]
      exact ⟨rfl, rfl, rfl, fun _ h => absurd h List.not_mem_nil⟩)

end SelectiveRepeat
