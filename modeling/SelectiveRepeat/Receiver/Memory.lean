/-
  SelectiveRepeat.Receiver.Memory

  What the receiver does against what was in memory.  Every block is written before it
  is read (the packets of `pkt_new`, the elements of `add`, the buffers), but
  for the slots of the window: `new_list` does not set them to null.
-/
import SelectiveRepeat.Receiver.Run
import SelectiveRepeat.Segment.Extent
import SelectiveRepeat.SortedList.Map

namespace SelectiveRepeat

/-! ## Elements and packets that read the same -/

/-- The element in a block that is zero behind its bytes. -/
def Pstl.clean (elem : Pstl) : Pstl :=
  { elem with payload := Mem.blit (fun _ => 0) 0 elem.data }

@[simp] theorem Pstl.clean_data (elem : Pstl) : elem.clean.data = elem.data := by
  have h := Mem.slice_blit (fun _ => 0) 0 elem.data
  rw [Pstl.data_length] at h
  exact h

@[simp] theorem readPstl_clean (elem : Pstl) : readPstl elem.clean = readPstl elem := by
  simp only [readPstl, Pstl.clean_data]
  rfl

/-- What an element is without its block. -/
theorem Pstl.clean_eq_iff {elem elem' : Pstl} :
    elem.clean = elem'.clean ↔ elem.data = elem'.data ∧ elem.length = elem'.length ∧
      elem.seqnum = elem'.seqnum ∧ elem.timestamp = elem'.timestamp := by
  refine ⟨?_, ?_⟩
  · intro h
    have hdata : elem.clean.data = elem'.clean.data := by rw [h]
    have hlength : elem.clean.length = elem'.clean.length := by rw [h]
    have hseq : elem.clean.seqnum = elem'.clean.seqnum := by rw [h]
    have hts : elem.clean.timestamp = elem'.clean.timestamp := by rw [h]
    rw [Pstl.clean_data, Pstl.clean_data] at hdata
    exact ⟨hdata, hlength, hseq, hts⟩
  · rintro ⟨hdata, hlength, hseq, hts⟩
    simp only [Pstl.clean, hdata, hlength, hseq, hts]

/-- Two packets the receiver cannot tell apart: where TR is set it does not look at the
    length. -/
structure Pkt.Alike (q q' : Pkt) : Prop where
  type : q.type = q'.type
  tr : q.tr = q'.tr
  seqnum : q.seqnum = q'.seqnum
  timestamp : q.timestamp = q'.timestamp
  length : q.tr = 0 → q.length = q'.length
  data : q.tr = 0 → q.data = q'.data

theorem Pkt.SameGetters.alike {q q' : Pkt} (h : q.SameGetters q') : q.Alike q' :=
  ⟨h.type, h.tr, h.seqnum, h.timestamp, fun _ => h.length, h.data⟩

theorem Pkt.Alike.readPayload {q q' : Pkt} (h : q.Alike q') (htr : q.tr = 0) :
    readPayload q = readPayload q' := by
  have hread {p : Pkt} (hp : p.tr = 0) : SelectiveRepeat.readPayload p =
      if MAX_PAYLOAD_SIZE < p.length.toNat then .error (.payload p.length.toNat)
      else .ok p.data := by
    simp only [SelectiveRepeat.readPayload, pktGetPayload, hp]
    rfl
  rw [hread htr, hread (h.tr ▸ htr), h.data htr, h.length htr]

theorem readPayload_length {q : Pkt} {payload : Bytes} (h : readPayload q = .ok payload) :
    payload.length = q.length.toNat := by
  simp only [readPayload] at h
  split at h
  · cases h
  · split at h
    · cases h
    · cases h
      exact Mem.slice_length _ _ _

/-- `add` stores them as the same element, in whatever blocks. -/
theorem stored_clean {q q' : Pkt} (h : q.Alike q') (htr : q.tr = 0) {payload : Bytes}
    (hlen : payload.length = q.length.toNat) (toAdd toAdd' : Pstl) :
    (q.stored payload toAdd).clean = (q'.stored payload toAdd').clean := by
  have hdata {p : Pkt} (hp : payload.length = p.length.toNat) (block : Pstl) :
      (p.stored payload block).data = payload := by
    have hslice := Mem.slice_blit block.payload 0 payload
    rwa [hp] at hslice
  rw [Pstl.clean_eq_iff, hdata hlen, hdata (h.length htr ▸ hlen)]
  exact ⟨rfl, h.length htr, h.seqnum, h.timestamp⟩

/-! ## Windows -/

/-- The windows hold elements that read the same in the same slots. -/
def SameWindow (list list' : SortedList) : Prop :=
  list.map Pstl.clean = list'.map Pstl.clean

section
variable {list list' : SortedList} (h : SameWindow list list')
include h

theorem SameWindow.size : list.size = list'.size := by
  show (list.map Pstl.clean).size = (list'.map Pstl.clean).size
  rw [h]

theorem SameWindow.resize (size : Int) :
    SameWindow { list with size := size } { list' with size := size } := by
  have hmap : list.map Pstl.clean = list'.map Pstl.clean := h
  exact congrArg (fun l : SortedList => { l with size := size }) hmap

theorem SameWindow.slot (index : Int) :
    Agree (fun a b => a.map Pstl.clean = b.map Pstl.clean) (list.slot index) (list'.slot index) := by
  apply agree_of_map
  rw [← SortedList.slot_map, ← SortedList.slot_map, h]

theorem SameWindow.setSlot (index : Int) {elem elem' : Option Pstl}
    (helem : elem.map Pstl.clean = elem'.map Pstl.clean) :
    Agree SameWindow (list.setSlot index elem) (list'.setSlot index elem') := by
  apply agree_of_map
  rw [← SortedList.setSlot_map, ← SortedList.setSlot_map, h, helem]

theorem SameWindow.peek :
    Agree (fun r r' => r.1.map Pstl.clean = r'.1.map Pstl.clean ∧ SameWindow r.2 r'.2)
      list.peek list'.peek := by
  have hpeek : list.peek.map (Prod.map (Option.map Pstl.clean) (SortedList.map Pstl.clean)) =
      list'.peek.map (Prod.map (Option.map Pstl.clean) (SortedList.map Pstl.clean)) := by
    rw [← SortedList.peek_map, ← SortedList.peek_map, h]
  exact (agree_of_map hpeek).mono fun r r' heq => Prod.mk.inj heq

theorem SameWindow.pop : Agree SameWindow list.pop list'.pop := by
  apply agree_of_map
  rw [← SortedList.pop_map, ← SortedList.pop_map, h]

theorem SameWindow.reset (newWaited oldWaited : UInt8) :
    Agree SameWindow (list.reset newWaited oldWaited) (list'.reset newWaited oldWaited) := by
  apply agree_of_map
  rw [← SortedList.reset_map, ← SortedList.reset_map, h]

/-- `add` comes to the same result, as long as `malloc` has a block in both or in none. -/
theorem SameWindow.add {q q' : Pkt} (hq : q.Alike q') (htr : q.tr = 0) (waited : UInt8)
    {malloc malloc' : Option Pstl} (hmalloc : malloc.isSome = malloc'.isSome) :
    Agree (fun r r' => r.1 = r'.1 ∧ SameWindow r.2 r'.2) (list.add q waited malloc)
      (list'.add q' waited malloc') := by
  simp only [SortedList.add, ← hq.seqnum]
  apply (h.slot _).bind
  intro found found' hfound
  cases found with
  | some elem =>
      cases found' with
      | some elem' => exact .ok ⟨rfl, h⟩
      | none => exact absurd hfound (by simp)
  | none =>
      cases found' with
      | some elem' => exact absurd hfound (by simp)
      | none =>
          cases malloc with
          | none =>
              cases malloc' with
              | none => exact .ok ⟨rfl, h⟩
              | some toAdd' => exact absurd hmalloc (by simp)
          | some toAdd =>
              cases malloc' with
              | none => exact absurd hmalloc (by simp)
              | some toAdd' =>
                  dsimp only
                  rw [← hq.readPayload htr]
                  cases hread : readPayload q with
                  | error e => exact .error e
                  | ok payload =>
                      have hstored : (some (q.stored payload toAdd)).map Pstl.clean =
                          (some (q'.stored payload toAdd')).map Pstl.clean :=
                        congrArg some (stored_clean hq htr (readPayload_length hread) toAdd toAdd')
                      refine (h.setSlot _ hstored).bind fun list₁ list₁' h₁ => .ok ⟨rfl, ?_⟩
                      rw [h₁.size]
                      exact h₁.resize _

end

/-! ## The blocks of the loop -/

/-- Two turns that take the same from outside, but for what is in the blocks of memory. -/
structure ReceiverEnv.SameOutside (env env' : ReceiverEnv) : Prop where
  poll : env.poll = env'.poll
  write : env.write = env'.write
  send : env.send = env'.send
  malloc : env.malloc.isSome = env'.malloc.isSome

/-- Two states that differ only in what was left in memory. -/
structure ReceiverState.Alike (st st' : ReceiverState) : Prop where
  window : SameWindow st.window st'.window
  ackSize : st.ackSize = 10
  ackSize' : st'.ackSize = 10
  waitedSeqnum : st.waitedSeqnum = st'.waitedSeqnum
  receivePkt : st.receivePkt = st'.receivePkt

/-- Two outcomes that look the same from outside and go on alike. -/
structure ReceiverTurn.Alike (t t' : ReceiverTurn) : Prop where
  state : t.state.Alike t'.state
  stop : t.stop = t'.stop
  written : t.written = t'.written
  sent : t.sent = t'.sent

structure DrainState.Alike (s s' : DrainState) : Prop where
  window : SameWindow s.window s'.window
  waitedSeqnum : s.waitedSeqnum = s'.waitedSeqnum
  timestampAck : s.timestampAck = s'.timestampAck
  receivePkt : s.receivePkt = s'.receivePkt
  written : s.written = s'.written

/-- The datagram of a reply has nothing from its block. -/
theorem Pkt.Reply.wire_eq [Zlib] {pkt pkt' : Pkt} {type : BitVec 2} {seqnum : UInt8}
    {timestamp : UInt32} (h : pkt.Reply type seqnum timestamp)
    (h' : pkt'.Reply type seqnum timestamp) : pkt.wire = pkt'.wire := by
  have hheader (tr : BitVec 1) : pkt.headerBytes tr = pkt'.headerBytes tr := by
    simp only [Pkt.headerBytes, h.type, h.window, h.length, h.seqnum, h.timestamp, h'.type,
      h'.window, h'.length, h'.seqnum, h'.timestamp]
  have hnone : ¬ ((0 : BitVec 1) = 0 ∧ (0 : UInt16) < 0) := by decide
  rw [Pkt.wire, Pkt.wire, hheader, hheader, h.tr, h'.tr, h.length, h'.length, if_neg hnone,
    if_neg hnone]

section
variable {env env' : ReceiverEnv} (henv : env.SameOutside env')
include henv

theorem sendReply_alike [Zlib] {st st' : ReceiverState} (h : st.Alike st')
    (written : List (Bytes × Int)) (timestamp : UInt32) {type : UInt32} (htype : type ≠ 0)
    (hdata : BitVec.ofNat 2 type.toNat ≠ ptypeData) (count : Logger → Logger) :
    Agree ReceiverTurn.Alike (sendReply env st written timestamp type count)
      (sendReply env' st' written timestamp type count) := by
  obtain ⟨pkt, buffer, hreply, hrun⟩ :=
    sendReply_spec env h.ackSize written timestamp htype hdata count
  obtain ⟨pkt', buffer', hreply', hrun'⟩ :=
    sendReply_spec env' h.ackSize' written timestamp htype hdata count
  rw [← h.waitedSeqnum] at hreply'
  rw [hrun, hrun', hreply.wire_eq hreply', henv.send]
  split
  · exact .ok ⟨⟨h.window, rfl, rfl, h.waitedSeqnum, h.receivePkt⟩, rfl, rfl, rfl⟩
  · exact .ok ⟨⟨h.window, rfl, rfl, h.waitedSeqnum, h.receivePkt⟩, rfl, rfl, rfl⟩

/-- The loop takes the same elements out, and writes the same bytes. -/
theorem drainLoop_alike (fuel : Nat) {s s' : DrainState} (h : s.Alike s') :
    Agree (fun r r' => r.1.Alike r'.1 ∧ r.2 = r'.2) (drainLoop env fuel s)
      (drainLoop env' fuel s') := by
  induction fuel generalizing s s' with
  | zero => exact .error _
  | succ fuel ih =>
      have hempty : s.window.isEmpty = s'.window.isEmpty := by
        rw [SortedList.isEmpty, SortedList.isEmpty, h.window.size]
      simp only [drainLoop, hempty]
      split
      · exact .ok ⟨h, rfl⟩
      · apply h.window.peek.bind
        rintro ⟨elem, window⟩ ⟨elem', window'⟩ ⟨helem, hwindow⟩
        cases elem with
        | none =>
            cases elem' with
            | none => exact .error _
            | some elem' => exact absurd helem (by simp)
        | some elem =>
            cases elem' with
            | none => exact absurd helem (by simp)
            | some elem' =>
                have hclean : elem.clean = elem'.clean := Option.some.inj helem
                have hread : readPstl elem = readPstl elem' := by
                  rw [← readPstl_clean, hclean, readPstl_clean]
                obtain ⟨-, hlength, hseq, hts⟩ := Pstl.clean_eq_iff.mp hclean
                simp only [h.waitedSeqnum, hseq, hlength, hread, hts, h.written, h.receivePkt,
                  henv.write]
                split
                · split
                  · exact .ok ⟨⟨hwindow, rfl, h.timestampAck, rfl, rfl⟩, rfl⟩
                  · cases readPstl elem' with
                    | error e => exact .error e
                    | ok payload =>
                        simp only [ok_bind]
                        split
                        · exact .ok ⟨⟨hwindow, rfl, h.timestampAck, rfl, rfl⟩, rfl⟩
                        · refine hwindow.pop.bind fun window₁ window₁' hpop => ?_
                          exact ih ⟨hpop, rfl, rfl, rfl, rfl⟩
                · exact .ok ⟨⟨hwindow, rfl, h.timestampAck, rfl, rfl⟩, rfl⟩

/-- The blocks that handle a DATA packet, on packets that read the same. -/
theorem waitedCase_alike [Zlib] {st st' : ReceiverState} (h : st.Alike st')
    (hq : st.pkt.Alike st'.pkt) (htr : st.pkt.tr = 0) :
    Agree ReceiverTurn.Alike (waitedCase env st) (waitedCase env' st') := by
  simp only [waitedCase, ← hq.length htr, ← hq.readPayload htr, ← h.waitedSeqnum, ← hq.timestamp,
    ← h.window.size, ← henv.write]
  split
  · exact .ok ⟨h, rfl, rfl, rfl⟩
  · cases readPayload st.pkt with
    | error e => exact .error e
    | ok payload =>
        simp only [ok_bind]
        split
        · exact .ok ⟨h, rfl, rfl, rfl⟩
        · refine Agree.bind (drainLoop_alike henv _ ⟨h.window, rfl, rfl, rfl, rfl⟩) ?_
          rintro ⟨s, stop⟩ ⟨s', stop'⟩ ⟨hs, hstop⟩
          dsimp only at hs hstop ⊢
          subst hstop
          cases stop with
          | some reason =>
              exact .ok ⟨⟨hs.window, h.ackSize, h.ackSize', hs.waitedSeqnum, hs.receivePkt⟩, rfl,
                hs.written, rfl⟩
          | none =>
              dsimp only
              rw [← hs.waitedSeqnum, ← hs.written, ← hs.timestampAck]
              apply (hs.window.reset _ _).bind
              intro window window' hwindow
              have hst : ReceiverState.Alike
                  { st with
                    window := window, waitedSeqnum := s.waitedSeqnum, receivePkt := s.receivePkt }
                  { st' with
                    window := window', waitedSeqnum := s.waitedSeqnum
                    receivePkt := s'.receivePkt } :=
                ⟨hwindow, h.ackSize, h.ackSize', rfl, hs.receivePkt⟩
              exact sendReply_alike henv hst _ _ (by decide) (by decide) _

theorem storeCase_alike {st st' : ReceiverState} (h : st.Alike st') (hq : st.pkt.Alike st'.pkt)
    (htr : st.pkt.tr = 0) :
    Agree (fun r r' => (r.1.Alike r'.1 ∧ r.1.pkt = st.pkt ∧ r'.1.pkt = st'.pkt) ∧ r.2 = r'.2)
      (storeCase env st) (storeCase env' st') := by
  simp only [storeCase, ← h.waitedSeqnum, ← hq.seqnum]
  split
  · apply (h.window.add hq htr _ henv.malloc).bind
    rintro ⟨res, window⟩ ⟨res', window'⟩ ⟨hres, hwindow⟩
    dsimp only at hres hwindow ⊢
    subst hres
    split
    · exact .ok ⟨⟨⟨hwindow, h.ackSize, h.ackSize', rfl, h.receivePkt⟩, rfl, rfl⟩, rfl⟩
    · split
      · exact .ok ⟨⟨⟨hwindow, h.ackSize, h.ackSize', rfl, h.receivePkt⟩, rfl, rfl⟩, rfl⟩
      · exact .ok ⟨⟨⟨hwindow, h.ackSize, h.ackSize', rfl, h.receivePkt⟩, rfl, rfl⟩, rfl⟩
  · exact .ok ⟨⟨⟨h.window, h.ackSize, h.ackSize', rfl, h.receivePkt⟩, rfl, rfl⟩, rfl⟩

theorem unwaitedCase_alike [Zlib] {st st' : ReceiverState} (h : st.Alike st')
    (hq : st.pkt.Alike st'.pkt) (htr : st.pkt.tr = 0) :
    Agree ReceiverTurn.Alike (unwaitedCase env st) (unwaitedCase env' st') := by
  simp only [unwaitedCase]
  apply (storeCase_alike henv h hq htr).bind
  rintro ⟨st₁, stop⟩ ⟨st₁', stop'⟩ ⟨⟨h₁, hpkt, hpkt'⟩, hstop⟩
  dsimp only at h₁ hpkt hpkt' hstop ⊢
  subst hstop
  rw [hpkt, hpkt', ← hq.timestamp, ← h₁.receivePkt]
  split
  · exact .ok ⟨h₁, rfl, rfl, rfl⟩
  · split
    · exact sendReply_alike henv h₁ _ _ (by decide) (by decide) _
    · exact .ok ⟨h₁, rfl, rfl, rfl⟩

theorem dataCase_alike [Zlib] {st st' : ReceiverState} (h : st.Alike st') (hq : st.pkt.Alike st'.pkt) :
    Agree ReceiverTurn.Alike (dataCase env st) (dataCase env' st') := by
  -- the counters are not part of what is compared
  have hst (count : Logger → Logger) : ReceiverState.Alike
      { st with receiverLogger := count st.receiverLogger }
      { st' with waitedSeqnum := st.waitedSeqnum, receiverLogger := count st'.receiverLogger } :=
    ⟨h.window, h.ackSize, h.ackSize', rfl, h.receivePkt⟩
  simp only [dataCase, truncatedCase, ← hq.tr, ← hq.seqnum, ← hq.timestamp, ← h.waitedSeqnum]
  split
  · exact sendReply_alike henv (hst fun l => l.addDataReceived.addDataTruncatedReceived) _ _
      (by decide) (by decide) _
  next htr =>
    have htr0 : st.pkt.tr = 0 := (bitVec1_cases _).resolve_right htr
    split
    · exact waitedCase_alike henv (hst Logger.addDataReceived) hq htr0
    · exact unwaitedCase_alike henv (hst Logger.addDataReceived) hq htr0

theorem packetCase_alike [Zlib] {st st' : ReceiverState} (h : st.Alike st')
    (hq : st.pkt.Alike st'.pkt) :
    Agree ReceiverTurn.Alike (packetCase env st) (packetCase env' st') := by
  simp only [packetCase, ← hq.type]
  split
  · exact dataCase_alike henv h hq
  · split
    · exact .ok ⟨⟨h.window, h.ackSize, h.ackSize', h.waitedSeqnum, h.receivePkt⟩, rfl, rfl, rfl⟩
    · split
      · exact .ok ⟨⟨h.window, h.ackSize, h.ackSize', h.waitedSeqnum, h.receivePkt⟩, rfl, rfl, rfl⟩
      · exact .ok ⟨h, rfl, rfl, rfl⟩

end

/-! ## What is decoded -/

/-- One status, and where the datagram is accepted, packets that read the same. -/
def DecodedAlike (r r' : PktStatusCode × Pkt) : Prop :=
  r.1 = r'.1 ∧ (r.1 = .pktOk → r.2.Alike r'.2)

theorem decodedAlike_of_refused {status : PktStatusCode} (h : status ≠ .pktOk) (q q' : Pkt) :
    DecodedAlike (status, q) (status, q') :=
  ⟨rfl, fun hok => absurd hok h⟩

section
variable [Zlib]

/-- `pkt_decode` fills a packet with what the datagram says.  A length it refuses it leaves
    to the packet before, which only a truncated datagram passes with. -/
theorem pktDecode_alike {m m' : Mem} {len : Nat} (h : ∀ i < len, m i = m' i) (hlen : len ≤ 528)
    (prior prior' : Pkt) :
    Agree DecodedAlike (pktDecode m len prior) (pktDecode m' len prior') := by
  rw [pktDecode_congr h (by omega), pktDecode_eq, pktDecode_eq, intOfSize_of_lt (by omega)]
  by_cases hsize : len < m'.datagramSize
  · rw [if_pos (Int.ofNat_lt.mpr hsize), if_pos (Int.ofNat_lt.mpr hsize)]
    exact .ok (decodedAlike_of_refused (by decide) _ _)
  rw [if_neg (Int.ofNat_lt.not.mpr hsize), if_neg (Int.ofNat_lt.not.mpr hsize)]
  by_cases hcrc : m'.Crc1Right
  case neg =>
    rw [if_pos hcrc, if_pos hcrc]
    exact .ok (decodedAlike_of_refused (by decide) _ _)
  rw [if_neg (not_not.mpr hcrc), if_neg (not_not.mpr hcrc)]
  by_cases htrunc : m'.typeField = ptypeData ∧ m'.trField = 1
  · have htr (p : Pkt) : ¬ (m'.decodedHeader p).tr = 0 := by
      have hone : (m'.decodedHeader p).tr = m'.trField := if_pos htrunc.1
      rw [hone, htrunc.2]
      decide
    rw [decodePayload_none m' _ fun hpay => htr prior hpay.1,
      decodePayload_none m' _ fun hpay => htr prior' hpay.1]
    exact .ok ⟨rfl, fun _ => ⟨rfl, rfl, rfl, rfl, fun h0 => absurd h0 (htr prior),
      fun h0 => absurd h0 (htr prior)⟩⟩
  · -- the size bounds the length field
    have hle : m'.typeField = ptypeData → m'.lengthField ≤ 512 := by
      intro hd
      have htr : ¬ m'.trField = 1 := fun htr => htrunc ⟨hd, htr⟩
      simp only [Mem.datagramSize, hd, ne_eq, not_true_eq_false, if_false, htr, false_or] at hsize
      split at hsize <;> omega
    have hlength : m'.decodedLength prior = m'.decodedLength prior' := by
      by_cases hd : m'.typeField = ptypeData
      · rw [Mem.decodedLength, Mem.decodedLength, if_pos hd, if_pos hd,
          if_neg (Nat.not_lt.mpr (hle hd)), if_neg (Nat.not_lt.mpr (hle hd))]
      · rw [decodedLength_of_ne hd, decodedLength_of_ne hd]
    obtain ⟨status, q, q', hok, hok', hsame⟩ := sameDecode_of_length hlength fun hd _ => by
      rw [decodedLength_of_le hd (hle hd)]
      exact hle hd
    rw [hok, hok']
    exact .ok ⟨rfl, fun haccept => (hsame haccept).alike⟩

/-- So does the receiver, from whatever its buffer held. -/
theorem recv_alike (r : ReadResult) (m m' : Mem) (prior prior' : Pkt) :
    Agree DecodedAlike
      (pktDecode (r.fill dataBufferSize m) (sizeOfInt (r.nb dataBufferSize)) prior)
      (pktDecode (r.fill dataBufferSize m') (sizeOfInt (r.nb dataBufferSize)) prior') := by
  cases r with
  | error =>
      simp only [ReadResult.nb, pktDecode_of_error]
      exact .ok (decodedAlike_of_refused (by decide) _ _)
  | bytes data =>
      have hlen := length_take_dataBufferSize data
      rw [ReadResult.nb, sizeOfInt_natCast (by omega)]
      exact pktDecode_alike (fun i hi => Mem.blit_start m m' hi) hlen prior prior'

/-- One turn. -/
theorem readWriteLoopServer_alike {env env' : ReceiverEnv} (henv : env.SameOutside env')
    {st st' : ReceiverState} (h : st.Alike st') :
    Agree ReceiverTurn.Alike (readWriteLoopServer env st) (readWriteLoopServer env' st') := by
  simp only [readWriteLoopServer, ← henv.poll]
  split
  · exact .ok ⟨h, rfl, rfl, rfl⟩
  · exact .ok ⟨h, rfl, rfl, rfl⟩
  next r _ =>
    split
    · exact .ok ⟨⟨h.window, h.ackSize, h.ackSize', h.waitedSeqnum, h.receivePkt⟩, rfl, rfl, rfl⟩
    · apply (recv_alike r _ _ _ _).bind
      rintro ⟨resp, pkt⟩ ⟨resp', pkt'⟩ ⟨hresp, hpkt⟩
      dsimp only at hresp hpkt ⊢
      subst hresp
      split
      next hok =>
        exact packetCase_alike henv
          ⟨h.window, h.ackSize, h.ackSize', h.waitedSeqnum, h.receivePkt⟩ (hpkt hok)
      next =>
        exact .ok ⟨⟨h.window, h.ackSize, h.ackSize', h.waitedSeqnum, h.receivePkt⟩, rfl, rfl, rfl⟩

end

end SelectiveRepeat
