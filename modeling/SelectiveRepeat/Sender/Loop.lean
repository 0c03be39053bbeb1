/-
  SelectiveRepeat.Sender.Loop

  `read_write_loop_sender` (read_write_loop_sender.c), one turn of its `while (1)`
  at a time.  What a turn takes from outside (which descriptors are ready and
  what `read` returns there, the clock, the content of fresh memory, the result
  of `send`) is a `SenderEnv`; what it does is the new state, the datagrams it
  handed to `send`, and whether the function returned.
-/
import SelectiveRepeat.Queue.Queue
import SelectiveRepeat.Read
import SelectiveRepeat.Segment.Codec
import SelectiveRepeat.Stats.Stat

namespace SelectiveRepeat

/-- The calls of `gettimeofday` in one turn; `resend n` is the one of the `n`-th
    pass of the `Check RT` loop. -/
inductive ClockSite where
  | build | rtt | nack | check | resend (n : Nat) | close

/-- The calls of `pkt_new` in one turn. -/
inductive AllocSite where
  | input | socket | close

structure SenderEnv where
  /-- `poll` returned -1 -/
  pollFails : Bool
  /-- `POLLIN` on the input, and what a read of it finds -/
  input : Option ReadResult
  /-- `POLLIN` on the socket, and what a read of it finds -/
  socket : Option ReadResult
  /-- the time of day in milliseconds -/
  milliseconds : ClockSite → Int
  /-- the uninitialised block `pkt_new` returns -/
  fresh : AllocSite → Pkt
  /-- the result of sending a new packet -/
  send : Int

structure SenderState where
  pktBuffer : Mem
  nb : Int
  seqnum : UInt8
  pktInWindow : UInt8
  window : Queue
  sendingWindowSize : UInt8
  startingTimestamp : Int
  senderLogger : Logger

/-- Why `read_write_loop_sender` returned. -/
inductive SenderStop where
  | poll | encode | add | send | closed
  deriving Repr, DecidableEq

/-- The outcome of a turn: the state, the `return` taken if any, the datagrams
    handed to `send`, in order. -/
structure SenderTurn where
  state : SenderState
  stop : Option SenderStop := none
  sent : List Bytes := []

/-- Go on with the next block of the loop body, unless the last one returned. -/
def SenderTurn.andThen (t : SenderTurn) (next : SenderState → Exec SenderTurn) :
    Exec SenderTurn :=
  match t.stop with
  | some _ => .ok t
  | none => do
      let t' ← next t.state
      return { t' with sent := t.sent ++ t'.sent }

def TIMEOUT : UInt32 := 1200

/-- `current_timestamp(start)`: the cast is applied before the subtraction. -/
def currentTimestamp (milliseconds start : Int) : UInt32 :=
  UInt32.ofInt ((UInt32.ofInt milliseconds).toNat - start)

def SenderEnv.now (env : SenderEnv) (site : ClockSite) (st : SenderState) : UInt32 :=
  currentTimestamp (env.milliseconds site) st.startingTimestamp

/-- `build_pkt`: the two length arguments are `nb` converted to `uint16_t`, and no
    setter's refusal is looked at. -/
def buildPkt (pkt : Pkt) (windowSize seqnum : UInt8) (nb : Int) (payload : Bytes)
    (timestamp : UInt32) : Pkt :=
  let pkt := (pktSetType pkt 1).2
  let pkt := (pktSetTr pkt 0).2
  let pkt := (pktSetWindow pkt windowSize).2
  let pkt := (pktSetSeqnum pkt seqnum).2
  let pkt := (pktSetLength pkt (UInt16.ofInt nb)).2
  let pkt := (pktSetTimestamp pkt timestamp).2
  (pktSetPayload pkt payload (UInt16.ofInt nb)).2

/-- `sizeof(pkt_buffer)` -/
def pktBufferSize : Nat := MAX_PAYLOAD_SIZE + 16

/-! ## Event on input_fd -/

def inputBranch [Zlib] (env : SenderEnv) (st : SenderState) : Exec SenderTurn :=
  match env.input with
  | none => .ok { state := st }
  | some r =>
      -- without room in the window the input is left unread, and `nb` as it is
      if st.pktInWindow < st.sendingWindowSize then
        let st := { st with nb := r.nb MAX_PAYLOAD_SIZE }
        if st.nb ≠ 0 then do
          -- the window advertised is the room left in it
          let socketPkt := buildPkt (env.fresh .input) (st.sendingWindowSize - st.pktInWindow)
            st.seqnum st.nb r.payload (env.now .build st)
          let (status, buf, size) ← pktEncode socketPkt st.pktBuffer pktBufferSize
          let st := { st with pktBuffer := buf }
          if status ≠ .pktOk then return { state := st, stop := some .encode }
          else
            let (err, window) := st.window.add socketPkt
            let st := { st with window := window }
            if err < 0 then return { state := st, stop := some .add }
            else if env.send < 0 then
              -- the packet is in the window, but not counted
              return { state := st, stop := some .send, sent := [buf.slice 0 size] }
            else
              let st := { st with
                senderLogger := st.senderLogger.addDataSent
                pktInWindow := st.pktInWindow + 1
                seqnum := UInt8.ofNat ((st.seqnum.toNat + 1) % 256) }
              return { state := st, sent := [buf.slice 0 size] }
        else .ok { state := st }
      else .ok { state := st }

/-! ## Event on the socket -/

/-- `receive_seqnum`: the number before the one received. -/
def previousSeqnum (seqnum : UInt8) : UInt8 := if seqnum ≠ 0 then seqnum - 1 else 255

/-- What the ACK loop works on. -/
structure AckState where
  window : Queue
  pktInWindow : UInt8
  isChanged : Bool

/-- `while (is_higher_or_equal(receive_seqnum, window))`; every round takes one
    packet out. -/
def ackLoop (receive_seqnum : UInt8) : Nat → AckState → Exec AckState
  | 0, _ => .error .loop
  | fuel + 1, s => do
      if ← s.window.isHigherOrEqual receive_seqnum.toNat then
        -- `isChanged` tells a useful ACK from a duplicate
        ackLoop receive_seqnum fuel
          { window := s.window.dequeue, pktInWindow := s.pktInWindow - 1, isChanged := true }
      else return s

/-- `case 2` -/
def ackCase (env : SenderEnv) (st : SenderState) (socketPkt : Pkt) (receive_seqnum : UInt8) :
    Exec SenderTurn := do
  let l := st.senderLogger.addAckReceived
  let s ← ackLoop receive_seqnum (st.window.size.toNat + 1)
    { window := st.window, pktInWindow := st.pktInWindow, isChanged := false }
  let l :=
    if s.isChanged then l.newRtt (env.now .rtt st - socketPkt.timestamp).toInt32.toInt
    else l.addPacketIgnored
  return { state := { st with
    window := s.window
    pktInWindow := s.pktInWindow
    sendingWindowSize := UInt8.ofNat socketPkt.window.toNat
    senderLogger := l } }

/-- `case 3` -/
def nackCase [Zlib] (env : SenderEnv) (st : SenderState) (receive_seqnum : UInt8) :
    Exec SenderTurn := do
  let l := st.senderLogger.addNackReceived
  match ← st.window.get receive_seqnum none with
  | none => return { state := { st with senderLogger := l.addPacketIgnored } }
  | some got =>
      match st.window.window got.tmpPtk with
      | none => .error .null
      | some tmpPtk =>
          -- the packet in the window is changed through the pointer `get` returned
          let tmpPtk := (pktSetTimestamp tmpPtk (env.now .nack st)).2
          let st := { st with window := st.window.store got.tmpPtk tmpPtk, senderLogger := l }
          let (status, buf, size) ← pktEncode tmpPtk st.pktBuffer pktBufferSize
          let st := { st with pktBuffer := buf }
          if status ≠ .pktOk then return { state := st, stop := some .encode }
          else
            -- a `send` that fails is only reported
            let st := { st with
              senderLogger := l.addPacketRetransmitted
              sendingWindowSize :=
                if st.sendingWindowSize = 1 then 1 else st.sendingWindowSize / 2 }
            return { state := st, sent := [buf.slice 0 size] }

/-- The `switch` on the type of a packet that was decoded. -/
def socketCase [Zlib] (env : SenderEnv) (st : SenderState) (socketPkt : Pkt) : Exec SenderTurn :=
  if socketPkt.tr ≠ 1 then
    let receive_seqnum := previousSeqnum socketPkt.seqnum
    if socketPkt.type = ptypeData then
      -- DATA is ignored
      .ok { state := { st with
        senderLogger := st.senderLogger.addPacketDuplicated.addDataReceived } }
    else if socketPkt.type = ptypeAck then ackCase env st socketPkt receive_seqnum
    else if socketPkt.type = ptypeNack then nackCase env st receive_seqnum
    else .ok { state := st }
  else
    -- the decoder leaves TR at 1 on DATA only
    .ok { state := { st with senderLogger := st.senderLogger.addDataTruncatedReceived } }

/-- The decoder is given 12 bytes, however many `read` returned. -/
def socketBranch [Zlib] (env : SenderEnv) (st : SenderState) : Exec SenderTurn :=
  match env.socket with
  | none => .ok { state := st }
  | some r => do
      -- `nb` is also what the end of the input is told by
      let st := { st with nb := r.nb 12, pktBuffer := r.fill 12 st.pktBuffer }
      let (socketResp, socketPkt) ← pktDecode st.pktBuffer 12 (env.fresh .socket)
      if socketResp = .pktOk then socketCase env st socketPkt
      else return { state := { st with senderLogger := st.senderLogger.addPacketIgnored } }

/-- The state once `r` was read into the buffer. -/
def SenderState.reads (st : SenderState) (r : ReadResult) : SenderState :=
  { st with nb := r.nb 12, pktBuffer := r.fill 12 st.pktBuffer }

/-! ## Check RT -/

/-- `pkt_get_timestamp(tmpPtk) + TIMEOUT/20 < clock_time` -/
def timedOut (pkt : Pkt) (clock_time : UInt32) : Bool :=
  pkt.timestamp + TIMEOUT / 20 < clock_time

/-- `receive_seqnum=(receive_seqnum+1)%MAX_WINDOW_SIZE` -/
def nextScanned (receive_seqnum : UInt8) : UInt8 :=
  UInt8.ofNat ((receive_seqnum.toNat + 1) % MAX_WINDOW_SIZE)

/-- `while (get(window, receive_seqnum, &tmpPtk, supportInt))`, from its `n`-th
    pass on. -/
def checkRtLoop [Zlib] (env : SenderEnv) (clock_time : UInt32) (first : UInt8) :
    Nat → Nat → Bool → UInt8 → Option (Fin MAX_WINDOW_SIZE) → SenderState → Exec SenderTurn
  | 0, _, _, _, _, _ => .error .loop
  | fuel + 1, n, firstTime, receive_seqnum, supportInt, st => do
      match ← st.window.get receive_seqnum supportInt with
      | none => return { state := st }
      | some got =>
          match st.window.window got.tmpPtk with
          | none => .error .null
          | some tmpPtk =>
              -- back at the packet the walk started with
              if first = tmpPtk.seqnum ∧ ¬ firstTime then return { state := st }
              else if timedOut tmpPtk clock_time then
                let tmpPtk := (pktSetTimestamp tmpPtk (env.now (.resend n) st)).2
                let st := { st with window := st.window.store got.tmpPtk tmpPtk }
                let (status, buf, size) ← pktEncode tmpPtk st.pktBuffer pktBufferSize
                let st := { st with pktBuffer := buf }
                if status ≠ .pktOk then return { state := st, stop := some .encode }
                else
                  -- the result of `send` is only reported
                  let st := { st with senderLogger := st.senderLogger.addPacketRetransmitted }
                  let t ← checkRtLoop env clock_time first fuel (n + 1) false
                    (nextScanned receive_seqnum) (some got.supportIt) st
                  return { t with sent := buf.slice 0 size :: t.sent }
              else
                checkRtLoop env clock_time first fuel (n + 1) false
                  (nextScanned receive_seqnum) (some got.supportIt) st

/-- Two turns of the ring bound the scan. -/
def checkRt [Zlib] (env : SenderEnv) (st : SenderState) : Exec SenderTurn :=
  let clock_time := env.now .check st
  match st.window.peek with
  | none => .ok { state := st }
  | some tmpPtk =>
      checkRtLoop env clock_time tmpPtk.seqnum (2 * MAX_WINDOW_SIZE) 0 true tmpPtk.seqnum none st

/-! ## The end of the transfer and the whole turn -/

/-- The empty DATA packet that closes the receiver. -/
def closeBranch [Zlib] (env : SenderEnv) (st : SenderState) : Exec SenderTurn :=
  -- the last read was the end of the input, and everything is acknowledged
  if st.nb = 0 ∧ st.pktInWindow = 0 then do
    let socketPkt := buildPkt (env.fresh .close) st.sendingWindowSize st.seqnum 0 []
      (env.now .close st)
    let (status, buf, size) ← pktEncode socketPkt st.pktBuffer pktBufferSize
    let st := { st with pktBuffer := buf }
    if status ≠ .pktOk then return { state := st, stop := some .encode }
    else
      let st := { st with senderLogger := st.senderLogger.addDataSent }
      return { state := st, stop := some .closed, sent := [buf.slice 0 size] }
  else .ok { state := st }

/-- One turn of the loop. -/
def readWriteLoopSender [Zlib] (env : SenderEnv) (st : SenderState) : Exec SenderTurn :=
  if env.pollFails then .ok { state := st, stop := some .poll }
  else do
    -- the blocks of the body, in order; both descriptors can be ready in one turn
    let t ← inputBranch env st
    let t ← t.andThen (socketBranch env)
    let t ← t.andThen (checkRt env)
    t.andThen (closeBranch env)

/-- The state the loop is entered in; `buf` and `mem` are uninitialised memory. -/
def senderInit (buf : Mem) (mem : Logger) (statsFile : Bool) (start : Int) : SenderState where
  pktBuffer := buf
  nb := 0
  seqnum := 0
  pktInWindow := 0
  window := Queue.newList
  sendingWindowSize := 1
  startingTimestamp := start
  senderLogger := Logger.newLogger true statsFile mem

end SelectiveRepeat
