/-
  SelectiveRepeat.Receiver.Loop

  `read_write_loop_server` (read_write_loop_server.c), one turn of its `while (1)`
  at a time.  A turn takes from outside what `poll` and `recv` report, the results
  of `write` and `send`, and fresh memory; it handles at most one datagram.
-/
import SelectiveRepeat.Read
import SelectiveRepeat.Segment.Codec
import SelectiveRepeat.SortedList.SortedList
import SelectiveRepeat.Stats.Stat

namespace SelectiveRepeat

/-- `poll` timed out, reported no event, or reported one and `recv` was called. -/
inductive ReceiverPoll where
  | timeout
  | idle
  | ready (recv : ReadResult)

structure ReceiverEnv where
  poll : ReceiverPoll
  /-- the result of the `n`-th write of the turn, when asked to write these bytes -/
  write : Nat → Bytes → Int
  /-- the result of `send` -/
  send : Int
  /-- the uninitialised block `pkt_new` returns -/
  fresh : Pkt
  /-- the block `malloc` returns in `add`, if any -/
  malloc : Option Pstl

structure ReceiverState where
  window : SortedList
  dataBuffer : Mem
  buffer : Mem
  ackSize : Nat
  waitedSeqnum : UInt8
  receivePkt : UInt64
  pkt : Pkt
  receiverLogger : Logger

/-- Why `read_write_loop_server` returned. -/
inductive ReceiverStop where
  | timeout | empty | disconnect | storedDisconnect | write | send | add
  deriving Repr, DecidableEq

/-- The outcome of a turn: the state, the `return` taken if any, what was handed to
    `write` with the results, and what was handed to `send`. -/
structure ReceiverTurn where
  state : ReceiverState
  stop : Option ReceiverStop := none
  written : List (Bytes × Int) := []
  sent : List Bytes := []

def ACK_PKT_SIZE : Nat := 10

def inWindow (waited received : UInt8) : Bool :=
  if received.toNat ≥ waited.toNat then (received.toNat : Int) - waited.toNat ≤ 32
  else (256 + received.toNat : Int) - waited.toNat ≤ 32

/-- `build_ack`; `type` is the value of the enumerator. -/
def buildAck (pkt : Pkt) (timestamp : UInt32) (seqnum : UInt8) (type : UInt32) : Pkt :=
  -- the window advertised is always the size of the array
  let pkt := (pktSetType pkt type).2
  let pkt := (pktSetTr pkt 0).2
  let pkt := (pktSetWindow pkt (UInt8.ofNat MAX_WINDOW_SIZE)).2
  let pkt := (pktSetSeqnum pkt seqnum).2
  let pkt := (pktSetLength pkt 0).2
  (pktSetTimestamp pkt timestamp).2

/-- The blocks that send an ACK or a NACK: `count` is the counter they end with. -/
def sendReply [Zlib] (env : ReceiverEnv) (st : ReceiverState) (written : List (Bytes × Int))
    (timestamp : UInt32) (type : UInt32) (count : Logger → Logger) : Exec ReceiverTurn := do
  let ackPkt := buildAck env.fresh timestamp st.waitedSeqnum type
  let (_, buffer, ackSize) ← pktEncode ackPkt st.buffer st.ackSize
  let st := { st with buffer := buffer, ackSize := ackSize }
  let sent := [buffer.slice 0 ackSize]
  -- only a result of 0 ends the loop, not an error
  if env.send = 0 then return { state := st, stop := some .send, written := written, sent := sent }
  else
    let st := { st with receiverLogger := count st.receiverLogger }
    return { state := st, written := written, sent := sent }

/-! ## A truncated packet -/

def truncatedCase [Zlib] (env : ReceiverEnv) (st : ReceiverState) : Exec ReceiverTurn :=
  let st := { st with receiverLogger := st.receiverLogger.addDataTruncatedReceived }
  -- 3 is `PTYPE_NACK`; the number sent is the expected one
  sendReply env st [] st.pkt.timestamp 3 Logger.addNackSent

/-! ## The expected packet -/

/-- What the loop that empties the window works on. -/
structure DrainState where
  window : SortedList
  waitedSeqnum : UInt8
  timestampAck : UInt32
  receivePkt : UInt64
  written : List (Bytes × Int)

/-- `while (!is_empty(window) && waitedSeqnum==peek(window)->seqnum)`; the source
    calls `peek` again for each field it reads, which finds the same packet. -/
def drainLoop (env : ReceiverEnv) : Nat → DrainState → Exec (DrainState × Option ReceiverStop)
  | 0, _ => .error .loop
  | fuel + 1, s =>
      if s.window.isEmpty then .ok (s, none)
      else do
        match ← s.window.peek with
        | (none, _) => .error .null
        | (some elem, window) =>
            let s := { s with window := window }
            if s.waitedSeqnum = elem.seqnum then
              -- the end of the transfer was stored before the packets in front of it
              if elem.length = 0 then return (s, some .storedDisconnect)
              else
                -- a write that takes less than it is given is not repeated
                let payload ← readPstl elem
                let nb := env.write s.written.length payload
                let s := { s with written := s.written ++ [(payload, nb)] }
                if nb = 0 then return (s, some .write)
                else
                  -- the slots keep their indices until `reset`
                  let window ← s.window.pop
                  drainLoop env fuel { s with
                    window := window
                    waitedSeqnum := s.waitedSeqnum + 1
                    timestampAck := elem.timestamp
                    receivePkt := s.receivePkt + 1 }
            else return (s, none)

def waitedCase [Zlib] (env : ReceiverEnv) (st : ReceiverState) : Exec ReceiverTurn :=
  if st.pkt.length = 0 then .ok { state := st, stop := some .disconnect }
  else do
    let oldSeqnum := st.waitedSeqnum
    let payload ← readPayload st.pkt
    let nb := env.write 0 payload
    if nb = 0 then return { state := st, stop := some .write, written := [(payload, nb)] }
    else
      let (s, stop) ← drainLoop env (st.window.size.toNat + 1)
        { window := st.window
          waitedSeqnum := st.waitedSeqnum + 1
          timestampAck := st.pkt.timestamp
          receivePkt := 1
          written := [(payload, nb)] }
      let st := { st with
        window := s.window, waitedSeqnum := s.waitedSeqnum, receivePkt := s.receivePkt }
      match stop with
      | some reason => return { state := st, stop := some reason, written := s.written }
      | none =>
          -- the window is moved once, by all that was written
          let window ← st.window.reset st.waitedSeqnum oldSeqnum
          sendReply env { st with window := window } s.written s.timestampAck 2 Logger.addAckSent

/-! ## Any other number -/

/-- The `switch` on the result of `add`; `none` is the error. -/
def storeCase (env : ReceiverEnv) (st : ReceiverState) : Exec (ReceiverState × Option ReceiverStop) :=
  if inWindow st.waitedSeqnum st.pkt.seqnum then do
    let st := { st with receiverLogger := st.receiverLogger.addDataReceived }
    -- the index `add` uses is not compared with the bound of `in_window`
    let (res, window) ← st.window.add st.pkt st.waitedSeqnum env.malloc
    let st := { st with window := window }
    if res = -1 then return (st, some .add)
    else if res = 1 then
      return ({ st with
        receiverLogger := st.receiverLogger.addPacketIgnored.addPacketDuplicated }, none)
    else return (st, none)
  else .ok ({ st with receiverLogger := st.receiverLogger.addPacketIgnored }, none)

def unwaitedCase [Zlib] (env : ReceiverEnv) (st : ReceiverState) : Exec ReceiverTurn := do
  let (st, stop) ← storeCase env st
  if stop.isSome then return { state := st, stop := stop }
  -- the last ACK is repeated, once something was received in order
  else if st.receivePkt ≠ 0 then sendReply env st [] st.pkt.timestamp 2 Logger.addAckSent
  else return { state := st }

/-! ## The turn -/

/-- `case 1` -/
def dataCase [Zlib] (env : ReceiverEnv) (st : ReceiverState) : Exec ReceiverTurn :=
  let st := { st with receiverLogger := st.receiverLogger.addDataReceived }
  if st.pkt.tr = 1 then truncatedCase env st
  else if st.pkt.seqnum = st.waitedSeqnum then waitedCase env st
  else unwaitedCase env st

/-- The `switch` on the type of a packet that was decoded. -/
def packetCase [Zlib] (env : ReceiverEnv) (st : ReceiverState) : Exec ReceiverTurn :=
  if st.pkt.type = ptypeData then dataCase env st
  else if st.pkt.type = ptypeAck then
    .ok { state := { st with receiverLogger := st.receiverLogger.addAckReceived } }
  else if st.pkt.type = ptypeNack then
    .ok { state := { st with receiverLogger := st.receiverLogger.addNackReceived } }
  else .ok { state := st }

/-- The size of `data_buffer`. -/
def dataBufferSize : Nat := MAX_PAYLOAD_SIZE + 16

/-- One turn of the loop. -/
def readWriteLoopServer [Zlib] (env : ReceiverEnv) (st : ReceiverState) : Exec ReceiverTurn :=
  match env.poll with
  | .timeout => .ok { state := st, stop := some .timeout }
  | .idle => .ok { state := st }
  | .ready r => do
      let nb := r.nb dataBufferSize
      let st := { st with dataBuffer := r.fill dataBufferSize st.dataBuffer }
      if nb = 0 then return { state := st, stop := some .empty }
      else
        -- an error of `recv` is not looked at: -1 becomes a huge length
        let (resp, pkt) ← pktDecode st.dataBuffer (sizeOfInt nb) st.pkt
        let st := { st with pkt := pkt }
        if resp = .pktOk then packetCase env st
        else return { state := { st with receiverLogger := st.receiverLogger.addPacketIgnored } }

/-- What `malloc` and the stack hand `read_write_loop_server`. -/
structure ReceiverMemory where
  window : SortedList
  dataBuffer : Mem
  buffer : Mem
  pkt : Pkt
  receiverLogger : Logger

/-- The state the loop is entered in. -/
def receiverInit (mem : ReceiverMemory) (statFile : Bool) : ReceiverState where
  window := SortedList.newList mem.window
  dataBuffer := mem.dataBuffer
  buffer := mem.buffer
  ackSize := ACK_PKT_SIZE
  waitedSeqnum := 0
  receivePkt := 0
  pkt := mem.pkt
  receiverLogger := Logger.newLogger false statFile mem.receiverLogger

end SelectiveRepeat
