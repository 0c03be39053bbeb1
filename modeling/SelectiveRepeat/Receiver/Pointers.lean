/-
  SelectiveRepeat.Receiver.Pointers

  `read_write_loop_server` with the pointers it follows: `pkt`, which one block serves for
  the whole run, the packet of each reply, and the elements of the window.  Packets and
  elements are blocks of different types, and each type has a storage of its own.
-/
import SelectiveRepeat.Receiver.Loop
import SelectiveRepeat.SortedList.Pointers

namespace SelectiveRepeat.Pointers.Receiver

/-- A turn from outside, and what `malloc` answers in `pkt_new` and in `add`. -/
structure Env extends ReceiverEnv where
  pktNew : Allocator
  add : Allocator

structure State where
  packets : Storage Pkt
  elements : Storage Pstl
  window : SortedList
  dataBuffer : Mem
  buffer : Mem
  ackSize : Nat
  waitedSeqnum : UInt8
  receivePkt : UInt64
  pkt : Nat
  receiverLogger : Logger

structure Turn where
  state : State
  stop : Option ReceiverStop := none
  written : List (Bytes × Int) := []
  sent : List Bytes := []

def sendReply [Zlib] (env : Env) (st : State) (written : List (Bytes × Int)) (timestamp : UInt32)
    (type : UInt32) (count : Logger → Logger) : Exec Turn := do
  let (ackPkt, packets) := pktNew st.packets env.pktNew env.fresh
  let packets ← modify packets (some ackPkt) fun pkt =>
    buildAck pkt timestamp st.waitedSeqnum type
  let pkt ← load packets (some ackPkt)
  let (_, buffer, ackSize) ← lift (pktEncode pkt st.buffer st.ackSize)
  let st := { st with packets := packets, buffer := buffer, ackSize := ackSize }
  let sent := [buffer.slice 0 ackSize]
  if env.send = 0 then return { state := st, stop := some .send, written := written, sent := sent }
  else
    let st := { st with receiverLogger := count st.receiverLogger }
    let packets ← pktDel st.packets (some ackPkt)
    return { state := { st with packets := packets }, written := written, sent := sent }

def truncatedCase [Zlib] (env : Env) (st : State) : Exec Turn := do
  let st := { st with receiverLogger := st.receiverLogger.addDataTruncatedReceived }
  let pkt ← load st.packets (some st.pkt)
  sendReply env st [] pkt.timestamp 3 Logger.addNackSent

/-- What the loop that empties the window works on. -/
structure DrainState where
  packets : Storage Pkt
  elements : Storage Pstl
  window : SortedList
  waitedSeqnum : UInt8
  timestampAck : UInt32
  receivePkt : UInt64
  written : List (Bytes × Int)

def drainLoop (env : Env) (pkt : Nat) : Nat → DrainState → Exec (DrainState × Option ReceiverStop)
  | 0, _ => .error (.code .loop)
  | fuel + 1, s =>
      if s.window.isEmpty then .ok (s, none)
      else do
        match ← s.window.peek with
        | (none, _) => .error (.code .null)
        | (some p, window) =>
            let s := { s with window := window }
            let elem ← load s.elements (some p)
            if s.waitedSeqnum = elem.seqnum then
              if elem.length = 0 then
                -- `del_list` frees the list and none of the elements left in it
                let packets ← pktDel s.packets (some pkt)
                return ({ s with packets := packets }, some .storedDisconnect)
              else
                let payload ← lift (readPstl elem)
                let nb := env.write s.written.length payload
                let s := { s with written := s.written ++ [(payload, nb)] }
                if nb = 0 then return (s, some .write)
                else
                  let (window, elements) ← s.window.pop s.elements
                  drainLoop env pkt fuel { s with
                    elements := elements
                    window := window
                    waitedSeqnum := s.waitedSeqnum + 1
                    timestampAck := elem.timestamp
                    receivePkt := s.receivePkt + 1 }
            else return (s, none)

def waitedCase [Zlib] (env : Env) (st : State) : Exec Turn := do
  let pkt ← load st.packets (some st.pkt)
  if pkt.length = 0 then
    let packets ← pktDel st.packets (some st.pkt)
    return { state := { st with packets := packets }, stop := some .disconnect }
  else
    let oldSeqnum := st.waitedSeqnum
    let payload ← lift (readPayload pkt)
    let nb := env.write 0 payload
    if nb = 0 then return { state := st, stop := some .write, written := [(payload, nb)] }
    else
      let (s, stop) ← drainLoop env st.pkt (st.window.size.toNat + 1)
        { packets := st.packets
          elements := st.elements
          window := st.window
          waitedSeqnum := st.waitedSeqnum + 1
          timestampAck := pkt.timestamp
          receivePkt := 1
          written := [(payload, nb)] }
      let st := { st with
        packets := s.packets
        elements := s.elements
        window := s.window
        waitedSeqnum := s.waitedSeqnum
        receivePkt := s.receivePkt }
      match stop with
      | some reason => return { state := st, stop := some reason, written := s.written }
      | none =>
          let window ← st.window.reset st.waitedSeqnum oldSeqnum
          sendReply env { st with window := window } s.written s.timestampAck 2 Logger.addAckSent

def storeCase (env : Env) (st : State) : Exec (State × Option ReceiverStop) := do
  let pkt ← load st.packets (some st.pkt)
  if inWindow st.waitedSeqnum pkt.seqnum then
    let st := { st with receiverLogger := st.receiverLogger.addDataReceived }
    let (res, window, elements) ← st.window.add st.elements pkt st.waitedSeqnum env.add env.malloc
    let st := { st with window := window, elements := elements }
    if res = -1 then return (st, some .add)
    else if res = 1 then
      return ({ st with
        receiverLogger := st.receiverLogger.addPacketIgnored.addPacketDuplicated }, none)
    else return (st, none)
  else return ({ st with receiverLogger := st.receiverLogger.addPacketIgnored }, none)

def unwaitedCase [Zlib] (env : Env) (st : State) : Exec Turn := do
  let (st, stop) ← storeCase env st
  if stop.isSome then return { state := st, stop := stop }
  else if st.receivePkt ≠ 0 then
    let pkt ← load st.packets (some st.pkt)
    sendReply env st [] pkt.timestamp 2 Logger.addAckSent
  else return { state := st }

/-- `case 1` -/
def dataCase [Zlib] (env : Env) (st : State) : Exec Turn := do
  let st := { st with receiverLogger := st.receiverLogger.addDataReceived }
  let pkt ← load st.packets (some st.pkt)
  if pkt.tr = 1 then truncatedCase env st
  else if pkt.seqnum = st.waitedSeqnum then waitedCase env st
  else unwaitedCase env st

def packetCase [Zlib] (env : Env) (st : State) : Exec Turn := do
  let pkt ← load st.packets (some st.pkt)
  if pkt.type = ptypeData then dataCase env st
  else if pkt.type = ptypeAck then
    return { state := { st with receiverLogger := st.receiverLogger.addAckReceived } }
  else if pkt.type = ptypeNack then
    return { state := { st with receiverLogger := st.receiverLogger.addNackReceived } }
  else return { state := st }

/-- One turn of the loop. -/
def readWriteLoopServer [Zlib] (env : Env) (st : State) : Exec Turn :=
  match env.poll with
  | .timeout => .ok { state := st, stop := some .timeout }
  | .idle => .ok { state := st }
  | .ready r => do
      let nb := r.nb dataBufferSize
      let st := { st with dataBuffer := r.fill dataBufferSize st.dataBuffer }
      if nb = 0 then return { state := st, stop := some .empty }
      else
        let pkt ← load st.packets (some st.pkt)
        let (resp, pkt) ← lift (pktDecode st.dataBuffer (sizeOfInt nb) pkt)
        let packets ← store st.packets (some st.pkt) pkt
        let st := { st with packets := packets }
        if resp = .pktOk then packetCase env st
        else return { state := { st with receiverLogger := st.receiverLogger.addPacketIgnored } }

/-- What `malloc` and the stack hand `read_write_loop_server`: also the contents of the blocks
    that are not allocated yet. -/
structure Memory where
  window : SortedList
  elements : Nat → Pstl
  packets : Nat → Pkt
  dataBuffer : Mem
  buffer : Mem
  pktNew : Allocator
  pkt : Pkt
  receiverLogger : Logger

/-- The state the loop is entered in; `pkt` is the first packet. -/
def receiverInit (mem : Memory) (statFile : Bool) : State :=
  let (pkt, packets) := pktNew (Storage.empty mem.packets) mem.pktNew mem.pkt
  { packets := packets
    elements := Storage.empty mem.elements
    window := SortedList.newList mem.window
    dataBuffer := mem.dataBuffer
    buffer := mem.buffer
    ackSize := ACK_PKT_SIZE
    waitedSeqnum := 0
    receivePkt := 0
    pkt := pkt
    receiverLogger := Logger.newLogger false statFile mem.receiverLogger }

end SelectiveRepeat.Pointers.Receiver
