/-
  SelectiveRepeat.Sender.Pointers

  `read_write_loop_sender` and its queue with the pointers they follow.  A packet is a
  block that `pkt_new` allocates and `pkt_del` frees; the slots of the ring and `tmpPtk`
  hold addresses.  Whatever is not a packet is as in the model without pointers.
-/
import SelectiveRepeat.Segment.Pointer
import SelectiveRepeat.Sender.Loop

namespace SelectiveRepeat.Pointers

/-! ## queue.c -/

/-- `queue`; `none` is `NULL`. -/
structure Queue where
  window : Fin MAX_WINDOW_SIZE → Option Nat
  size : Int
  ptrAdd : Fin MAX_WINDOW_SIZE
  ptrPop : Fin MAX_WINDOW_SIZE

namespace Queue

def newList : Queue where
  size := 0
  ptrAdd := 0
  ptrPop := 0
  window := fun _ => none

def add (list : Queue) (packet : Nat) : Int × Queue :=
  -- whatever the slot led to is lost
  (0, { list with
    window := Function.update list.window list.ptrAdd (some packet)
    ptrAdd := list.ptrAdd + 1
    size := list.size + 1 })

def peek (list : Queue) : Option Nat :=
  if list.size ≠ 0 then list.window list.ptrPop else none

/-- The packet in the slot is freed. -/
def dequeue (list : Queue) (heap : Storage Pkt) : Exec (Queue × Storage Pkt) := do
  let heap ← pktDel heap (list.window list.ptrPop)
  return ({ list with
    window := Function.update list.window list.ptrPop none
    ptrPop := 1 + list.ptrPop
    size := list.size - 1 }, heap)

def isEmpty (list : Queue) : Bool := list.size = 0

def isHigherOrEqual (seqnum : Int) (list : Queue) (heap : Storage Pkt) : Exec Bool :=
  if isEmpty list then .ok false
  else do
    let ref ← load heap (peek list)
    return SelectiveRepeat.Queue.seqnumHigherOrEqual seqnum ref.seqnum

/-- The `while` of `get`. -/
def getLoop (list : Queue) (heap : Storage Pkt) (receive_seqnum : UInt8) :
    Nat → Bool → Fin MAX_WINDOW_SIZE → Exec (Option (Fin MAX_WINDOW_SIZE))
  | 0, _, _ => .error (.code .loop)
  | fuel + 1, firstTime, index =>
      match list.window index with
      | none => .ok none
      | some p => do
          let pkt ← load heap (some p)
          if pkt.seqnum ≠ receive_seqnum then
            if ¬ firstTime ∧ index = list.ptrPop then return none
            else getLoop list heap receive_seqnum fuel false (index + 1)
          else return some index

/-- What a successful `get` sets. -/
structure Got where
  tmpPtk : Option Nat
  supportIt : Fin MAX_WINDOW_SIZE

def get (list : Queue) (heap : Storage Pkt) (receive_seqnum : UInt8)
    (supportIt : Option (Fin MAX_WINDOW_SIZE)) : Exec (Option Got) := do
  let index := supportIt.getD list.ptrPop
  match ← getLoop list heap receive_seqnum (MAX_WINDOW_SIZE + 1) true index with
  | none => return none
  | some index => return some { tmpPtk := list.window index, supportIt := index + 1 }

end Queue

/-! ## read_write_loop_sender.c -/

namespace Sender

/-- A turn from outside, and what `malloc` answers in it. -/
structure Env extends SenderEnv where
  malloc : AllocSite → Allocator

structure State where
  heap : Storage Pkt
  pktBuffer : Mem
  nb : Int
  seqnum : UInt8
  pktInWindow : UInt8
  window : Queue
  sendingWindowSize : UInt8
  /-- it keeps its address from turn to turn, also when the block has been freed -/
  tmpPtk : Option Nat
  startingTimestamp : Int
  senderLogger : Logger

structure Turn where
  state : State
  stop : Option SenderStop := none
  sent : List Bytes := []

def Turn.andThen (t : Turn) (next : State → Exec Turn) : Exec Turn :=
  match t.stop with
  | some _ => .ok t
  | none => do
      let t' ← next t.state
      return { t' with sent := t.sent ++ t'.sent }

def Env.now (env : Env) (site : ClockSite) (st : State) : UInt32 :=
  currentTimestamp (env.milliseconds site) st.startingTimestamp

def inputBranch [Zlib] (env : Env) (st : State) : Exec Turn :=
  match env.input with
  | none => .ok { state := st }
  | some r =>
      if st.pktInWindow < st.sendingWindowSize then
        let st := { st with nb := r.nb MAX_PAYLOAD_SIZE }
        if st.nb ≠ 0 then do
          let (socketPkt, heap) := pktNew st.heap (env.malloc .input) (env.fresh .input)
          let heap ← modify heap (some socketPkt) fun pkt =>
            buildPkt pkt (st.sendingWindowSize - st.pktInWindow) st.seqnum st.nb r.payload
              (env.now .build st)
          let pkt ← load heap (some socketPkt)
          let (status, buf, size) ← lift (pktEncode pkt st.pktBuffer pktBufferSize)
          let st := { st with heap := heap, pktBuffer := buf }
          if status ≠ .pktOk then return { state := st, stop := some .encode }
          else
            let (err, window) := st.window.add socketPkt
            let st := { st with window := window }
            if err < 0 then return { state := st, stop := some .add }
            else if env.send < 0 then
              return { state := st, stop := some .send, sent := [buf.slice 0 size] }
            else
              let st := { st with
                senderLogger := st.senderLogger.addDataSent
                pktInWindow := st.pktInWindow + 1
                seqnum := UInt8.ofNat ((st.seqnum.toNat + 1) % 256) }
              return { state := st, sent := [buf.slice 0 size] }
        else .ok { state := st }
      else .ok { state := st }

/-- What the ACK loop works on. -/
structure AckState where
  window : Queue
  heap : Storage Pkt
  pktInWindow : UInt8
  isChanged : Bool

def ackLoop (receive_seqnum : UInt8) : Nat → AckState → Exec AckState
  | 0, _ => .error (.code .loop)
  | fuel + 1, s => do
      if ← s.window.isHigherOrEqual receive_seqnum.toNat s.heap then
        let (window, heap) ← s.window.dequeue s.heap
        ackLoop receive_seqnum fuel
          { window := window, heap := heap, pktInWindow := s.pktInWindow - 1, isChanged := true }
      else return s

/-- `case 2` -/
def ackCase (env : Env) (st : State) (socketPkt : Nat) (receive_seqnum : UInt8) : Exec Turn := do
  let l := st.senderLogger.addAckReceived
  let s ← ackLoop receive_seqnum (st.window.size.toNat + 1)
    { window := st.window, heap := st.heap, pktInWindow := st.pktInWindow, isChanged := false }
  let pkt ← load s.heap (some socketPkt)
  let l :=
    if s.isChanged then l.newRtt (env.now .rtt st - pkt.timestamp).toInt32.toInt
    else l.addPacketIgnored
  return { state := { st with
    heap := s.heap
    window := s.window
    pktInWindow := s.pktInWindow
    sendingWindowSize := UInt8.ofNat pkt.window.toNat
    senderLogger := l } }

/-- `case 3` -/
def nackCase [Zlib] (env : Env) (st : State) (receive_seqnum : UInt8) : Exec Turn := do
  let l := st.senderLogger.addNackReceived
  match ← st.window.get st.heap receive_seqnum none with
  | none => return { state := { st with senderLogger := l.addPacketIgnored } }
  | some got =>
      let now := env.now .nack st
      let heap ← modify st.heap got.tmpPtk fun pkt => (pktSetTimestamp pkt now).2
      let tmpPtk ← load heap got.tmpPtk
      let (status, buf, size) ← lift (pktEncode tmpPtk st.pktBuffer pktBufferSize)
      let st := { st with heap := heap, tmpPtk := got.tmpPtk, pktBuffer := buf, senderLogger := l }
      if status ≠ .pktOk then return { state := st, stop := some .encode }
      else
        let st := { st with
          senderLogger := l.addPacketRetransmitted
          sendingWindowSize :=
            if st.sendingWindowSize = 1 then 1 else st.sendingWindowSize / 2 }
        return { state := st, sent := [buf.slice 0 size] }

/-- The `switch` on the type of the packet behind `socketPkt`. -/
def socketCase [Zlib] (env : Env) (st : State) (socketPkt : Nat) : Exec Turn := do
  let pkt ← load st.heap (some socketPkt)
  if pkt.tr ≠ 1 then
    let receive_seqnum := previousSeqnum pkt.seqnum
    if pkt.type = ptypeData then
      return { state := { st with
        senderLogger := st.senderLogger.addPacketDuplicated.addDataReceived } }
    else if pkt.type = ptypeAck then ackCase env st socketPkt receive_seqnum
    else if pkt.type = ptypeNack then nackCase env st receive_seqnum
    else return { state := st }
  else
    return { state := { st with senderLogger := st.senderLogger.addDataTruncatedReceived } }

def socketBranch [Zlib] (env : Env) (st : State) : Exec Turn :=
  match env.socket with
  | none => .ok { state := st }
  | some r => do
      let st := { st with nb := r.nb 12, pktBuffer := r.fill 12 st.pktBuffer }
      let (socketPkt, heap) := pktNew st.heap (env.malloc .socket) (env.fresh .socket)
      let pkt ← load heap (some socketPkt)
      let (socketResp, pkt) ← lift (pktDecode st.pktBuffer 12 pkt)
      let heap ← store heap (some socketPkt) pkt
      let st := { st with heap := heap }
      if socketResp = .pktOk then
        let t ← socketCase env st socketPkt
        -- a `return` in the `switch` leaves the block allocated
        if t.stop ≠ none then return t
        else
          let heap ← pktDel t.state.heap (some socketPkt)
          return { t with state := { t.state with heap := heap } }
      else
        -- so does a datagram that was rejected
        return { state := { st with senderLogger := st.senderLogger.addPacketIgnored } }

/-- `while (get(window, receive_seqnum, &tmpPtk, supportInt))`, from its `n`-th
    pass on. -/
def checkRtLoop [Zlib] (env : Env) (clock_time : UInt32) (first : UInt8) :
    Nat → Nat → Bool → UInt8 → Option (Fin MAX_WINDOW_SIZE) → State → Exec Turn
  | 0, _, _, _, _, _ => .error (.code .loop)
  | fuel + 1, n, firstTime, receive_seqnum, supportInt, st => do
      match ← st.window.get st.heap receive_seqnum supportInt with
      | none => return { state := st }
      | some got =>
          let st := { st with tmpPtk := got.tmpPtk }
          let tmpPtk ← load st.heap st.tmpPtk
          if first = tmpPtk.seqnum ∧ ¬ firstTime then return { state := st }
          else if timedOut tmpPtk clock_time then
            let now := env.now (.resend n) st
            let heap ← modify st.heap st.tmpPtk fun pkt => (pktSetTimestamp pkt now).2
            let tmpPtk ← load heap st.tmpPtk
            let (status, buf, size) ← lift (pktEncode tmpPtk st.pktBuffer pktBufferSize)
            let st := { st with heap := heap, pktBuffer := buf }
            if status ≠ .pktOk then return { state := st, stop := some .encode }
            else
              let st := { st with senderLogger := st.senderLogger.addPacketRetransmitted }
              let t ← checkRtLoop env clock_time first fuel (n + 1) false
                (nextScanned receive_seqnum) (some got.supportIt) st
              return { t with sent := buf.slice 0 size :: t.sent }
          else
            checkRtLoop env clock_time first fuel (n + 1) false
              (nextScanned receive_seqnum) (some got.supportIt) st

def checkRt [Zlib] (env : Env) (st : State) : Exec Turn :=
  let clock_time := env.now .check st
  let st := { st with tmpPtk := st.window.peek }
  match st.tmpPtk with
  | none => .ok { state := st }
  | some tmpPtk => do
      let pkt ← load st.heap (some tmpPtk)
      let first ← load st.heap st.window.peek
      checkRtLoop env clock_time first.seqnum (2 * MAX_WINDOW_SIZE) 0 true pkt.seqnum none st

def closeBranch [Zlib] (env : Env) (st : State) : Exec Turn :=
  if st.nb = 0 ∧ st.pktInWindow = 0 then do
    let (socketPkt, heap) := pktNew st.heap (env.malloc .close) (env.fresh .close)
    let heap ← modify heap (some socketPkt) fun pkt =>
      buildPkt pkt st.sendingWindowSize st.seqnum 0 [] (env.now .close st)
    let pkt ← load heap (some socketPkt)
    let (status, buf, size) ← lift (pktEncode pkt st.pktBuffer pktBufferSize)
    let st := { st with heap := heap, pktBuffer := buf }
    if status ≠ .pktOk then return { state := st, stop := some .encode }
    else
      let st := { st with senderLogger := st.senderLogger.addDataSent }
      -- `del_list` frees the ring and none of the packets it leads to
      let heap ← pktDel st.heap (some socketPkt)
      let heap ← pktDel heap st.tmpPtk
      return { state := { st with heap := heap }, stop := some .closed, sent := [buf.slice 0 size] }
  else .ok { state := st }

/-- One turn of the loop. -/
def readWriteLoopSender [Zlib] (env : Env) (st : State) : Exec Turn :=
  if env.pollFails then .ok { state := st, stop := some .poll }
  else do
    let t ← inputBranch env st
    let t ← t.andThen (socketBranch env)
    let t ← t.andThen (checkRt env)
    t.andThen (closeBranch env)

/-- The state the loop is entered in: no packet is allocated, and `tmpPtk` is whatever was
    on the stack. -/
def senderInit (content : Nat → Pkt) (buf : Mem) (mem : Logger) (tmpPtk : Option Nat)
    (statsFile : Bool) (start : Int) : State where
  heap := Storage.empty content
  pktBuffer := buf
  nb := 0
  seqnum := 0
  pktInWindow := 0
  window := Queue.newList
  sendingWindowSize := 1
  tmpPtk := tmpPtk
  startingTimestamp := start
  senderLogger := Logger.newLogger true statsFile mem

end Sender

end SelectiveRepeat.Pointers
