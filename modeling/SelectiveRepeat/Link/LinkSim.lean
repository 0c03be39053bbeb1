/-
  SelectiveRepeat.Link.LinkSim

  The link simulator (link_sim.c), one turn of the loop of `proxy_loop` at a time.
  What a turn takes from outside (`select`, the clock, `recvfrom`, the results of
  `sendto`, the random numbers and memory) is a `LinkEnv`; what it does is the new
  state and the datagrams that `sendto` took.
-/
import SelectiveRepeat.Lib.Bytes
import SelectiveRepeat.Link.MinQueue
import Mathlib.Data.Prod.Lex

namespace SelectiveRepeat

def MIN_PKT_LEN : Nat := 10
def MIN_PKT_PDATA_LEN : Nat := 12
def MAX_PKT_LEN : Nat := MIN_PKT_LEN + 2 + 512 + 4

/-- The direction of a datagram. -/
inductive Direction where
  | forward | reverse
  deriving Repr, DecidableEq

/-- `link_direction`: the directions in which the link is simulated. -/
inductive LinkDirection where
  | forward | reverse | bothWays
  deriving Repr, DecidableEq

/-- `SAME_DIRECTION` -/
def sameDirection : Direction → LinkDirection → Bool
  | .forward, .forward | .reverse, .reverse | _, .bothWays => true
  | .forward, .reverse | .reverse, .forward => false

/-- `struct timeval`; nothing in the source keeps `tv_usec` below a million. -/
structure Timeval where
  tv_sec : Int
  tv_usec : Int
  deriving Repr, DecidableEq

def timevalCmp (left right : Timeval) : Bool :=
  if left.tv_sec = right.tv_sec then left.tv_usec > right.tv_usec else left.tv_sec > right.tv_sec

def timevalDiff (a b : Timeval) : Timeval :=
  let sec := a.tv_sec - b.tv_sec
  let usec := a.tv_usec - b.tv_usec
  if usec < 0 then
    -- the second is taken away also where nothing is added for it
    if sec - 1 ≠ 0 then { tv_sec := sec - 1, tv_usec := usec + 1000000 }
    else { tv_sec := sec - 1, tv_usec := usec }
  else { tv_sec := sec, tv_usec := usec }

/-- `struct sockaddr_in6`, less the family. -/
structure SockAddr where
  sin6_port : UInt16
  sin6_flowinfo : UInt32
  sin6_addr : BitVec 128
  sin6_scope_id : UInt32
  deriving DecidableEq

/-- `sockaddr_cmp`: whether the two differ in address or port. -/
def sockaddrCmp (a b : SockAddr) : Bool :=
  a.sin6_addr ≠ b.sin6_addr ∨ a.sin6_port ≠ b.sin6_port

/-- `pkt_slot`; `size` is the length of `buf`. -/
structure PktSlot where
  ts : Timeval
  direction : Direction
  buf : Bytes
  deriving DecidableEq

def pktSlotCmp (a b : PktSlot) : Bool := timevalCmp a.ts b.ts

/-! ## The parameters, the environment and the state -/

/-- The options of the command line. -/
structure LinkConfig where
  delay : UInt32
  jitter : UInt32
  err_rate : UInt32
  cut_rate : UInt32
  loss_rate : UInt32
  link_direction : LinkDirection
  dest_addr : SockAddr

/-- The calls of `rand` for one datagram. -/
inductive RandSite where
  | loss | cut | err | index | delay

/-- The calls of `sendto` in one turn: the `n`-th delayed datagram, or the one received. -/
inductive SendSite where
  | delayed (n : Nat)
  | direct

/-- What came of a `sendto`: all bytes were taken, it is to be tried again, or it failed. -/
inductive SendtoResult where
  | sent | again | failed

inductive SelectResult where
  | interrupted
  | failed
  | ready (readable : Bool)

/-- No datagram after all, an error, or a datagram and where it is from. -/
inductive RecvfromResult where
  | again
  | failed
  | bytes (data : Bytes) (source : SockAddr)

structure LinkEnv where
  /-- `select`, given how long it may wait at most -/
  select : Option Timeval → SelectResult
  /-- `clock_gettime`: seconds and nanoseconds, if it did not fail -/
  clock_gettime : Option (Int × Int)
  sendto : SendSite → SendtoResult
  recvfrom : RecvfromResult
  rand : RandSite → Nat
  /-- whether `malloc` has memory for a slot -/
  malloc : Bool
  /-- the block `realloc` returns, if any -/
  realloc : Option (Nat → PktSlot)

structure LinkState where
  pkt_queue : MinQueue PktSlot
  last_clock : Timeval
  /-- `none` is `has_source_addr == 0` -/
  src_addr : Option SockAddr

/-- A datagram `write_out` handed to `sendto`, which took it. -/
structure Outgoing where
  direction : Direction
  addr : Option SockAddr
  buf : Bytes

/-- The outcome of a turn; `stop` is `EXIT_FAILURE`. -/
structure LinkTurn where
  state : LinkState
  stop : Bool := false
  sent : List Outgoing := []

variable (cfg : LinkConfig)

/-- What `write_out` hands to `sendto`. -/
def LinkState.writeOut (st : LinkState) (direction : Direction) (buf : Bytes) : Outgoing where
  direction := direction
  addr := match direction with
    | .forward => some cfg.dest_addr
    | .reverse => st.src_addr
  buf := buf

/-! ## Delayed datagrams -/

/-- `while (p && timeval_cmp(&last_clock, &p->ts))`, from the `n`-th datagram on. -/
def deliverLoop (env : LinkEnv) : Nat → Nat → LinkState → LinkExec LinkTurn
  | 0, _, _ => .error .loop
  | fuel + 1, n, st => do
      match ← minqPeek st.pkt_queue with
      | none => return { state := st }
      | some p =>
          if timevalCmp st.last_clock p.ts then
            match env.sendto (.delayed n) with
            | .sent =>
                let q ← minqPop st.pkt_queue
                let t ← deliverLoop env fuel (n + 1) { st with pkt_queue := q }
                return { t with sent := st.writeOut cfg p.direction p.buf :: t.sent }
            -- the datagram stays where it is
            | .again => return { state := st }
            | .failed => return { state := st, stop := true }
          else return { state := st }

def deliverDelayedPkt (env : LinkEnv) (st : LinkState) : LinkExec LinkTurn :=
  deliverLoop cfg env (st.pkt_queue.size + 1) 0 st

/-! ## The simulated link -/

/-- `RAND_PERCENT < rate`, for a rate that is not 0. -/
def drawn (rate : UInt32) (r : Nat) : Bool := rate ≠ 0 ∧ r % 101 < rate.toNat

/-- `buf[0] |= 0x20`, and only the header is kept. -/
def cutPkt (buf : Bytes) : Bytes := (buf.modify 0 (· ||| 0x20)).take MIN_PKT_PDATA_LEN

/-- `buf[idx] = ~buf[idx]` -/
def corruptPkt (buf : Bytes) (idx : Nat) : Bytes := buf.modify idx (~~~ ·)

/-- The first half of `simulate_link`: what is left of a datagram, unless it is dropped. -/
def damagePkt (env : LinkEnv) (buf : Bytes) : Option Bytes :=
  if drawn cfg.loss_rate (env.rand .loss) then none
  else if drawn cfg.cut_rate (env.rand .cut) ∧ buf.length > MIN_PKT_PDATA_LEN then some (cutPkt buf)
  else if drawn cfg.err_rate (env.rand .err) then
    some (corruptPkt buf (env.rand .index % buf.length))
  else some buf

/-- `r % m` on `unsigned int`. -/
def modUInt32 (r m : UInt32) : LinkExec UInt32 := if m = 0 then .error .modulo else .ok (r % m)

/-- The delay drawn, in milliseconds. -/
def drawDelay (r : Nat) : LinkExec UInt32 :=
  if cfg.jitter ≠ 0 then
    if cfg.jitter > cfg.delay then modUInt32 (UInt32.ofNat r) (cfg.delay + cfg.jitter)
    else do
      let x ← modUInt32 (UInt32.ofNat r) (2 * cfg.jitter)
      return cfg.delay + x - cfg.jitter
  else .ok cfg.delay

/-- `applied_delay` -/
def appliedDelay (r : Nat) : LinkExec UInt32 := do
  let applied_delay ← drawDelay cfg r
  return applied_delay % 10000

/-- The expiration date; the milliseconds are added to `tv_usec` without a carry. -/
def Timeval.after (now : Timeval) (applied_delay : UInt32) : Timeval where
  tv_sec := now.tv_sec + (applied_delay / 1000).toNat
  tv_usec := now.tv_usec + (applied_delay % 1000 * 1000).toNat

/-- The second half of `simulate_link`: the datagram is queued, or sent at once. -/
def forwardPkt (env : LinkEnv) (st : LinkState) (buf : Bytes) (direction : Direction) :
    LinkExec LinkTurn :=
  if cfg.delay ≠ 0 then do
    let applied_delay ← appliedDelay cfg (env.rand .delay)
    if ¬ env.malloc then return { state := st, stop := true }
    else
      let slot : PktSlot :=
        { ts := st.last_clock.after applied_delay, direction := direction, buf := buf }
      let (res, q) ← minqPush st.pkt_queue env.realloc slot
      let st := { st with pkt_queue := q }
      return { state := st, stop := res ≠ 0 }
  else
    match env.sendto .direct with
    | .sent => .ok { state := st, sent := [st.writeOut cfg direction buf] }
    | _ => .ok { state := st, stop := true }

def simulateLink (env : LinkEnv) (st : LinkState) (buf : Bytes) (direction : Direction) :
    LinkExec LinkTurn :=
  match damagePkt cfg env buf with
  | none => .ok { state := st }
  | some buf => forwardPkt cfg env st buf direction

/-! ## A datagram received -/

/-- The direction of a datagram, `none` if it is from neither party.  The sender's
    address is looked at last. -/
def directionOf (st : LinkState) (source : SockAddr) : Option Direction :=
  if st.src_addr.any fun src => ¬ sockaddrCmp source src then some .forward
  else if ¬ sockaddrCmp source cfg.dest_addr then some .reverse
  else none

def processIncomingPkt (env : LinkEnv) (st : LinkState) : LinkExec LinkTurn :=
  match env.recvfrom with
  | .again => .ok { state := st }
  | .failed => .ok { state := st, stop := true }
  | .bytes data source =>
      -- a longer datagram loses its end here
      let buf := data.take MAX_PKT_LEN
      if buf.length < MIN_PKT_LEN then .ok { state := st }
      else
        -- whoever is heard first is the sender
        let st := { st with src_addr := some (st.src_addr.getD source) }
        match directionOf cfg st source with
        | none => .ok { state := st }
        | some direction =>
            if ¬ sameDirection direction cfg.link_direction then
              match env.sendto .direct with
              | .sent => .ok { state := st, sent := [st.writeOut cfg direction buf] }
              | _ => .ok { state := st, stop := true }
            else simulateLink cfg env st buf direction

/-! ## The loop -/

/-- `update_time`: nanoseconds are cut to microseconds. -/
def LinkState.updateTime (st : LinkState) (now : Int × Int) : LinkState :=
  { st with last_clock := { tv_sec := now.1, tv_usec := now.2 / 1000 } }

/-- `get_queue_timeout`: what `select` is given to wait at most. -/
def getQueueTimeout (st : LinkState) : LinkExec (Option Timeval) := do
  match ← minqPeek st.pkt_queue with
  | none => return none
  | some p =>
      let timeout := timevalDiff p.ts st.last_clock
      if timeout.tv_sec < 0 ∨ (timeout.tv_sec = 0 ∧ timeout.tv_usec ≤ 0) then
        return some { tv_sec := 0, tv_usec := 1000 }
      else return some timeout

/-- A turn of the loop up to `process_incoming_pkt`, and whether that is called. -/
def proxyWake (env : LinkEnv) (st : LinkState) : LinkExec (LinkTurn × Bool) := do
  match env.select (← getQueueTimeout st) with
  | .interrupted => return ({ state := st }, false)
  | .failed => return ({ state := st, stop := true }, false)
  | .ready readable =>
      match env.clock_gettime with
      | none => return ({ state := st, stop := true }, false)
      | some now =>
          let t ← deliverDelayedPkt cfg env (st.updateTime now)
          return (t, ¬ t.stop ∧ readable)

/-- One turn of the loop. -/
def proxyLoop (env : LinkEnv) (st : LinkState) : LinkExec LinkTurn := do
  let (t, reads) ← proxyWake cfg env st
  if reads then
    let t' ← processIncomingPkt cfg env t.state
    return { t' with sent := t.sent ++ t'.sent }
  else return t

/-- The state the loop is entered in, at the first reading of the clock; `block` is what
    `minq_new` was given. -/
def linkInit (block : Nat → PktSlot) (now : Int × Int) : LinkState where
  pkt_queue := minqNew pktSlotCmp block
  last_clock := { tv_sec := now.1, tv_usec := now.2 / 1000 }
  src_addr := none

end SelectiveRepeat
