/-
  SelectiveRepeat.Stats.Stat

  The statistics both loops keep (stat.c).  The counters only move when a
  statistics file was given; they are `int` in the source and unbounded here.
  Writing the file at the end is not modelled.
-/
import Mathlib.Logic.Basic

namespace SelectiveRepeat

/-- `logger` -/
structure Logger where
  activated : Bool
  data_sent : Int
  data_received : Int
  data_truncated_received : Int
  ack_sent : Int
  ack_received : Int
  nack_sent : Int
  nack_received : Int
  packet_ignored : Int
  is_sender : Bool
  min_rtt : Int
  max_rtt : Int
  packet_retransmitted : Int
  packet_duplicated : Int
  deriving Repr, DecidableEq, Inhabited

namespace Logger

/-- `new_logger`: `fd` tells whether a file was given, `mem` is the fresh block. -/
def newLogger (isSender fd : Bool) (mem : Logger) : Logger :=
  if fd then
    let l := { mem with
      activated := true, data_sent := 0, data_received := 0, data_truncated_received := 0
      ack_sent := 0, ack_received := 0, nack_sent := 0, nack_received := 0, packet_ignored := 0
      is_sender := isSender }
    if isSender then { l with min_rtt := 2147483647, max_rtt := 0, packet_retransmitted := 0 }
    else { l with packet_duplicated := 0 }
  else { mem with activated := false }

def addDataSent (l : Logger) : Logger :=
  if l.activated then { l with data_sent := l.data_sent + 1 } else l

def addDataReceived (l : Logger) : Logger :=
  if l.activated then { l with data_received := l.data_received + 1 } else l

def addDataTruncatedReceived (l : Logger) : Logger :=
  if l.activated then { l with data_truncated_received := l.data_truncated_received + 1 } else l

def addAckSent (l : Logger) : Logger :=
  if l.activated then { l with ack_sent := l.ack_sent + 1 } else l

def addAckReceived (l : Logger) : Logger :=
  if l.activated then { l with ack_received := l.ack_received + 1 } else l

def addNackSent (l : Logger) : Logger :=
  if l.activated then { l with nack_sent := l.nack_sent + 1 } else l

def addNackReceived (l : Logger) : Logger :=
  if l.activated then { l with nack_received := l.nack_received + 1 } else l

def addPacketIgnored (l : Logger) : Logger :=
  if l.activated then { l with packet_ignored := l.packet_ignored + 1 } else l

def newRtt (l : Logger) (newRtt : Int) : Logger :=
  if l.activated ∧ l.is_sender then
    let l := if newRtt < l.min_rtt then { l with min_rtt := newRtt } else l
    if l.max_rtt < newRtt then { l with max_rtt := newRtt } else l
  else l

def addPacketRetransmitted (l : Logger) : Logger :=
  if l.activated ∧ l.is_sender then { l with packet_retransmitted := l.packet_retransmitted + 1 }
  else l

def addPacketDuplicated (l : Logger) : Logger :=
  if l.activated ∧ ¬ l.is_sender then { l with packet_duplicated := l.packet_duplicated + 1 }
  else l

end Logger

end SelectiveRepeat
