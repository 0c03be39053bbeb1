/-
  SelectiveRepeat.Queue.Fifo

  The sender's queue as a bounded FIFO.  A sequence of calls that never adds to a
  full ring and never dequeues from an empty one leaves in it the packets added
  and not yet dequeued, in the order they were added, after any number of laps.
-/
import SelectiveRepeat.Lib.FoldM
import SelectiveRepeat.Queue.Search

namespace SelectiveRepeat

/-- A call of one of the functions of queue.h on one queue. -/
inductive QueueCall where
  | add (packet : Pkt)
  | dequeue
  | peek
  | isEmpty
  | get (receive_seqnum : UInt8) (supportIt : Option (Fin MAX_WINDOW_SIZE))

namespace QueueCall

/-- The queue after a call.  Only `add` and `dequeue` assign to a field of it. -/
def run (list : Queue) : QueueCall → Exec Queue
  | add packet => .ok (list.add packet).2
  | dequeue => .ok list.dequeue
  | peek => .ok list
  | isEmpty => .ok list
  | get receive_seqnum supportIt => do
      let _ ← list.get receive_seqnum supportIt
      return list

/-- What a caller looks at before the call: room for a packet, a packet to drop. -/
def Allowed (list : Queue) : QueueCall → Prop
  | add _ => list.size < MAX_WINDOW_SIZE
  | dequeue => 0 < list.size
  | _ => True

/-- A call that only reads. -/
def Reads : QueueCall → Prop
  | add _ | dequeue => False
  | peek | isEmpty | get _ _ => True

theorem run_of_reads (list : Queue) {call : QueueCall} (h : call.Reads) :
    call.run list = .ok list := by
  cases call with
  | add packet => exact absurd h id
  | dequeue => exact absurd h id
  | peek => rfl
  | isEmpty => rfl
  | get receive_seqnum supportIt =>
      obtain ⟨r, hr⟩ := list.get_returns receive_seqnum supportIt
      simp only [run, hr, ok_bind]
      rfl

end QueueCall

/-- The queue after a sequence of calls. -/
def runCalls (list : Queue) (calls : List QueueCall) : Exec Queue :=
  calls.foldlM QueueCall.run list

/-- Each call of the sequence is allowed on the queue it is made on. -/
def CallsAllowed : Queue → List QueueCall → Prop
  | _, [] => True
  | list, call :: calls =>
      call.Allowed list ∧ ∀ list', call.run list = .ok list' → CallsAllowed list' calls

/-- The packets a sequence of calls adds, in that order. -/
def added : List QueueCall → List Pkt
  | [] => []
  | .add packet :: calls => packet :: added calls
  | _ :: calls => added calls

/-- How often it dequeues. -/
def dequeued : List QueueCall → Nat
  | [] => 0
  | .dequeue :: calls => dequeued calls + 1
  | _ :: calls => dequeued calls

/-- The packets added and not yet dequeued, oldest first. -/
def pending (calls : List QueueCall) : List Pkt := (added calls).drop (dequeued calls)

/-! ## One call, then a sequence of them -/

theorem QueueCall.run_holds {list : Queue} {l : List Pkt} (h : list.Holds l) {call : QueueCall}
    (hallowed : call.Allowed list) : ∃ list', call.run list = .ok list' ∧
      list'.Holds ((l ++ added [call]).drop (dequeued [call])) ∧ dequeued [call] ≤ l.length := by
  cases call with
  | add packet =>
      have hroom : l.length < 31 := by
        have hlt : list.size < 31 := hallowed
        rw [h.size] at hlt
        omega
      exact ⟨_, rfl, h.add hroom packet, Nat.zero_le _⟩
  | dequeue =>
      have hpos : 0 < list.size := hallowed
      cases l with
      | nil =>
          rw [h.size] at hpos
          exact absurd hpos (by simp)
      | cons pkt l =>
          refine ⟨_, rfl, ?_, Nat.succ_le_succ (Nat.zero_le _)⟩
          simpa [added, dequeued] using h.dequeue
  | peek => exact ⟨list, rfl, by simpa [added, dequeued] using h, Nat.zero_le _⟩
  | isEmpty => exact ⟨list, rfl, by simpa [added, dequeued] using h, Nat.zero_le _⟩
  | get receive_seqnum supportIt =>
      refine ⟨list, QueueCall.run_of_reads list trivial, ?_, Nat.zero_le _⟩
      simpa [added, dequeued] using h

theorem added_cons (call : QueueCall) (calls : List QueueCall) :
    added (call :: calls) = added [call] ++ added calls := by
  cases call <;> rfl

theorem dequeued_cons (call : QueueCall) (calls : List QueueCall) :
    dequeued (call :: calls) = dequeued [call] + dequeued calls := by
  cases call <;> simp [dequeued, Nat.add_comm]

theorem runCalls_holds {list : Queue} {l : List Pkt} (h : list.Holds l) {calls : List QueueCall}
    (hallowed : CallsAllowed list calls) : ∃ list', runCalls list calls = .ok list' ∧
      list'.Holds ((l ++ added calls).drop (dequeued calls)) := by
  induction calls generalizing list l with
  | nil => exact ⟨list, rfl, by simpa [added, dequeued] using h⟩
  | cons call calls ih =>
      obtain ⟨mid, hmid, hheld, hle⟩ := QueueCall.run_holds h hallowed.1
      obtain ⟨list', hlist', hheld'⟩ := ih hheld (hallowed.2 mid hmid)
      refine ⟨list', ?_, ?_⟩
      · rw [runCalls, FoldM.foldlM_cons_ok hmid]
        exact hlist'
      · -- what this call drops was there before the rest was added
        have hdrop : (l ++ added (call :: calls)).drop (dequeued (call :: calls)) =
            ((l ++ added [call]).drop (dequeued [call]) ++ added calls).drop (dequeued calls) := by
          have hlen : dequeued [call] ≤ (l ++ added [call]).length := by
            rw [List.length_append]
            omega
          rw [added_cons, dequeued_cons, ← List.drop_drop, ← List.append_assoc,
            List.drop_append_of_le_length hlen]
        rw [hdrop]
        exact hheld'

/-! ## The queue as its callers see it -/

/-- The slots from `ptrPop` on, cyclically, hold `l`; the others are `NULL`. -/
structure Queue.Fifo (list : Queue) (l : List Pkt) : Prop where
  held : ∀ (j : Nat) (hj : j < l.length) (i : Fin MAX_WINDOW_SIZE),
    i.val = (list.ptrPop.val + j) % MAX_WINDOW_SIZE → list.window i = some l[j]
  free : ∀ i : Fin MAX_WINDOW_SIZE,
    (∀ j < l.length, i.val ≠ (list.ptrPop.val + j) % MAX_WINDOW_SIZE) → list.window i = none
  size : list.size = l.length
  size_le : list.size ≤ MAX_WINDOW_SIZE
  ptrAdd : (list.ptrAdd.val : Int) = (list.ptrPop.val + list.size) % MAX_WINDOW_SIZE
  peek : list.peek = l.head?
  peek_null : list.peek = none ↔ list.size = 0
  isEmpty : list.isEmpty = true ↔ list.size = 0

theorem Queue.Holds.fifo {list : Queue} {l : List Pkt} (h : list.Holds l) : list.Fifo l := by
  have hlen := h.length_le
  have hcell : ∀ j < MAX_WINDOW_SIZE, ∀ i : Fin MAX_WINDOW_SIZE,
      i.val = (list.ptrPop.val + j) % MAX_WINDOW_SIZE → list.window i = l[j]? := by
    intro j hj i hi
    rw [← h.ring.at_slot hj]
    congr 1
    exact Fin.ext (by rw [hi, Ring.slot_val])
  refine
    { held := fun j hj i hi => ?_
      free := fun i hi => ?_
      size := h.size
      size_le := ?_
      ptrAdd := ?_
      peek := h.peek
      peek_null := ?_
      isEmpty := by rw [Queue.isEmpty, decide_eq_true_iff] }
  · rw [hcell j (Nat.lt_of_lt_of_le hj hlen) i hi, List.getElem?_eq_getElem hj]
  · -- it is the slot of some place, and that place is behind the last packet
    obtain ⟨j, hj, hslot⟩ := Ring.exists_slot list.ptrPop i
    have hval : i.val = (list.ptrPop.val + j) % MAX_WINDOW_SIZE := by
      rw [← hslot, Ring.slot_val]
    rw [hcell j hj i hval]
    exact List.getElem?_eq_none (Nat.le_of_not_lt fun hlt => hi j hlt hval)
  · rw [h.size]
    exact Int.ofNat_le.mpr hlen
  · rw [h.ptrAdd, Ring.slot_val, h.size]
    rfl
  · rw [h.peek, h.size]
    cases l with
    | nil => simp
    | cons pkt l =>
        rw [List.length_cons]
        refine ⟨?_, ?_⟩
        · intro hnone
          cases hnone
        · intro hzero
          omega

/-- The queue refines a bounded FIFO: every allowed sequence of calls on a new queue
    returns and leaves the packets added and not yet dequeued, in insertion order, and
    what only reads leaves the queue as it is. -/
theorem runCalls_fifo (calls : List QueueCall) (hallowed : CallsAllowed Queue.newList calls) :
    ∃ list, runCalls Queue.newList calls = .ok list ∧ list.Fifo (pending calls) ∧
      ∀ call : QueueCall, call.Reads → call.run list = .ok list := by
  obtain ⟨list, hlist, hheld⟩ := runCalls_holds Queue.newList_holds hallowed
  refine ⟨list, hlist, ?_, fun call hreads => QueueCall.run_of_reads list hreads⟩
  rw [List.nil_append] at hheld
  exact hheld.fifo

/-- Two packets in, one out, one more in. -/
theorem runCalls_fifo_three :
    ∃ list, runCalls Queue.newList
        [.add (bytePkt 0 0 7), .add (bytePkt 1 0 8), .peek, .dequeue, .add (bytePkt 2 0 9)] =
          .ok list ∧
      list.Fifo [bytePkt 1 0 8, bytePkt 2 0 9] ∧
      ∀ call : QueueCall, call.Reads → call.run list = .ok list :=
  runCalls_fifo
    [.add (bytePkt 0 0 7), .add (bytePkt 1 0 8), .peek, .dequeue, .add (bytePkt 2 0 9)] (by
      simp [CallsAllowed, QueueCall.Allowed, QueueCall.run, Queue.newList, Queue.add,
        Queue.dequeue, MAX_WINDOW_SIZE])

end SelectiveRepeat
