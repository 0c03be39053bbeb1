/-
  SelectiveRepeat.Link.History

  Runs of the link simulator.  Every datagram that is sent or still waits comes from
  one that was taken in, no two from the same one; it is unchanged, cut behind the
  header or has one byte inverted, and it is not sent before its date.
-/
import SelectiveRepeat.Exec
import SelectiveRepeat.Link.Turn
import Mathlib.Algebra.Order.Group.Multiset
import Mathlib.Tactic.Abel

namespace SelectiveRepeat

/-- A datagram sent, and the clock then. -/
structure Departure where
  out : Outgoing
  clock : Timeval

/-- What a turn sent. -/
def LinkTurn.departures (t : LinkTurn) : List Departure :=
  t.sent.map fun out => { out := out, clock := t.state.last_clock }

/-- `LinkHistory cfg allowed st stop as ds`: a run, each turn `allowed` in the state it finds,
    comes to the state `st`, having taken in `as` and sent `ds`; `stop` says whether the loop
    was left. -/
inductive LinkHistory (cfg : LinkConfig) (allowed : LinkEnv → LinkState → Prop) :
    LinkState → Bool → List Arrival → List Departure → Prop where
  | init (block : Nat → PktSlot) (now : Int × Int) :
      LinkHistory cfg allowed (linkInit block now) false [] []
  | turn {st : LinkState} {as : List Arrival} {ds : List Departure} {env : LinkEnv} {t : LinkTurn} :
      LinkHistory cfg allowed st false as ds → allowed env st → proxyLoop cfg env st = .ok t →
      LinkHistory cfg allowed t.state t.stop (as ++ (arrivalOf cfg env st).toList)
        (ds ++ t.departures)

/-! ## What becomes of a datagram -/

/-- `p` waits in place of the datagram `a`. -/
structure Delayed (cfg : LinkConfig) (a : Arrival) (p : PktSlot) : Prop where
  direction : p.direction = a.direction
  simulated : sameDirection a.direction cfg.link_direction = true
  delay : cfg.delay ≠ 0
  altered : Altered cfg a.buf p.buf
  date : ∃ r d, drawDelay cfg r = .ok d ∧ p.ts = a.clock.after (d % 10000)

/-- `d` was sent for the datagram `a`. -/
inductive Relayed (cfg : LinkConfig) (a : Arrival) (d : Departure) : Prop where
  | relayed (hdir : sameDirection a.direction cfg.link_direction = false)
      (hdirection : d.out.direction = a.direction) (hbuf : d.out.buf = a.buf)
      (hclock : d.clock = a.clock)
  | direct (hdir : sameDirection a.direction cfg.link_direction = true) (hdelay : cfg.delay = 0)
      (hdirection : d.out.direction = a.direction) (hbuf : Altered cfg a.buf d.out.buf)
      (hclock : d.clock = a.clock)
  | delayed {p : PktSlot} (hp : Delayed cfg a p) (hdirection : d.out.direction = p.direction)
      (hbuf : d.out.buf = p.buf) (hdue : p.date < d.clock.date)

/-- The address a datagram is sent to. -/
def Departure.Addressed (cfg : LinkConfig) (st : LinkState) (d : Departure) : Prop :=
  d.out.addr = match d.out.direction with
    | .forward => some cfg.dest_addr
    | .reverse => st.src_addr

section
variable {cfg : LinkConfig} {env : LinkEnv} {st : LinkState} {stop : Bool} {as : List Arrival}
  {ds : List Departure} {t : LinkTurn}

/-- The delayed datagrams that are sent. -/
theorem Delivers.passes {gone : List PktSlot} {kept : Multiset Arrival}
    (h : Delivers cfg st t gone) (hkept : Multiset.Rel (Delayed cfg) kept st.waiting) :
    ∃ out left, kept = out + left ∧ Multiset.Rel (Relayed cfg) out ↑t.departures ∧
      Multiset.Rel (Delayed cfg) left t.state.waiting := by
  rw [h.waiting, Multiset.rel_add_right] at hkept
  obtain ⟨out, left, hout, hleft, rfl⟩ := hkept
  refine ⟨out, left, rfl, ?_, hleft⟩
  rw [LinkTurn.departures, h.sent, List.map_map, ← Multiset.map_coe, Multiset.rel_map_right]
  apply hout.mono
  intro a _ p hp hdelayed
  have hdue := h.due p (Multiset.mem_coe.mp hp)
  rw [← h.last_clock] at hdue
  exact .delayed hdelayed rfl rfl hdue

/-- The datagram taken in is sent, waits or is dropped. -/
theorem Handles.passes {a : Arrival} (h : Handles cfg st a t) (hclock : a.clock = st.last_clock) :
    ∃ (out left dropped : Multiset Arrival) (new : Multiset PktSlot), {a} = out + left + dropped ∧
      Multiset.Rel (Relayed cfg) out ↑t.departures ∧ t.state.waiting = new + st.waiting ∧
      Multiset.Rel (Delayed cfg) left new ∧ (cfg.loss_rate = 0 → t.stop = false → dropped = 0) := by
  cases h with
  | relayed hdir =>
      refine ⟨{a}, 0, 0, 0, rfl, ?_, (Multiset.zero_add _).symm, .zero, fun _ _ => rfl⟩
      exact .cons (.relayed hdir rfl rfl hclock.symm) .zero
  | lost hrate =>
      exact ⟨0, 0, {a}, 0, rfl, .zero, (Multiset.zero_add _).symm, .zero, fun h => absurd h hrate⟩
  | stopped =>
      exact ⟨0, 0, {a}, 0, rfl, .zero, (Multiset.zero_add _).symm, .zero,
        fun _ h => absurd h (by simp)⟩
  | direct hdir hdelay hx =>
      refine ⟨{a}, 0, 0, 0, rfl, ?_, (Multiset.zero_add _).symm, .zero, fun _ _ => rfl⟩
      exact .cons (.direct hdir hdelay rfl hx hclock.symm) .zero
  | delayed hdir hdelay hx hd hvalid hheld =>
      refine ⟨0, {a}, 0, {_}, rfl, .zero, hheld, ?_, fun _ _ => rfl⟩
      refine .cons ⟨rfl, hdir, hdelay, hx, _, _, hd, ?_⟩ .zero
      rw [hclock]

/-! ## Runs -/

/-- The account of a run: every datagram taken in was sent, waits or was dropped. -/
structure Conserves (cfg : LinkConfig) (st : LinkState) (stop : Bool) (as : List Arrival)
    (ds : List Departure) : Prop where
  valid : st.Valid
  balance : ∃ out left dropped : Multiset Arrival, ↑as = out + left + dropped ∧
    Multiset.Rel (Relayed cfg) out ↑ds ∧ Multiset.Rel (Delayed cfg) left st.waiting ∧
    (cfg.loss_rate = 0 → stop = false → dropped = 0)
  src_addr : st.src_addr = as.head?.map Arrival.source
  addressed : ∀ d ∈ ds, d.Addressed cfg st

theorem conserves_init (block : Nat → PktSlot) (now : Int × Int) :
    Conserves cfg (linkInit block now) false [] [] :=
  ⟨minqNew_valid (fun a b => timevalCmp_iff a.ts b.ts) block,
    ⟨0, 0, 0, rfl, .zero, .zero, fun _ _ => rfl⟩, rfl, fun _ hd => absurd hd List.not_mem_nil⟩

/-- Nothing was sent, and nothing waits, while nothing was taken in. -/
theorem Conserves.nil (h : Conserves cfg st stop [] ds) : ds = [] ∧ st.waiting = 0 := by
  obtain ⟨out, left, dropped, hall, hout, hleft, -⟩ := h.balance
  have hcard := congrArg Multiset.card hall
  rw [Multiset.coe_card, List.length_nil, Multiset.card_add, Multiset.card_add] at hcard
  rw [Multiset.card_eq_zero.mp (show out.card = 0 by omega), Multiset.rel_zero_left,
    Multiset.coe_eq_zero] at hout
  rw [Multiset.card_eq_zero.mp (show left.card = 0 by omega), Multiset.rel_zero_left] at hleft
  exact ⟨hout, hleft⟩

theorem Handles.frame {a : Arrival} (h : Handles cfg st a t) (hv : st.Valid) :
    t.state.Valid ∧ t.state.last_clock = st.last_clock ∧ t.state.src_addr = st.src_addr ∧
      ∀ d ∈ t.departures, d.Addressed cfg st := by
  cases h with
  | relayed | direct =>
      refine ⟨hv, rfl, rfl, fun d hd => ?_⟩
      rw [List.mem_singleton.mp hd]
      rfl
  | lost | stopped => exact ⟨hv, rfl, rfl, fun d hd => absurd hd List.not_mem_nil⟩
  | delayed _ _ _ _ hvalid => exact ⟨hvalid, rfl, rfl, fun d hd => absurd hd List.not_mem_nil⟩

theorem LinkState.Clocked.frame {st₁ : LinkState} (h : st.Clocked env st₁) :
    st₁.waiting = st.waiting ∧ st₁.src_addr = st.src_addr := by
  cases h with
  | kept => exact ⟨rfl, rfl⟩
  | read => exact ⟨rfl, rfl⟩

/-- From an empty queue nothing is sent. -/
theorem Delivers.nil {gone : List PktSlot} (h : Delivers cfg st t gone) (hempty : st.waiting = 0) :
    t.departures = [] ∧ t.state.waiting = 0 := by
  have hcard := congrArg Multiset.card h.waiting
  rw [hempty, Multiset.card_zero, Multiset.card_add, Multiset.coe_card] at hcard
  refine ⟨?_, Multiset.card_eq_zero.mp (by omega)⟩
  rw [LinkTurn.departures, h.sent, List.length_eq_zero_iff.mp (show gone.length = 0 by omega)]
  rfl

/-- The delayed datagrams of a turn are sent to the parties they are for. -/
theorem Delivers.addressed {gone : List PktSlot} (h : Delivers cfg st t gone) :
    ∀ d ∈ t.departures, d.Addressed cfg st := by
  intro d hd
  rw [LinkTurn.departures, h.sent, List.map_map] at hd
  obtain ⟨p, -, rfl⟩ := List.mem_map.mp hd
  rfl

theorem departures_append {t t' : LinkTurn} (hlast : t'.state.last_clock = t.state.last_clock) :
    LinkTurn.departures { t' with sent := t.sent ++ t'.sent } = t.departures ++ t'.departures := by
  rw [LinkTurn.departures, List.map_append, LinkTurn.departures, LinkTurn.departures, hlast]

theorem LinkTurns.valid (h : LinkTurns cfg env st t) : t.state.Valid := by
  cases h with
  | idle _ hdel => exact hdel.valid
  | takes _ hdel _ _ hhandles => exact (hhandles.frame hdel.valid).1

theorem LinkTurns.src_addr (h : LinkTurns cfg env st t) :
    t.state.src_addr = match arrivalOf cfg env st with
      | none => st.src_addr
      | some a => some (st.src_addr.getD a.source) := by
  cases h with
  | idle hclock hdel hnone =>
      rw [hnone]
      exact hdel.src_addr.trans hclock.frame.2
  | @takes now t₁ t₂ gone a hnow hdel hsome hclock hhandles =>
      rw [hsome]
      have hsame : t₁.state.src_addr = st.src_addr := hdel.src_addr
      rw [show t₂.state.src_addr = some (t₁.state.src_addr.getD a.source) from
        (hhandles.frame hdel.valid).2.2.1, hsame]

/-- A turn sends to the parties, once one was heard. -/
theorem LinkTurns.addressed (h : LinkTurns cfg env st t)
    (hnone : st.src_addr = none → st.waiting = 0) : ∀ d ∈ t.departures, d.Addressed cfg t.state := by
  have hsrc := h.src_addr
  cases h with
  | idle hclock hdel =>
      intro d hd
      rw [Departure.Addressed, hdel.src_addr]
      exact hdel.addressed d hd
  | @takes now t₁ t₂ gone a hnow hdel hsome hclock hhandles =>
      obtain ⟨-, hlast, hsame, haddr⟩ := hhandles.frame hdel.valid
      rw [hsome] at hsrc
      rw [departures_append (show t₂.state.last_clock = t₁.state.last_clock from hlast),
        List.forall_mem_append]
      refine ⟨fun d hd => ?_, fun d hd => ?_⟩
      · -- something waited, so who is the sender does not change
        cases hst : st.src_addr with
        | none =>
            rw [(hdel.nil (hnone hst)).1] at hd
            exact absurd hd List.not_mem_nil
        | some src =>
            have haddr' := hdel.addressed d hd
            rw [Departure.Addressed] at haddr' ⊢
            rw [hsrc, hst]
            rw [show (st.updateTime now).src_addr = some src from hst] at haddr'
            exact haddr'
      · rw [Departure.Addressed, show t₂.state.src_addr = _ from hsame]
        exact haddr d hd

/-- What one turn preserves. -/
theorem Conserves.turn (h : Conserves cfg st false as ds) (hturn : LinkTurns cfg env st t) :
    Conserves cfg t.state t.stop (as ++ (arrivalOf cfg env st).toList) (ds ++ t.departures) := by
  have hsrc := hturn.src_addr
  have haddr := hturn.addressed fun hnone => by
    rw [h.src_addr, Option.map_eq_none_iff, List.head?_eq_none_iff] at hnone
    subst hnone
    exact h.nil.2
  obtain ⟨out, left, dropped, hall, hout, hleft, hloss⟩ := h.balance
  have hvalid := hturn.valid
  have hbalance : ∃ out left dropped : Multiset Arrival,
      ↑(as ++ (arrivalOf cfg env st).toList) = out + left + dropped ∧
      Multiset.Rel (Relayed cfg) out ↑(ds ++ t.departures) ∧
      Multiset.Rel (Delayed cfg) left t.state.waiting ∧
      (cfg.loss_rate = 0 → t.stop = false → dropped = 0) := by
    cases hturn with
    | idle hclock hdel hnone =>
        rw [← hclock.frame.1] at hleft
        obtain ⟨out', left', rfl, hout', hleft'⟩ := hdel.passes hleft
        rw [hnone, Option.toList_none, List.append_nil]
        refine ⟨out + out', left', dropped, ?_, ?_, hleft', fun hrate _ => hloss hrate rfl⟩
        · rw [hall]
          abel
        · rw [← Multiset.coe_add]
          exact hout.add hout'
    | @takes now t₁ t₂ gone a hnow hdel hsome hclock hhandles =>
        obtain ⟨-, hlast, -, -⟩ := hhandles.frame hdel.valid
        obtain ⟨out', left', rfl, hout', hleft'⟩ := hdel.passes (show
          Multiset.Rel (Delayed cfg) left (st.updateTime now).waiting from hleft)
        obtain ⟨out'', left'', dropped', new, hone, hout'', hnew, hleft'', hloss'⟩ :=
          hhandles.passes hclock
        rw [hsome, Option.toList_some,
          departures_append (show t₂.state.last_clock = t₁.state.last_clock from hlast)]
        refine ⟨out + (out' + out''), left' + left'', dropped + dropped', ?_, ?_, ?_, ?_⟩
        · rw [← Multiset.coe_add, hall, Multiset.coe_singleton, hone]
          abel
        · rw [← Multiset.coe_add, ← Multiset.coe_add]
          exact hout.add (hout'.add hout'')
        · rw [show LinkState.waiting t₂.state = new + t₁.state.waiting from hnew, Multiset.add_comm]
          exact hleft''.add hleft'
        · intro hrate hgo
          rw [hloss hrate rfl, hloss' hrate hgo]
          rfl
  refine ⟨hvalid, hbalance, ?_, ?_⟩
  · rw [hsrc, h.src_addr]
    cases as with
    | nil => cases arrivalOf cfg env st <;> rfl
    | cons a as => cases arrivalOf cfg env st <;> rfl
  · rw [List.forall_mem_append]
    refine ⟨fun d hd => ?_, haddr⟩
    -- who was heard before is still the sender
    cases as with
    | nil =>
        rw [h.nil.1] at hd
        exact absurd hd List.not_mem_nil
    | cons a as =>
        have hsame : t.state.src_addr = st.src_addr := by
          rw [hsrc, h.src_addr]
          cases arrivalOf cfg env st <;> rfl
        rw [Departure.Addressed, hsame]
        exact h.addressed d hd

theorem LinkHistory.conserves {allowed : LinkEnv → LinkState → Prop}
    (h : LinkHistory cfg allowed st stop as ds) : Conserves cfg st stop as ds := by
  induction h with
  | init block now => exact conserves_init block now
  | turn _ _ hturn ih => exact ih.turn (linkTurns_of_ok ih.valid hturn)

/-- The simulated link loses, delays, cuts and corrupts, and does nothing else.  In every run,
    whatever the system calls return: the next turn stays inside the memory of the queue, and
    it returns, unless the options make it take a remainder by 0; the datagrams taken in are,
    one for one, those sent, those waiting and those dropped, each of the sent ones being what
    the options allow to be made of its own original; none is dropped while the loss rate is 0
    and no call failed; and all are sent to the other party, the sender being the first that
    was heard. -/
theorem linkHistory_conserves {allowed : LinkEnv → LinkState → Prop}
    (h : LinkHistory cfg allowed st stop as ds) :
    (∀ env, cfg.Faults (proxyLoop cfg env st) ∨ ∃ t, proxyLoop cfg env st = .ok t) ∧
      (∃ out left dropped : Multiset Arrival, ↑as = out + left + dropped ∧
        Multiset.Rel (Relayed cfg) out ↑ds ∧ Multiset.Rel (Delayed cfg) left st.waiting ∧
        (cfg.loss_rate = 0 → stop = false → dropped = 0)) ∧
      st.src_addr = as.head?.map Arrival.source ∧
      ∀ d ∈ ds, d.Addressed cfg st := by
  have hc := h.conserves
  refine ⟨fun env => ?_, hc.balance, hc.src_addr, hc.addressed⟩
  rcases @proxyLoop_cases cfg env st hc.valid with hfault | ⟨t, hturn, -⟩
  · exact Or.inl hfault
  · exact Or.inr ⟨t, hturn⟩

end

/-! ## A run of one datagram -/

/-- The address of the party on `port` of this host. -/
def loopback (port : UInt16) : SockAddr where
  sin6_port := port
  sin6_flowinfo := 0
  sin6_addr := 1
  sin6_scope_id := 0

/-- Five milliseconds of delay on the way to port 12345. -/
def slowLink : LinkConfig where
  delay := 5
  jitter := 0
  err_rate := 0
  cut_rate := 0
  loss_rate := 0
  link_direction := .forward
  dest_addr := loopback 12345

/-- A datagram of ten bytes from port 1000, at second 7. -/
def oneArrival : LinkEnv where
  select := fun _ => .ready true
  clock_gettime := some (7, 0)
  sendto := fun _ => .sent
  recvfrom := .bytes (List.replicate 10 0) (loopback 1000)
  rand := fun _ => 0
  malloc := true
  realloc := none

/-- The slots are zeroed. -/
def zeroSlot : PktSlot := { ts := { tv_sec := 0, tv_usec := 0 }, direction := .forward, buf := [] }

/-- The link that also loses every other datagram. -/
def lossyLink : LinkConfig := { slowLink with loss_rate := 50 }

/-- A datagram of ten bytes, some milliseconds after second 7; `rand` returns `loss`. -/
def lateArrival (ms : Int) (byte : UInt8) (loss : Nat) : LinkEnv :=
  { oneArrival with
    clock_gettime := some (7, ms * 1000000)
    recvfrom := .bytes (List.replicate 10 byte) (loopback 1000)
    rand := fun _ => loss }

/-- A datagram of ten bytes that is due a number of microseconds after second 7. -/
def lateSlot (usecs : Int) (byte : UInt8) : PktSlot :=
  { ts := { tv_sec := 7, tv_usec := usecs }, direction := .forward, buf := List.replicate 10 byte }

/-- The clock was read so many milliseconds after second 7. -/
def ReadAt (ms : Int) (st : LinkState) : Prop :=
  st.last_clock = { tv_sec := 7, tv_usec := ms * 1000 }

/-- Two datagrams wait; then the first one is sent, and the third one lost. -/
theorem exists_lateArrivals {allowed : LinkEnv → LinkState → Prop}
    (h₁ : allowed (lateArrival 0 1 60) (linkInit (fun _ => zeroSlot) (0, 0)))
    (h₂ : ∀ st, ReadAt 0 st → allowed (lateArrival 2 2 60) st)
    (h₃ : ∀ st, ReadAt 2 st → allowed (lateArrival 6 3 0) st) :
    ∃ (st st' : LinkState) (as as' : List Arrival) (ds : List Departure),
      (LinkHistory lossyLink allowed st false as [] ∧
        st.waiting = {lateSlot 5000 1, lateSlot 7000 2}) ∧
      LinkHistory lossyLink allowed st' false as' ds ∧ st'.waiting = {lateSlot 7000 2} ∧
      as'.map (fun a => (a.direction, a.buf.head?)) =
        [(.forward, some 1), (.forward, some 2), (.forward, some 3)] ∧
      ds.map (fun d => (d.out.direction, d.out.buf)) = [(.forward, List.replicate 10 1)] := by
  let st₀ := linkInit (fun _ => zeroSlot) (0, 0)
  have hrun : (proxyLoop lossyLink (lateArrival 0 1 60) st₀ >>= fun t₁ =>
      proxyLoop lossyLink (lateArrival 2 2 60) t₁.state >>= fun t₂ =>
      (proxyLoop lossyLink (lateArrival 6 3 0) t₂.state).map fun t₃ =>
        (decide (t₁.stop = false ∧ t₁.sent.length = 0 ∧
            t₁.state.last_clock = { tv_sec := 7, tv_usec := 0 * 1000 }) &&
          decide (t₂.stop = false ∧ t₂.sent.length = 0 ∧
            t₂.state.last_clock = { tv_sec := 7, tv_usec := 2 * 1000 } ∧
            t₂.state.waiting = {lateSlot 5000 1, lateSlot 7000 2}) &&
          decide (t₃.stop = false ∧ t₃.state.waiting = {lateSlot 7000 2} ∧
            t₃.sent.map (fun out => (out.direction, out.buf)) =
              [(.forward, List.replicate 10 1)]) &&
          decide (((arrivalOf lossyLink (lateArrival 0 1 60) st₀).toList ++
            (arrivalOf lossyLink (lateArrival 2 2 60) t₁.state).toList ++
            (arrivalOf lossyLink (lateArrival 6 3 0) t₂.state).toList).map
              (fun a => (a.direction, a.buf.head?)) =
            [(.forward, some 1), (.forward, some 2), (.forward, some 3)]))) = .ok true := by
    decide +kernel
  obtain ⟨t₁, hturn₁, hrun⟩ := exists_ok_of_bind hrun
  obtain ⟨t₂, hturn₂, hrun⟩ := exists_ok_of_bind hrun
  obtain ⟨t₃, hturn₃, hrun⟩ := exists_ok_of_map hrun
  simp only [Bool.and_eq_true, decide_eq_true_eq] at hrun
  obtain ⟨⟨⟨⟨hgo₁, hsent₁, hread₁⟩, hgo₂, hsent₂, hread₂, hwaiting⟩, hgo₃, hleft, hsent₃⟩,
    harrivals⟩ := hrun
  have hist₁ := LinkHistory.turn (.init (fun _ => zeroSlot) (0, 0)) h₁ hturn₁
  rw [hgo₁, LinkTurn.departures, List.eq_nil_of_length_eq_zero hsent₁] at hist₁
  have hist₂ := hist₁.turn (h₂ _ hread₁) hturn₂
  rw [hgo₂, LinkTurn.departures, List.eq_nil_of_length_eq_zero hsent₂] at hist₂
  have hist₃ := hist₂.turn (h₃ _ hread₂) hturn₃
  rw [hgo₃] at hist₃
  refine ⟨t₂.state, t₃.state, _, _, _, ⟨hist₂, hwaiting⟩, hist₃, hleft, harrivals, ?_⟩
  rw [← hsent₃, LinkTurn.departures]
  simp

/-- The run of three datagrams: one is sent, one waits and one was dropped. -/
theorem linkHistory_conserves_late :
    ∃ (st : LinkState) (as : List Arrival) (ds : List Departure), as.length = 3 ∧ ds.length = 1 ∧
      ∃ out left dropped : Multiset Arrival, ↑as = out + left + dropped ∧
        Multiset.Rel (Relayed lossyLink) out ↑ds ∧
        Multiset.Rel (Delayed lossyLink) left st.waiting ∧
        out.card = 1 ∧ left.card = 1 ∧ dropped.card = 1 := by
  obtain ⟨-, st, -, as, ds, -, h, hwaiting, has, hds⟩ :=
    @exists_lateArrivals (fun _ _ => True) trivial (fun _ _ => trivial) fun _ _ => trivial
  obtain ⟨-, ⟨out, left, dropped, hall, hout, hleft, -⟩, -⟩ := linkHistory_conserves h
  have has' : as.length = 3 := by simpa using congrArg List.length has
  have hds' : ds.length = 1 := by simpa using congrArg List.length hds
  have hcard := congrArg Multiset.card hall
  have hsent := Multiset.card_eq_card_of_rel hout
  have hwait := Multiset.card_eq_card_of_rel hleft
  rw [Multiset.coe_card, Multiset.card_add, Multiset.card_add] at hcard
  rw [Multiset.coe_card] at hsent
  rw [hwaiting, Multiset.card_singleton] at hwait
  exact ⟨st, as, ds, has', hds', out, left, dropped, hall, hout, hleft, by omega, by omega, by omega⟩

end SelectiveRepeat
