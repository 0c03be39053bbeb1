/-
  SelectiveRepeat.Link.Order

  The link simulator as two channels, one in each direction.  What is on the way in a
  direction is what was sent in it and then what waits.  If the delay is constant and
  the clock moves on between two turns, the dates of the datagrams that wait rise in
  the order of their arrival, and the channels keep that order.
-/
import SelectiveRepeat.Link.History
import Mathlib.Data.List.Forall2

namespace SelectiveRepeat

/-! ## The two channels -/

/-- What waits on its way in a direction. -/
def waitingIn (dir : Direction) (queue : List PktSlot) : List Bytes :=
  (queue.filter (·.direction = dir)).map PktSlot.buf

/-- What was sent in a direction. -/
def sentIn (dir : Direction) (sent : List Outgoing) : List Bytes :=
  (sent.filter (·.direction = dir)).map Outgoing.buf

/-- What enters the channel of a direction in a turn. -/
inductive Enters (cfg : LinkConfig) (dir : Direction) : Option Arrival → List Bytes → Prop where
  | nothing (arrival : Option Arrival) : Enters cfg dir arrival []
  | altered {a : Arrival} (hdir : a.direction = dir) {x : Bytes} (hx : Altered cfg a.buf x) :
      Enters cfg dir (some a) [x]

/-- Only what is simulated waits, and only if there is a delay. -/
def Waits (cfg : LinkConfig) (p : PktSlot) : Prop :=
  sameDirection p.direction cfg.link_direction = true ∧ cfg.delay ≠ 0

@[simp] theorem waitingIn_append (dir : Direction) (queue queue' : List PktSlot) :
    waitingIn dir (queue ++ queue') = waitingIn dir queue ++ waitingIn dir queue' := by
  simp [waitingIn]

@[simp] theorem sentIn_append (dir : Direction) (sent sent' : List Outgoing) :
    sentIn dir (sent ++ sent') = sentIn dir sent ++ sentIn dir sent' := by
  simp [sentIn]

theorem waitingIn_perm (dir : Direction) {queue queue' : List PktSlot} (h : queue.Perm queue') :
    (waitingIn dir queue).Perm (waitingIn dir queue') :=
  (h.filter _).map _

section
variable {cfg : LinkConfig} {env : LinkEnv} {st : LinkState} {t : LinkTurn}

theorem sentIn_sends (dir : Direction) (gone : List PktSlot) :
    sentIn dir (gone.map (st.sends cfg)) = waitingIn dir gone := by
  rw [sentIn, waitingIn, List.filter_map, List.map_map]
  rfl

/-- In a direction that is not simulated, or without a delay, nothing waits. -/
theorem waitingIn_nil {dir : Direction} {queue : List PktSlot} (hwaits : ∀ p ∈ queue, Waits cfg p)
    (hdir : sameDirection dir cfg.link_direction = false ∨ cfg.delay = 0) :
    waitingIn dir queue = [] := by
  rw [waitingIn, List.map_eq_nil_iff, List.filter_eq_nil_iff]
  intro p hp heq
  obtain ⟨hsame, hdelay⟩ := hwaits p hp
  rw [of_decide_eq_true heq] at hsame
  rcases hdir with hdir | hdir
  · rw [hsame] at hdir
    exact absurd hdir (by simp)
  · exact hdelay hdir

/-- The datagram taken in enters the channel of its direction behind what waits there. -/
theorem Handles.enters {a : Arrival} (h : Handles cfg st a t) {queue : List PktSlot}
    (hqueue : st.waiting = ↑queue) (hwaits : ∀ p ∈ queue, Waits cfg p) :
    ∃ new, t.state.waiting = ↑(queue ++ new) ∧ (∀ p ∈ new, Waits cfg p) ∧
      (new = [] ∨ ∃ p, new = [p] ∧
        ∃ r d, drawDelay cfg r = .ok d ∧ p.ts = st.last_clock.after (d % 10000)) ∧
      ∀ dir, ∃ entered, Enters cfg dir (some a) entered ∧
        waitingIn dir queue ++ entered = sentIn dir t.sent ++ waitingIn dir (queue ++ new) := by
  have hnil : ∀ p ∈ ([] : List PktSlot), Waits cfg p := fun p hp => absurd hp List.not_mem_nil
  -- a datagram sent at once, where nothing waits
  have hdirect {x : Bytes} (hx : Altered cfg a.buf x)
      (hdir : sameDirection a.direction cfg.link_direction = false ∨ cfg.delay = 0)
      (dir : Direction) : ∃ entered, Enters cfg dir (some a) entered ∧
        waitingIn dir queue ++ entered =
          sentIn dir [st.writeOut cfg a.direction x] ++ waitingIn dir (queue ++ []) := by
    rw [List.append_nil]
    by_cases hd : a.direction = dir
    · refine ⟨[x], .altered hd hx, ?_⟩
      rw [waitingIn_nil hwaits (hd ▸ hdir)]
      simp [sentIn, LinkState.writeOut, hd]
    · refine ⟨[], .nothing _, ?_⟩
      simp [sentIn, LinkState.writeOut, hd]
  cases h with
  | relayed hdir =>
      exact ⟨[], by rw [List.append_nil]; exact hqueue, hnil, Or.inl rfl, hdirect .whole (Or.inl hdir)⟩
  | direct hdir hdelay hx =>
      exact ⟨[], by rw [List.append_nil]; exact hqueue, hnil, Or.inl rfl, hdirect hx (Or.inr hdelay)⟩
  | lost | stopped =>
      refine ⟨[], by rw [List.append_nil]; exact hqueue, hnil, Or.inl rfl, fun dir => ?_⟩
      exact ⟨[], .nothing _, by rw [List.append_nil, List.append_nil]; rfl⟩
  | @delayed hdir hdelay x hx r d hd q hvalid hheld =>
      refine ⟨[{ ts := st.last_clock.after (d % 10000), direction := a.direction, buf := x }], ?_, ?_,
        Or.inr ⟨_, rfl, r, d, hd, rfl⟩, fun dir => ?_⟩
      · refine hheld.trans ?_
        rw [hqueue, Multiset.cons_coe, Multiset.coe_eq_coe]
        exact List.perm_append_singleton _ _ |>.symm
      · intro p hp
        rw [List.mem_singleton.mp hp]
        exact ⟨hdir, hdelay⟩
      · by_cases hd : a.direction = dir
        · refine ⟨[x], .altered hd hx, ?_⟩
          simp [sentIn, waitingIn, hd]
        · refine ⟨[], .nothing _, ?_⟩
          simp [sentIn, waitingIn, hd]

/-! ## One turn -/

/-- What a turn does to the queue `gone ++ left` of which it sends `gone`. -/
structure Moves (cfg : LinkConfig) (env : LinkEnv) (st : LinkState) (t : LinkTurn)
    (gone left new : List PktSlot) : Prop where
  waiting : t.state.waiting = ↑(left ++ new)
  waits : ∀ p ∈ new, Waits cfg p
  last_clock : t.state.last_clock = st.last_clock ∧ new = [] ∨
    ∃ now, env.clock_gettime = some now ∧ t.state.last_clock = (st.updateTime now).last_clock
  stamped : new = [] ∨ ∃ p, new = [p] ∧
    ∃ r d, drawDelay cfg r = .ok d ∧ p.ts = t.state.last_clock.after (d % 10000)
  channel : ∀ dir, ∃ entered, Enters cfg dir (arrivalOf cfg env st) entered ∧
    waitingIn dir (gone ++ left) ++ entered = sentIn dir t.sent ++ waitingIn dir (left ++ new)

theorem LinkTurns.moves (h : LinkTurns cfg env st t) :
    ∃ (gone : List PktSlot) (rest : Multiset PktSlot), st.waiting = ↑gone + rest ∧
      (gone.Pairwise fun p p' => p.date ≤ p'.date) ∧ (∀ p ∈ gone, ∀ r ∈ rest, p.date ≤ r.date) ∧
      ∀ left : List PktSlot, rest = ↑left → (∀ p ∈ left, Waits cfg p) →
        ∃ new, Moves cfg env st t gone left new := by
  cases h with
  | @idle st₁ _ gone hclock hdel hnone =>
      refine ⟨gone, t.state.waiting, hclock.frame.1 ▸ hdel.waiting, hdel.sorted, hdel.first,
        fun left hleft _ => ⟨[], by rw [List.append_nil]; exact hleft,
          fun p hp => absurd hp List.not_mem_nil, ?_, Or.inl rfl, fun dir => ⟨[], .nothing _, ?_⟩⟩⟩
      · rw [hdel.last_clock]
        cases hclock with
        | kept => exact Or.inl ⟨rfl, rfl⟩
        | read hnow => exact Or.inr ⟨_, hnow, rfl⟩
      · rw [hdel.sent, sentIn_sends, List.append_nil, List.append_nil, waitingIn_append]
  | @takes now t₁ t₂ gone a hnow hdel hsome hclock hhandles =>
      refine ⟨gone, t₁.state.waiting, hdel.waiting, hdel.sorted, hdel.first,
        fun left hleft hwaits => ?_⟩
      obtain ⟨new, hwaiting, hwaits', hstamped, hchannel⟩ :=
        hhandles.enters (show (t₁.state.heardFrom a.source).waiting = ↑left from hleft) hwaits
      have hlast : t₂.state.last_clock = t₁.state.last_clock := (hhandles.frame hdel.valid).2.1
      refine ⟨new, hwaiting, hwaits', Or.inr ⟨now, hnow, hlast.trans hdel.last_clock⟩, ?_,
        fun dir => ?_⟩
      · show new = [] ∨ ∃ p, new = [p] ∧
          ∃ r d, drawDelay cfg r = .ok d ∧ p.ts = t₂.state.last_clock.after (d % 10000)
        rw [hlast]
        exact hstamped
      · obtain ⟨entered, henters, heq⟩ := hchannel dir
        refine ⟨entered, hsome ▸ henters, ?_⟩
        rw [hdel.sent, sentIn_append, sentIn_sends, waitingIn_append, List.append_assoc, heq,
          List.append_assoc]

/-- Whatever the delays, what a turn takes in, what it sends and what waits are the same
    datagrams, in each direction. -/
theorem LinkTurns.perm (h : LinkTurns cfg env st t) {queue : List PktSlot}
    (hqueue : st.waiting = ↑queue) (hwaits : ∀ p ∈ queue, Waits cfg p) :
    ∃ queue' : List PktSlot, t.state.waiting = ↑queue' ∧ (∀ p ∈ queue', Waits cfg p) ∧
      ∀ dir, ∃ entered, Enters cfg dir (arrivalOf cfg env st) entered ∧
        (waitingIn dir queue ++ entered).Perm (sentIn dir t.sent ++ waitingIn dir queue') := by
  obtain ⟨gone, rest, hall, -, -, hmoves⟩ := h.moves
  obtain ⟨left, rfl⟩ := Quot.exists_rep rest
  have hperm : queue.Perm (gone ++ left) := Multiset.coe_eq_coe.mp (hqueue.symm.trans hall)
  have hleft : ∀ p ∈ left, Waits cfg p :=
    fun p hp => hwaits p (hperm.mem_iff.mpr (List.mem_append_right _ hp))
  obtain ⟨new, hm⟩ := hmoves left rfl hleft
  refine ⟨left ++ new, hm.waiting, List.forall_mem_append.mpr ⟨hleft, hm.waits⟩, fun dir => ?_⟩
  obtain ⟨entered, henters, heq⟩ := hm.channel dir
  refine ⟨entered, henters, ?_⟩
  rw [← heq]
  exact (waitingIn_perm dir hperm).append_right entered

/-! ## Constant delay -/

/-- The delay does not vary. -/
def LinkConfig.Constant (cfg : LinkConfig) : Prop := cfg.delay = 0 ∨ cfg.jitter = 0

theorem LinkConfig.Constant.drawDelay (h : cfg.Constant) (hdelay : cfg.delay ≠ 0) {r : Nat}
    {d : UInt32} (hd : SelectiveRepeat.drawDelay cfg r = .ok d) : d = cfg.delay := by
  rw [SelectiveRepeat.drawDelay, if_neg (not_not.mpr (h.resolve_left hdelay))] at hd
  exact (Except.ok.inj hd).symm

/-- The clock has moved on since it was last read. -/
def ClockRises (env : LinkEnv) (st : LinkState) : Prop :=
  ∀ now, env.clock_gettime = some now → st.last_clock.date < (st.updateTime now).last_clock.date

/-- What waits, in the order of arrival, which is that of the dates. -/
structure InLine (cfg : LinkConfig) (st : LinkState) (queue : List PktSlot) : Prop where
  waiting : st.waiting = ↑queue
  waits : ∀ p ∈ queue, Waits cfg p
  sorted : queue.Pairwise fun p p' => p.date < p'.date
  near : ∀ p ∈ queue, p.date ≤ (st.last_clock.after (cfg.delay % 10000)).date

theorem after_date_lt {c c' : Timeval} (h : c.date < c'.date) (d : UInt32) :
    (c.after d).date < (c'.after d).date := by
  rw [Timeval.date, Timeval.date, Prod.Lex.toLex_lt_toLex] at h ⊢
  simp only [Timeval.after]
  omega

/-- A turn keeps the order in both directions. -/
theorem InLine.turn {queue : List PktSlot} (h : InLine cfg st queue) (hconst : cfg.Constant)
    (hrises : ClockRises env st) (hturn : LinkTurns cfg env st t) :
    ∃ queue', InLine cfg t.state queue' ∧
      ∀ dir, ∃ entered, Enters cfg dir (arrivalOf cfg env st) entered ∧
        waitingIn dir queue ++ entered = sentIn dir t.sent ++ waitingIn dir queue' := by
  obtain ⟨gone, rest, hall, hgone, hfirst, hmoves⟩ := hturn.moves
  obtain ⟨left, hsplit, hrest⟩ := take_of_sorted h.sorted (h.waiting.symm.trans hall) hgone hfirst
  have hwaits := h.waits
  have hsorted := h.sorted
  have hnear := h.near
  rw [hsplit, List.forall_mem_append] at hwaits hnear
  rw [hsplit, List.pairwise_append] at hsorted
  obtain ⟨new, hm⟩ := hmoves left hrest hwaits.2
  have hlate (hread : new ≠ []) : st.last_clock.date < t.state.last_clock.date := by
    rcases hm.last_clock with ⟨-, hnil⟩ | ⟨now, hnow, hlast⟩
    · exact absurd hnil hread
    · rw [hlast]
      exact hrises now hnow
  have hafter : (st.last_clock.after (cfg.delay % 10000)).date ≤
      (t.state.last_clock.after (cfg.delay % 10000)).date := by
    rcases hm.last_clock with ⟨hsame, -⟩ | ⟨now, hnow, hlast⟩
    · rw [hsame]
    · rw [hlast]
      exact le_of_lt (after_date_lt (hrises now hnow) _)
  -- the date of a new one is the latest there can be
  have hnew : ∀ p ∈ new, p.date = (t.state.last_clock.after (cfg.delay % 10000)).date := by
    intro p hp
    rcases hm.stamped with rfl | ⟨p', rfl, r, d, hd, hts⟩
    · exact absurd hp List.not_mem_nil
    · rw [List.mem_singleton.mp hp, PktSlot.date, hts,
        hconst.drawDelay (hm.waits p' List.mem_cons_self).2 hd]
  refine ⟨left ++ new, ⟨hm.waiting, List.forall_mem_append.mpr ⟨hwaits.2, hm.waits⟩, ?_, ?_⟩,
    fun dir => ?_⟩
  · rw [List.pairwise_append]
    refine ⟨hsorted.2.1, ?_, fun p hp p' hp' => ?_⟩
    · rcases hm.stamped with rfl | ⟨p', rfl, -⟩
      · exact List.Pairwise.nil
      · exact List.pairwise_singleton _ _
    · rw [hnew p' hp']
      have hread : new ≠ [] := List.ne_nil_of_mem hp'
      exact lt_of_le_of_lt (hnear.2 p hp) (after_date_lt (hlate hread) _)
  · rw [List.forall_mem_append]
    exact ⟨fun p hp => le_trans (hnear.2 p hp) hafter, fun p hp => le_of_eq (hnew p hp)⟩
  · obtain ⟨entered, henters, heq⟩ := hm.channel dir
    exact ⟨entered, henters, hsplit ▸ heq⟩

theorem LinkConfig.Constant.divides (h : cfg.Constant) : cfg.Divides := by
  intro hjitter
  have hzero : cfg.delay = 0 := h.resolve_right hjitter
  rw [hzero, UInt32.zero_add, if_pos]
  · exact hjitter
  · exact UInt32.pos_iff_ne_zero.mpr hjitter

/-! ## Runs -/

variable {stop : Bool} {as : List Arrival} {ds : List Departure}

/-- In a direction, what has come out and then what waits, with the datagrams it was made of. -/
def InTurn (cfg : LinkConfig) (queue : List PktSlot) (as : List Arrival) (ds : List Departure)
    (dir : Direction) : Prop :=
  ∃ passed : List Arrival, passed.Sublist (as.filter (·.direction = dir)) ∧
    List.Forall₂ (fun a x => Altered cfg a.buf x) passed
      (sentIn dir (ds.map Departure.out) ++ waitingIn dir queue)

theorem Enters.passed {dir : Direction} {arrival : Option Arrival} {entered : List Bytes}
    (h : Enters cfg dir arrival entered) :
    ∃ passed : List Arrival, passed.Sublist (arrival.toList.filter (·.direction = dir)) ∧
      List.Forall₂ (fun a x => Altered cfg a.buf x) passed entered := by
  cases h with
  | nothing => exact ⟨[], List.nil_sublist _, .nil⟩
  | @altered a hdir x hx => exact ⟨[a], by simp [hdir], .cons hx .nil⟩

theorem LinkHistory.inLine (hconst : cfg.Constant) (h : LinkHistory cfg ClockRises st stop as ds) :
    ∃ queue, InLine cfg st queue ∧ ∀ dir, InTurn cfg queue as ds dir := by
  induction h with
  | init block now =>
      refine ⟨[], ⟨rfl, fun p hp => absurd hp List.not_mem_nil, List.Pairwise.nil,
        fun p hp => absurd hp List.not_mem_nil⟩, fun dir => ⟨[], List.nil_sublist _, .nil⟩⟩
  | @turn st as ds env t hist hrises hturn ih =>
      have hc := hist.conserves
      obtain ⟨queue, hline, hturns⟩ := ih
      obtain ⟨queue', hline', hchannel⟩ :=
        hline.turn hconst hrises (linkTurns_of_ok hc.valid hturn)
      refine ⟨queue', hline', fun dir => ?_⟩
      obtain ⟨passed, hsub, hpassed⟩ := hturns dir
      obtain ⟨entered, henters, heq⟩ := hchannel dir
      obtain ⟨passed', hsub', hpassed'⟩ := henters.passed
      refine ⟨passed ++ passed', ?_, ?_⟩
      · rw [List.filter_append]
        exact hsub.append hsub'
      · have hout : t.departures.map Departure.out = t.sent := by
          rw [LinkTurn.departures, List.map_map]
          exact List.map_id _
        rw [List.map_append, hout, sentIn_append, List.append_assoc, ← heq, ← List.append_assoc]
        exact List.rel_append hpassed hpassed'

/-- A link with a constant delay keeps the order.  In every run in which the clock moves on
    from turn to turn: in each direction, the datagrams sent so far and then those that
    wait are made, one from each and in the same order, of some of those taken in. -/
theorem linkHistory_keeps_order (hconst : cfg.Constant)
    (h : LinkHistory cfg ClockRises st stop as ds) (dir : Direction) :
    ∃ queue : List PktSlot, st.waiting = ↑queue ∧
      ∃ passed : List Arrival, passed.Sublist (as.filter (·.direction = dir)) ∧
        List.Forall₂ (fun a x => Altered cfg a.buf x) passed
          (sentIn dir (ds.map Departure.out) ++ waitingIn dir queue) := by
  obtain ⟨queue, hline, hturns⟩ := h.inLine hconst
  exact ⟨queue, hline.waiting, hturns dir⟩

end

/-- Of three datagrams the first is through, the second on its way and the third lost. -/
theorem linkHistory_keeps_order_late :
    ∃ (st : LinkState) (as : List Arrival) (ds : List Departure) (queue : List PktSlot),
      as.length = 3 ∧ st.waiting = ↑queue ∧ ∃ passed : List Arrival,
        passed.Sublist (as.filter (·.direction = .forward)) ∧
        List.Forall₂ (fun a x => Altered lossyLink a.buf x) passed
          (sentIn .forward (ds.map Departure.out) ++ waitingIn .forward queue) ∧
        sentIn .forward (ds.map Departure.out) = [List.replicate 10 1] ∧
        waitingIn .forward queue = [List.replicate 10 2] := by
  have hrises {st : LinkState} {ms ms' : Int} {byte : UInt8} {loss : Nat} (hread : ReadAt ms st)
      (hlt : ms < ms') : ClockRises (lateArrival ms' byte loss) st := by
    intro now hnow
    rw [← Option.some.inj hnow, hread, Timeval.date, Timeval.date, Prod.Lex.toLex_lt_toLex]
    refine Or.inr ⟨rfl, ?_⟩
    show ms * 1000 < ms' * 1000000 / 1000
    omega
  have hfirst : ClockRises (lateArrival 0 1 60) (linkInit (fun _ => zeroSlot) (0, 0)) := by
    intro now hnow
    rw [← Option.some.inj hnow, Timeval.date, Timeval.date, Prod.Lex.toLex_lt_toLex]
    exact Or.inl (show (0 : Int) < 7 by decide)
  obtain ⟨-, st, -, as, ds, -, h, hwaiting, has, hds⟩ := @exists_lateArrivals ClockRises hfirst
    (fun st hread => hrises hread (by decide)) fun st hread => hrises hread (by decide)
  obtain ⟨queue, hqueue, passed, hsub, hpassed⟩ :=
    linkHistory_keeps_order (Or.inr rfl) h .forward
  have has' : as.length = 3 := by simpa using congrArg List.length has
  -- what is sent, and what waits
  have hsent : sentIn .forward (ds.map Departure.out) = [List.replicate 10 1] := by
    obtain ⟨d, rfl⟩ := List.length_eq_one_iff.mp (by simpa using congrArg List.length hds)
    simp only [List.map_cons, List.map_nil, List.cons.injEq, Prod.mk.injEq, and_true] at hds
    simp [sentIn, hds]
  have hleft : waitingIn .forward queue = [List.replicate 10 2] := by
    rw [hqueue, ← Multiset.coe_singleton, Multiset.coe_eq_coe, List.perm_singleton] at hwaiting
    rw [hwaiting]
    rfl
  exact ⟨st, as, ds, queue, has', hqueue, passed, hsub, hpassed, hsent, hleft⟩

end SelectiveRepeat
