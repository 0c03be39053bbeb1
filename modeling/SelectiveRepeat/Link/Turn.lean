/-
  SelectiveRepeat.Link.Turn

  What one turn of the link simulator does to the datagrams it holds.  Those whose
  date is past are sent first, the earliest date first.  Then at most one datagram
  is taken in, which is relayed, dropped, altered or delayed.
-/
import SelectiveRepeat.Link.LinkSim

namespace SelectiveRepeat

/-! ## Dates -/

/-- Seconds first, as `timeval_cmp` compares. -/
def Timeval.date (t : Timeval) : ℤ ×ₗ ℤ := toLex (t.tv_sec, t.tv_usec)

def PktSlot.date (p : PktSlot) : ℤ ×ₗ ℤ := p.ts.date

theorem timevalCmp_iff (left right : Timeval) :
    timevalCmp left right = true ↔ right.date < left.date := by
  rw [timevalCmp, Timeval.date, Timeval.date, Prod.Lex.toLex_lt_toLex]
  split
  · rename_i heq
    rw [decide_eq_true_iff]
    omega
  · rename_i hne
    rw [decide_eq_true_iff]
    omega

/-- The queue is in order by date. -/
def LinkState.Valid (st : LinkState) : Prop := st.pkt_queue.Valid PktSlot.date

/-- The datagrams delayed. -/
def LinkState.waiting (st : LinkState) : Multiset PktSlot := st.pkt_queue.held

/-- A datagram that waits, as it is sent. -/
def LinkState.sends (cfg : LinkConfig) (st : LinkState) (p : PktSlot) : Outgoing :=
  st.writeOut cfg p.direction p.buf

section
variable {cfg : LinkConfig} {env : LinkEnv} {st : LinkState}

/-! ## Delayed datagrams -/

/-- `gone` was sent, and the rest waits on. -/
structure Delivers (cfg : LinkConfig) (st : LinkState) (t : LinkTurn) (gone : List PktSlot) :
    Prop where
  sent : t.sent = gone.map (st.sends cfg)
  last_clock : t.state.last_clock = st.last_clock
  src_addr : t.state.src_addr = st.src_addr
  valid : t.state.Valid
  waiting : st.waiting = ↑gone + t.state.waiting
  sorted : gone.Pairwise fun p p' => p.date ≤ p'.date
  due : ∀ p ∈ gone, p.date < st.last_clock.date
  first : ∀ p ∈ gone, ∀ r ∈ t.state.waiting, p.date ≤ r.date

/-- Nothing was due. -/
theorem delivers_none (hv : st.Valid) (stop : Bool) :
    Delivers cfg st { state := st, stop := stop } [] := by
  refine ⟨rfl, rfl, rfl, hv, ?_, List.Pairwise.nil, fun p hp => absurd hp List.not_mem_nil,
    fun p hp => absurd hp List.not_mem_nil⟩
  rw [Multiset.coe_nil, Multiset.zero_add]

/-- One more was sent, before all the others. -/
theorem Delivers.cons {t : LinkTurn} {gone : List PktSlot} {p : PktSlot} {q : MinQueue PktSlot}
    (h : Delivers cfg { st with pkt_queue := q } t gone) (hheld : st.waiting = p ::ₘ q.held)
    (hleast : ∀ r ∈ st.waiting, p.date ≤ r.date) (hdue : p.date < st.last_clock.date) :
    Delivers cfg st { t with sent := st.sends cfg p :: t.sent } (p :: gone) := by
  have hwaiting : q.held = ↑gone + t.state.waiting := h.waiting
  have hall : st.waiting = ↑(p :: gone) + t.state.waiting := by
    rw [hheld, hwaiting, ← Multiset.cons_coe, Multiset.cons_add]
  refine ⟨?_, h.last_clock, h.src_addr, h.valid, hall, ?_, ?_, ?_⟩
  · rw [List.map_cons, h.sent]
    rfl
  · refine List.pairwise_cons.mpr ⟨fun r hr => hleast r ?_, h.sorted⟩
    rw [hall]
    exact Multiset.mem_add.mpr (Or.inl (Multiset.mem_coe.mpr (List.mem_cons_of_mem _ hr)))
  · rw [List.forall_mem_cons]
    exact ⟨hdue, h.due⟩
  · rw [List.forall_mem_cons]
    refine ⟨fun r hr => hleast r ?_, h.first⟩
    rw [hall]
    exact Multiset.mem_add.mpr (Or.inr hr)

/-- Every datagram handed to `sendto` is taken. -/
def LinkEnv.SendsAll (env : LinkEnv) : Prop := ∀ site, env.sendto site = .sent

theorem deliverLoop_spec (hv : st.Valid) {fuel n : Nat} (hfuel : st.pkt_queue.size < fuel) :
    ∃ t gone, deliverLoop cfg env fuel n st = .ok t ∧ Delivers cfg st t gone ∧
      (env.SendsAll → t.stop = false ∧ ∀ r ∈ t.state.waiting, st.last_clock.date ≤ r.date) := by
  induction fuel generalizing n st with
  | zero => exact absurd hfuel (Nat.not_lt_zero _)
  | succ fuel ih =>
      rcases hv.peek with ⟨hempty, hpeek⟩ | ⟨hpos, hpeek, hmem, hleast⟩
      · refine ⟨_, [], by simp only [deliverLoop, hpeek, link_ok_bind]; rfl,
          delivers_none hv false, fun _ => ⟨rfl, fun r hr => ?_⟩⟩
        rw [LinkState.waiting, MinQueue.held, hempty] at hr
        exact absurd hr (Multiset.notMem_zero r)
      · simp only [deliverLoop, hpeek, link_ok_bind]
        by_cases hdue : timevalCmp st.last_clock (st.pkt_queue.e 0).ts = true
        · rw [if_pos hdue]
          cases hsend : env.sendto (.delayed n) with
          | again =>
              refine ⟨_, [], rfl, delivers_none hv false, fun hall => ?_⟩
              rw [hall (.delayed n)] at hsend
              exact SendtoResult.noConfusion hsend
          | failed =>
              refine ⟨_, [], rfl, delivers_none hv true, fun hall => ?_⟩
              rw [hall (.delayed n)] at hsend
              exact SendtoResult.noConfusion hsend
          | sent =>
              obtain ⟨q, hpop, hvalid, ⟨hempty, -⟩ | ⟨-, hheld⟩⟩ := hv.pop
              · omega
              have hsize : q.size < fuel := by
                have hcard := congrArg Multiset.card hheld
                rw [MinQueue.held, MinQueue.held, Multiset.card_cons, Heap.card_bag,
                  Heap.card_bag] at hcard
                omega
              obtain ⟨t, gone, hrun, hdel, hlate⟩ :=
                @ih { st with pkt_queue := q } hvalid (n + 1) hsize
              refine ⟨_, st.pkt_queue.e 0 :: gone, by simp only [hpop, link_ok_bind, hrun]; rfl,
                hdel.cons hheld hleast ((timevalCmp_iff _ _).mp hdue), hlate⟩
        · rw [if_neg hdue]
          refine ⟨_, [], rfl, delivers_none hv false, fun _ => ⟨rfl, fun r hr => ?_⟩⟩
          -- the earliest one is not due, so none is
          exact le_trans (le_of_not_gt fun hlt => hdue ((timevalCmp_iff _ _).mpr hlt)) (hleast r hr)

/-- `deliver_delayed_pkt` sends, the earliest first, datagrams whose date is past, and keeps
    the others; if `sendto` takes them all, none that is due stays. -/
theorem deliverDelayedPkt_delivers (hv : st.Valid) :
    ∃ t gone, deliverDelayedPkt cfg env st = .ok t ∧ Delivers cfg st t gone ∧
      (env.SendsAll → t.stop = false ∧ ∀ r ∈ t.state.waiting, st.last_clock.date ≤ r.date) :=
  deliverLoop_spec hv (Nat.lt_succ_self _)

end

/-! ## The delay -/

/-- No remainder by 0 is taken for the delay: twice the jitter, or its sum with the delay,
    is not 0 on 32 bits. -/
def LinkConfig.Divides (cfg : LinkConfig) : Prop :=
  cfg.jitter ≠ 0 → if cfg.jitter > cfg.delay then cfg.delay + cfg.jitter ≠ 0 else 2 * cfg.jitter ≠ 0

section
variable {cfg : LinkConfig} {env : LinkEnv} {st : LinkState}

/-- The run stops at a remainder by 0, to which the options lead. -/
def LinkConfig.Faults {α : Type} (cfg : LinkConfig) (run : LinkExec α) : Prop :=
  run = .error .modulo ∧ ¬ cfg.Divides

theorem LinkConfig.Faults.bind {α β : Type} {run : LinkExec α} (h : cfg.Faults run)
    (next : α → LinkExec β) : cfg.Faults (run >>= next) := by
  refine ⟨?_, h.2⟩
  rw [h.1]
  rfl

theorem drawDelay_cases (r : Nat) :
    cfg.Faults (drawDelay cfg r) ∨ ∃ d, drawDelay cfg r = .ok d := by
  rw [drawDelay]
  by_cases hjitter : cfg.jitter ≠ 0
  · rw [if_pos hjitter]
    by_cases hgt : cfg.jitter > cfg.delay
    · rw [if_pos hgt, modUInt32]
      by_cases hzero : cfg.delay + cfg.jitter = 0
      · refine Or.inl ⟨if_pos hzero, fun hdiv => ?_⟩
        have hne := hdiv hjitter
        rw [if_pos hgt] at hne
        exact hne hzero
      · rw [if_neg hzero]
        exact Or.inr ⟨_, rfl⟩
    · rw [if_neg hgt, modUInt32]
      by_cases hzero : 2 * cfg.jitter = 0
      · rw [if_pos hzero]
        refine Or.inl ⟨rfl, fun hdiv => ?_⟩
        have hne := hdiv hjitter
        rw [if_neg hgt] at hne
        exact hne hzero
      · rw [if_neg hzero]
        exact Or.inr ⟨_, rfl⟩
  · rw [if_neg hjitter]
    exact Or.inr ⟨_, rfl⟩

theorem appliedDelay_cases (r : Nat) :
    cfg.Faults (appliedDelay cfg r) ∨
      ∃ d, drawDelay cfg r = .ok d ∧ appliedDelay cfg r = .ok (d % 10000) := by
  rcases @drawDelay_cases cfg r with hfault | ⟨d, hd⟩
  · exact Or.inl (hfault.bind _)
  · exact Or.inr ⟨d, hd, by rw [appliedDelay, hd, link_ok_bind]; rfl⟩

/-! ## A datagram received -/

/-- A datagram taken from one of the parties, and the clock then. -/
structure Arrival where
  source : SockAddr
  direction : Direction
  buf : Bytes
  clock : Timeval

/-- Whoever is heard first is the sender. -/
def LinkState.heardFrom (st : LinkState) (source : SockAddr) : LinkState :=
  { st with src_addr := some (st.src_addr.getD source) }

/-- What `recvfrom` brings, if it is long enough and from one of the parties. -/
def LinkEnv.arrival (cfg : LinkConfig) (env : LinkEnv) (st : LinkState) : Option Arrival :=
  match env.recvfrom with
  | .bytes data source =>
      if (data.take MAX_PKT_LEN).length < MIN_PKT_LEN then none
      else (directionOf cfg (st.heardFrom source) source).map fun direction => {
        source := source
        direction := direction
        buf := data.take MAX_PKT_LEN
        clock := st.last_clock }
  | _ => none

/-- What may come out of the simulated link for a datagram that is not lost. -/
inductive Altered (cfg : LinkConfig) (buf : Bytes) : Bytes → Prop where
  | whole : Altered cfg buf buf
  | cut (hrate : cfg.cut_rate ≠ 0) (hlong : MIN_PKT_PDATA_LEN < buf.length) :
      Altered cfg buf (cutPkt buf)
  | corrupt (hrate : cfg.err_rate ≠ 0) {idx : Nat} (hidx : idx < buf.length) :
      Altered cfg buf (corruptPkt buf idx)

/-- What becomes of a datagram taken in. -/
inductive Handles (cfg : LinkConfig) (st : LinkState) (a : Arrival) : LinkTurn → Prop where
  | relayed (hdir : sameDirection a.direction cfg.link_direction = false) :
      Handles cfg st a { state := st, sent := [st.writeOut cfg a.direction a.buf] }
  | lost (hrate : cfg.loss_rate ≠ 0) : Handles cfg st a { state := st }
  | stopped : Handles cfg st a { state := st, stop := true }
  | direct (hdir : sameDirection a.direction cfg.link_direction = true) (hdelay : cfg.delay = 0)
      {x : Bytes} (hx : Altered cfg a.buf x) :
      Handles cfg st a { state := st, sent := [st.writeOut cfg a.direction x] }
  | delayed (hdir : sameDirection a.direction cfg.link_direction = true) (hdelay : cfg.delay ≠ 0)
      {x : Bytes} (hx : Altered cfg a.buf x) {r : Nat} {d : UInt32} (hd : drawDelay cfg r = .ok d)
      {q : MinQueue PktSlot} (hvalid : q.Valid PktSlot.date)
      (hheld : q.held =
        { ts := st.last_clock.after (d % 10000), direction := a.direction, buf := x } ::ₘ
          st.waiting) :
      Handles cfg st a { state := { st with pkt_queue := q } }

theorem drawn_rate {rate : UInt32} {r : Nat} (h : drawn rate r = true) : rate ≠ 0 :=
  (of_decide_eq_true h).1

theorem damagePkt_altered {buf : Bytes} (hlen : 0 < buf.length) :
    damagePkt cfg env buf = none ∧ cfg.loss_rate ≠ 0 ∨
      ∃ x, damagePkt cfg env buf = some x ∧ Altered cfg buf x := by
  rw [damagePkt]
  split
  · rename_i hloss
    exact Or.inl ⟨rfl, drawn_rate hloss⟩
  · refine Or.inr ?_
    split
    · rename_i hcut
      exact ⟨_, rfl, .cut (drawn_rate hcut.1) hcut.2⟩
    · split
      · rename_i herr
        exact ⟨_, rfl, .corrupt (drawn_rate herr) (Nat.mod_lt _ hlen)⟩
      · exact ⟨_, rfl, .whole⟩

theorem forwardPkt_handles (hv : st.Valid) {a : Arrival} {x : Bytes}
    (hdir : sameDirection a.direction cfg.link_direction = true) (hx : Altered cfg a.buf x) :
    cfg.Faults (forwardPkt cfg env st x a.direction) ∨
      ∃ t, forwardPkt cfg env st x a.direction = .ok t ∧ Handles cfg st a t := by
  rw [forwardPkt]
  by_cases hdelay : cfg.delay ≠ 0
  · rw [if_pos hdelay]
    rcases @appliedDelay_cases cfg (env.rand .delay) with hfault | ⟨d, hd, happlied⟩
    · exact Or.inl (hfault.bind _)
    rw [happlied, link_ok_bind]
    right
    split
    · exact ⟨_, rfl, .stopped⟩
    · rcases hv.push env.realloc
        { ts := st.last_clock.after (d % 10000), direction := a.direction, buf := x } with
        ⟨q, hpush, hvalid, hheld⟩ | ⟨-, hpush⟩
      · simp only [hpush, link_ok_bind]
        exact ⟨_, rfl, .delayed hdir hdelay hx hd hvalid hheld⟩
      · simp only [hpush, link_ok_bind]
        exact ⟨_, rfl, .stopped⟩
  · rw [if_neg hdelay]
    right
    split
    · exact ⟨_, rfl, .direct hdir (not_not.mp hdelay) hx⟩
    · exact ⟨_, rfl, .stopped⟩

theorem simulateLink_handles (hv : st.Valid) {a : Arrival} (hlen : 0 < a.buf.length)
    (hdir : sameDirection a.direction cfg.link_direction = true) :
    cfg.Faults (simulateLink cfg env st a.buf a.direction) ∨
      ∃ t, simulateLink cfg env st a.buf a.direction = .ok t ∧ Handles cfg st a t := by
  rw [simulateLink]
  rcases @damagePkt_altered cfg env _ hlen with ⟨hnone, hrate⟩ | ⟨x, hsome, hx⟩
  · rw [hnone]
    exact Or.inr ⟨_, rfl, .lost hrate⟩
  · rw [hsome]
    exact forwardPkt_handles hv hdir hx

/-- The first party heard is the sender, so it is no alien. -/
theorem directionOf_first (source : SockAddr) (h : st.src_addr = none) :
    directionOf cfg (st.heardFrom source) source = some .forward := by
  have hsame : sockaddrCmp source source = false := by simp [sockaddrCmp]
  simp [directionOf, LinkState.heardFrom, h, hsame]

theorem processIncomingPkt_cases (hv : st.Valid) :
    cfg.Faults (processIncomingPkt cfg env st) ∨ ∃ t, processIncomingPkt cfg env st = .ok t ∧
      (env.arrival cfg st = none ∧ t.state = st ∧ t.sent = [] ∨
        ∃ a, env.arrival cfg st = some a ∧ a.clock = st.last_clock ∧
          Handles cfg (st.heardFrom a.source) a t) := by
  rw [processIncomingPkt, LinkEnv.arrival]
  cases env.recvfrom with
  | again => exact Or.inr ⟨_, rfl, Or.inl ⟨rfl, rfl, rfl⟩⟩
  | failed => exact Or.inr ⟨_, rfl, Or.inl ⟨rfl, rfl, rfl⟩⟩
  | bytes data source =>
      by_cases hshort : (data.take MAX_PKT_LEN).length < MIN_PKT_LEN
      · simp only [if_pos hshort]
        exact Or.inr ⟨_, rfl, Or.inl ⟨trivial, rfl, rfl⟩⟩
      · simp only [if_neg hshort]
        have hlen : 0 < (data.take MAX_PKT_LEN).length :=
          Nat.lt_of_lt_of_le (by decide) (Nat.le_of_not_lt hshort)
        have hv' : (st.heardFrom source).Valid := hv
        rw [show ({ st with src_addr := some (st.src_addr.getD source) } : LinkState) =
          st.heardFrom source from rfl]
        cases hdir : directionOf cfg (st.heardFrom source) source with
        | none =>
            -- then somebody was heard before, and nothing has changed
            have hsrc : st.src_addr ≠ none := by
              intro hnone
              rw [directionOf_first source hnone] at hdir
              exact absurd hdir (by simp)
            obtain ⟨src, hsome⟩ := Option.ne_none_iff_exists'.mp hsrc
            refine Or.inr ⟨_, rfl, Or.inl ⟨rfl, ?_, rfl⟩⟩
            show st.heardFrom source = st
            rw [LinkState.heardFrom, hsome, Option.getD_some, ← hsome]
        | some direction =>
            let a : Arrival := {
              source := source
              direction := direction
              buf := data.take MAX_PKT_LEN
              clock := st.last_clock }
            have hlen : 0 < a.buf.length := hlen
            dsimp only
            by_cases hsame : sameDirection direction cfg.link_direction = true
            · rw [if_neg (not_not.mpr hsame)]
              refine (@simulateLink_handles cfg env _ hv' a hlen hsame).imp_right ?_
              rintro ⟨t, hrun, ht⟩
              exact ⟨t, hrun, Or.inr ⟨a, rfl, rfl, ht⟩⟩
            · rw [if_pos hsame]
              right
              split
              · exact ⟨_, rfl, Or.inr ⟨a, rfl, rfl, .relayed (Bool.eq_false_iff.mpr hsame)⟩⟩
              · exact ⟨_, rfl, Or.inr ⟨a, rfl, rfl, .stopped⟩⟩

/-! ## The whole turn -/

/-- The state when the delayed datagrams are looked at. -/
inductive LinkState.Clocked (env : LinkEnv) (st : LinkState) : LinkState → Prop where
  | kept : st.Clocked env st
  | read {now : Int × Int} (hnow : env.clock_gettime = some now) : st.Clocked env (st.updateTime now)

/-- The datagram a turn takes in. -/
def arrivalOf (cfg : LinkConfig) (env : LinkEnv) (st : LinkState) : Option Arrival :=
  match proxyWake cfg env st with
  | .ok (t, true) => env.arrival cfg t.state
  | _ => none

/-- What a turn does: it sends delayed datagrams, and handles the one it takes in, if any. -/
inductive LinkTurns (cfg : LinkConfig) (env : LinkEnv) (st : LinkState) : LinkTurn → Prop where
  | idle {st₁ : LinkState} {t : LinkTurn} {gone : List PktSlot} (hclock : st.Clocked env st₁)
      (hdel : Delivers cfg st₁ t gone) (hnone : arrivalOf cfg env st = none) :
      LinkTurns cfg env st t
  | takes {now : Int × Int} {t t' : LinkTurn} {gone : List PktSlot} {a : Arrival}
      (hnow : env.clock_gettime = some now) (hdel : Delivers cfg (st.updateTime now) t gone)
      (hsome : arrivalOf cfg env st = some a) (hclock : a.clock = t.state.last_clock)
      (hhandles : Handles cfg (t.state.heardFrom a.source) a t') :
      LinkTurns cfg env st { t' with sent := t.sent ++ t'.sent }

theorem getQueueTimeout_ok (hv : st.Valid) : ∃ timeout, getQueueTimeout st = .ok timeout := by
  rcases hv.peek with ⟨-, hpeek⟩ | ⟨-, hpeek, -⟩
  · exact ⟨none, by rw [getQueueTimeout, hpeek]; rfl⟩
  · rw [getQueueTimeout, hpeek, link_ok_bind]
    dsimp only
    split
    · exact ⟨_, rfl⟩
    · exact ⟨_, rfl⟩

theorem proxyWake_spec (hv : st.Valid) :
    ∃ st₁ t gone reads, proxyWake cfg env st = .ok (t, reads) ∧ st.Clocked env st₁ ∧
      Delivers cfg st₁ t gone ∧
      (reads = true → ∃ now, env.clock_gettime = some now ∧ st₁ = st.updateTime now) := by
  obtain ⟨timeout, htimeout⟩ := getQueueTimeout_ok hv
  rw [proxyWake, htimeout, link_ok_bind]
  cases env.select timeout with
  | interrupted =>
      exact ⟨st, _, [], _, rfl, .kept, delivers_none hv false, fun h => absurd h (by simp)⟩
  | failed => exact ⟨st, _, [], _, rfl, .kept, delivers_none hv true, fun h => absurd h (by simp)⟩
  | ready readable =>
      cases hnow : env.clock_gettime with
      | none => exact ⟨st, _, [], _, rfl, .kept, delivers_none hv true, fun h => absurd h (by simp)⟩
      | some now =>
          have hv' : (st.updateTime now).Valid := hv
          obtain ⟨t, gone, hrun, hdel, -⟩ := @deliverDelayedPkt_delivers cfg env _ hv'
          simp only [hrun, link_ok_bind]
          exact ⟨_, t, gone, _, rfl, .read hnow, hdel, fun _ => ⟨now, rfl, rfl⟩⟩

/-- Every turn returns, unless it comes to a remainder by 0. -/
theorem proxyLoop_cases (hv : st.Valid) :
    cfg.Faults (proxyLoop cfg env st) ∨
      ∃ t, proxyLoop cfg env st = .ok t ∧ LinkTurns cfg env st t := by
  obtain ⟨st₁, t, gone, reads, hwake, hclock, hdel, hreads⟩ := @proxyWake_spec cfg env st hv
  rw [proxyLoop, hwake, link_ok_bind]
  cases reads with
  | false => exact Or.inr ⟨t, rfl, .idle hclock hdel (by rw [arrivalOf, hwake])⟩
  | true =>
      have harr : arrivalOf cfg env st = env.arrival cfg t.state := by rw [arrivalOf, hwake]
      obtain ⟨now, hnow, rfl⟩ := hreads rfl
      rcases @processIncomingPkt_cases cfg env t.state hdel.valid with
        hfault | ⟨t', hrun, ⟨hnone, hstate, hsent⟩ | ⟨a, hsome, hat, hhandles⟩⟩
      · exact Or.inl (hfault.bind _)
      · have hdel' : Delivers cfg (st.updateTime now) { t' with sent := t.sent ++ t'.sent } gone := by
          rw [hsent, List.append_nil, hstate]
          exact { hdel with }
        exact Or.inr ⟨_, by simp only [if_pos, hrun, link_ok_bind]; rfl,
          .idle hclock hdel' (harr.trans hnone)⟩
      · exact Or.inr ⟨_, by simp only [if_pos, hrun, link_ok_bind]; rfl,
          .takes hnow hdel (harr.trans hsome) hat hhandles⟩

/-- With other options every turn returns. -/
theorem proxyLoop_ok (hv : st.Valid) (hdiv : cfg.Divides) : ∃ t, proxyLoop cfg env st = .ok t := by
  rcases @proxyLoop_cases cfg env st hv with ⟨-, hdiv'⟩ | ⟨t, hturn, -⟩
  · exact absurd hdiv hdiv'
  · exact ⟨t, hturn⟩

/-- A turn that was made is one of those `LinkTurns` describes. -/
theorem linkTurns_of_ok {t : LinkTurn} (hv : st.Valid) (hturn : proxyLoop cfg env st = .ok t) :
    LinkTurns cfg env st t := by
  rcases @proxyLoop_cases cfg env st hv with ⟨hfault, -⟩ | ⟨t', hturn', hturns⟩
  · rw [hturn] at hfault
    exact absurd hfault (by simp)
  · rw [hturn, Except.ok.injEq] at hturn'
    rw [hturn']
    exact hturns

/-! ## The queue as a list -/

/-- The datagrams in a list that the queue keeps strictly in order are sent from its front. -/
theorem take_of_sorted {queue gone : List PktSlot} {rest : Multiset PktSlot}
    (hqueue : queue.Pairwise fun p p' => p.date < p'.date)
    (hall : (queue : Multiset PktSlot) = ↑gone + rest)
    (hgone : gone.Pairwise fun p p' => p.date ≤ p'.date)
    (hfirst : ∀ p ∈ gone, ∀ r ∈ rest, p.date ≤ r.date) :
    ∃ left, queue = gone ++ left ∧ rest = ↑left := by
  induction gone generalizing queue with
  | nil =>
      refine ⟨queue, rfl, ?_⟩
      rw [hall, Multiset.coe_nil, Multiset.zero_add]
  | cons p gone ih =>
      rw [List.pairwise_cons] at hgone
      rw [List.forall_mem_cons] at hfirst
      rw [← Multiset.cons_coe, Multiset.cons_add] at hall
      cases queue with
      | nil => exact absurd hall.symm Multiset.cons_ne_zero
      | cons p' queue =>
          rw [List.pairwise_cons] at hqueue
          -- the first of the list is the first sent, which no date is below
          have hmem : p ∈ p' :: queue := by
            rw [← Multiset.mem_coe, hall]
            exact Multiset.mem_cons_self _ _
          have hmem' : p' ∈ p ::ₘ (↑gone + rest) := by
            rw [← hall]
            exact List.mem_cons_self
          have hle : p.date ≤ p'.date := by
            rcases Multiset.mem_cons.mp hmem' with rfl | hin
            · exact le_refl _
            · rcases Multiset.mem_add.mp hin with hin | hin
              · exact hgone.1 p' hin
              · exact hfirst.1 p' hin
          have heq : p = p' := by
            rcases List.mem_cons.mp hmem with heq | hin
            · exact heq
            · exact absurd (hqueue.1 p hin) (not_lt_of_ge hle)
          subst heq
          rw [← Multiset.cons_coe, Multiset.cons_inj_right] at hall
          obtain ⟨left, hleft, hrest⟩ := ih hqueue.2 hall hgone.2 hfirst.2
          exact ⟨left, by rw [hleft]; rfl, hrest⟩

end

end SelectiveRepeat
