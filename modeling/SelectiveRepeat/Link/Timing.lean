/-
  SelectiveRepeat.Link.Timing

  When a delayed datagram is sent, in microseconds.  The expiration date gets the
  milliseconds added to `tv_usec` without a carry, and is compared with a clock that
  has one: a datagram whose date would carry is sent as soon as the clock comes to the
  next full second.
-/
import SelectiveRepeat.Link.History

namespace SelectiveRepeat

def Timeval.usecs (t : Timeval) : Int := t.tv_sec * 1000000 + t.tv_usec

/-- What the clock reads. -/
def Timeval.Normal (t : Timeval) : Prop := 0 ≤ t.tv_usec ∧ t.tv_usec < 1000000

/-- The nanoseconds `clock_gettime` gives are less than a second. -/
def SaneClock (env : LinkEnv) (_ : LinkState) : Prop :=
  ∀ now, env.clock_gettime = some now → 0 ≤ now.2 ∧ now.2 < 1000000000

theorem LinkState.updateTime_normal {st : LinkState} {now : Int × Int} (hlow : 0 ≤ now.2)
    (hhigh : now.2 < 1000000000) : (st.updateTime now).last_clock.Normal := by
  simp only [Timeval.Normal, LinkState.updateTime]
  omega

/-! ## The delay -/

/-- The milliseconds that can be drawn. -/
def Spread (cfg : LinkConfig) (ms : Nat) : Prop :=
  if cfg.jitter = 0 then ms = cfg.delay.toNat
  else if cfg.jitter > cfg.delay then ms < cfg.delay.toNat + cfg.jitter.toNat
  else cfg.delay.toNat - cfg.jitter.toNat ≤ ms ∧ ms < cfg.delay.toNat + cfg.jitter.toNat

/-- The delay and the jitter together are below 2^32 ms. -/
def LinkConfig.Small (cfg : LinkConfig) : Prop := cfg.delay.toNat + cfg.jitter.toNat < 2 ^ 32

section
variable {cfg : LinkConfig} {env : LinkEnv} {st : LinkState} {stop : Bool} {as : List Arrival}
  {ds : List Departure} {t : LinkTurn}

theorem modUInt32_lt {r m x : UInt32} (h : modUInt32 r m = .ok x) : x.toNat < m.toNat := by
  rw [modUInt32] at h
  split at h
  · exact absurd h (by simp)
  · rename_i hne
    rw [← Except.ok.inj h, UInt32.toNat_mod]
    exact Nat.mod_lt _ (UInt32.pos_iff_ne_zero.mpr hne)

theorem drawDelay_spread (hsmall : cfg.Small) {r : Nat} {d : UInt32}
    (hd : drawDelay cfg r = .ok d) : Spread cfg d.toNat := by
  rw [drawDelay] at hd
  rw [LinkConfig.Small] at hsmall
  rw [Spread]
  by_cases hjitter : cfg.jitter = 0
  · rw [if_neg (not_not.mpr hjitter)] at hd
    rw [if_pos hjitter, Except.ok.inj hd]
  rw [if_pos hjitter] at hd
  rw [if_neg hjitter]
  split at hd
  · rename_i hgt
    have hlt := modUInt32_lt hd
    rw [UInt32.toNat_add, Nat.mod_eq_of_lt hsmall] at hlt
    rw [if_pos hgt]
    exact hlt
  · rename_i hle
    have hle' : cfg.jitter.toNat ≤ cfg.delay.toNat := UInt32.not_lt.mp hle
    rw [if_neg hle]
    cases hx : modUInt32 (UInt32.ofNat r) (2 * cfg.jitter) with
    | error e =>
        rw [hx] at hd
        exact absurd hd (by simp [bind, Except.bind])
    | ok x =>
        rw [hx, link_ok_bind] at hd
        have hlt := modUInt32_lt hx
        rw [UInt32.toNat_mul, show (2 : UInt32).toNat = 2 from rfl] at hlt
        -- twice the jitter does not wrap, and what wraps in the sum comes back
        rw [← show _ = d from Except.ok.inj hd, UInt32.toNat_sub, UInt32.toNat_add]
        omega

/-! ## The date -/

/-- A delay of `ms` from `c` on has passed at `now`; or the date would carry, and the next full
    second has begun. -/
def Released (c : Timeval) (ms : Nat) (now : Timeval) : Prop :=
  c.usecs + 1000 * ms < now.usecs ∨
    1000000 ≤ c.tv_usec + 1000 * (ms % 1000 : Nat) ∧
      (c.tv_sec + (ms / 1000 : Nat) + 1) * 1000000 ≤ now.usecs

/-- The test on the date is exactly that. -/
theorem after_date_lt_iff {c now : Timeval} (hc : c.Normal) (hnow : now.Normal) (d : UInt32) :
    (c.after d).date < now.date ↔ Released c d.toNat now := by
  have hdiv : (d / 1000).toNat = d.toNat / 1000 := by
    rw [UInt32.toNat_div]
    rfl
  have hmod : (d % 1000 * 1000).toNat = d.toNat % 1000 * 1000 := by
    rw [UInt32.toNat_mul, UInt32.toNat_mod]
    simp only [UInt32.reduceToNat]
    omega
  obtain ⟨hc0, hc1⟩ := hc
  obtain ⟨hn0, hn1⟩ := hnow
  rw [Timeval.date, Timeval.date, Prod.Lex.toLex_lt_toLex, Released]
  simp only [Timeval.after, hdiv, hmod, Timeval.usecs]
  omega

/-! ## Runs -/

/-- The readings of the clock in a run. -/
structure Clocks (st : LinkState) (as : List Arrival) (ds : List Departure) : Prop where
  last_clock : st.waiting ≠ 0 → st.last_clock.Normal
  arrivals : ∀ a ∈ as, a.clock.Normal
  departures : ∀ d ∈ ds, d.clock.Normal

theorem departures_clock {t : LinkTurn} {d : Departure} (hd : d ∈ t.departures) :
    d.clock = t.state.last_clock := by
  obtain ⟨out, -, rfl⟩ := List.mem_map.mp hd
  rfl

theorem Clocks.turn (h : Clocks st as ds) (hsane : SaneClock env st)
    (hturn : LinkTurns cfg env st t) :
    Clocks t.state (as ++ (arrivalOf cfg env st).toList) (ds ++ t.departures) := by
  cases hturn with
  | @idle st₁ _ gone hclock hdel hnone =>
      rw [hnone, Option.toList_none, List.append_nil]
      -- if anything waited, the clock was read
      have hlast : st.waiting ≠ 0 → t.state.last_clock.Normal := by
        intro hne
        rw [hdel.last_clock]
        cases hclock with
        | kept => exact h.last_clock hne
        | read hnow => exact LinkState.updateTime_normal (hsane _ hnow).1 (hsane _ hnow).2
      have hwaiting := hclock.frame.1
      refine ⟨fun hne => hlast fun hzero => hne (hdel.nil (hwaiting.trans hzero)).2, h.arrivals, ?_⟩
      · rw [List.forall_mem_append]
        refine ⟨h.departures, fun d hd => ?_⟩
        rw [departures_clock hd]
        refine hlast fun hzero => ?_
        rw [(hdel.nil (hwaiting.trans hzero)).1] at hd
        exact absurd hd List.not_mem_nil
  | @takes now t₁ t₂ gone a hnow hdel hsome hclock hhandles =>
      have hnormal : t₁.state.last_clock.Normal := by
        rw [hdel.last_clock]
        exact LinkState.updateTime_normal (hsane _ hnow).1 (hsane _ hnow).2
      have hlast : t₂.state.last_clock = t₁.state.last_clock := (hhandles.frame hdel.valid).2.1
      rw [hsome, Option.toList_some]
      refine ⟨fun _ => hlast ▸ hnormal, ?_, ?_⟩
      · rw [List.forall_mem_append, List.forall_mem_singleton, hclock]
        exact ⟨h.arrivals, hnormal⟩
      · rw [List.forall_mem_append]
        refine ⟨h.departures, fun d hd => ?_⟩
        rw [departures_clock hd]
        exact hlast ▸ hnormal

theorem LinkHistory.clocks (h : LinkHistory cfg SaneClock st stop as ds) :
    Clocks st as ds := by
  induction h with
  | init block now =>
      exact ⟨fun hne => absurd rfl hne, fun a ha => absurd ha List.not_mem_nil,
        fun d hd => absurd hd List.not_mem_nil⟩
  | turn hist hsane hturn ih =>
      exact ih.turn hsane (linkTurns_of_ok hist.conserves.valid hturn)

/-- The delay of a datagram of a simulated direction is one that can be drawn, less whole
    multiples of ten seconds, and was over when it was sent. -/
def OnTime (cfg : LinkConfig) (a : Arrival) (d : Departure) : Prop :=
  sameDirection a.direction cfg.link_direction = true → cfg.delay ≠ 0 →
    ∃ ms, Spread cfg ms ∧ Released a.clock (ms % 10000) d.clock

theorem Relayed.onTime {a : Arrival} {d : Departure} (h : Relayed cfg a d) (hsmall : cfg.Small)
    (ha : a.clock.Normal) (hd : d.clock.Normal) : OnTime cfg a d := by
  intro hdir hdelay
  cases h with
  | relayed hdir' =>
      rw [hdir] at hdir'
      exact absurd hdir' (by simp)
  | direct _ hdelay' => exact absurd hdelay' hdelay
  | @delayed p hp _ _ hdue =>
      obtain ⟨r, x, hx, hts⟩ := hp.date
      refine ⟨x.toNat, drawDelay_spread hsmall hx, ?_⟩
      rw [PktSlot.date, hts, after_date_lt_iff ha hd, UInt32.toNat_mod] at hdue
      exact hdue

/-- No delayed datagram is sent before its time.  In every run of which the clock gives less
    than a second of nanoseconds, the datagrams sent come one for one from datagrams taken
    in, and each that is delayed was sent after a delay that can be drawn for it had
    passed, or, where adding the milliseconds to the microseconds of the clock gives a
    second or more, when the next full second had begun. -/
theorem linkHistory_delays (hsmall : cfg.Small) (h : LinkHistory cfg SaneClock st stop as ds) :
    ∃ out left : Multiset Arrival, out + left ≤ ↑as ∧
      Multiset.Rel (fun a d => Relayed cfg a d ∧ OnTime cfg a d) out ↑ds ∧
      Multiset.Rel (Delayed cfg) left st.waiting := by
  have hclocks := h.clocks
  obtain ⟨out, left, dropped, hall, hout, hleft, -⟩ := h.conserves.balance
  have hle : out + left ≤ ↑as := by
    rw [hall]
    exact Multiset.le_add_right _ _
  refine ⟨out, left, hle, hout.mono fun a ha d hd hpassed => ⟨hpassed, ?_⟩, hleft⟩
  have hmem : a ∈ as :=
    Multiset.mem_coe.mp (Multiset.mem_of_le hle (Multiset.mem_add.mpr (Or.inl ha)))
  exact hpassed.onTime hsmall (hclocks.arrivals a hmem) (hclocks.departures d (Multiset.mem_coe.mp hd))

end

/-! ## The runs of one and of three datagrams -/

theorem lossyLink_small : lossyLink.Small := by
  show 5 + 0 < 2 ^ 32
  decide

theorem lateArrival_sane {ms : Int} (hlow : 0 ≤ ms) (hhigh : ms < 1000) (byte : UInt8) (loss : Nat)
    (st : LinkState) : SaneClock (lateArrival ms byte loss) st := by
  intro now hnow
  rw [← Option.some.inj hnow]
  refine ⟨?_, ?_⟩
  · show 0 ≤ ms * 1000000
    omega
  · show ms * 1000000 < 1000000000
    omega

/-- The first of three datagrams has left, five milliseconds after it came. -/
theorem linkHistory_delays_late :
    ∃ (st : LinkState) (as : List Arrival) (ds : List Departure), as.length = 3 ∧ ds.length = 1 ∧
      (∃ a ∈ as, ∃ d ∈ ds, Relayed lossyLink a d ∧ Released a.clock 5 d.clock) ∧
      ∃ out left : Multiset Arrival, out + left ≤ ↑as ∧
        Multiset.Rel (Delayed lossyLink) left st.waiting := by
  obtain ⟨-, st, -, as, ds, -, h, -, has, hds⟩ := @exists_lateArrivals SaneClock
    (lateArrival_sane (by decide) (by decide) 1 60 _)
    (fun st _ => lateArrival_sane (by decide) (by decide) 2 60 st)
    fun st _ => lateArrival_sane (by decide) (by decide) 3 0 st
  obtain ⟨out, left, hle, hout, hleft⟩ := linkHistory_delays lossyLink_small h
  have has' : as.length = 3 := by simpa using congrArg List.length has
  have hds' : ds.length = 1 := by simpa using congrArg List.length hds
  refine ⟨st, as, ds, has', hds', ?_, out, left, hle, hleft⟩
  -- the one that was sent comes from one that was taken in
  obtain ⟨d, rfl⟩ := List.length_eq_one_iff.mp hds'
  obtain ⟨a, ha, hrelayed, hontime⟩ :=
    Multiset.exists_mem_of_rel_of_mem (Multiset.rel_flip.mpr hout)
      (Multiset.mem_coe.mpr (List.mem_singleton_self d))
  have hmem : a ∈ as :=
    Multiset.mem_coe.mp (Multiset.mem_of_le hle (Multiset.mem_add.mpr (Or.inl ha)))
  have hforward : a.direction = .forward := by
    have hin := List.mem_map_of_mem (f := fun a : Arrival => (a.direction, a.buf.head?)) hmem
    rw [has] at hin
    simp only [List.mem_cons, Prod.mk.injEq, List.not_mem_nil, or_false] at hin
    rcases hin with hin | hin | hin <;> exact hin.1
  obtain ⟨ms, hspread, hreleased⟩ := hontime (by rw [hforward]; rfl) (by decide)
  have hms : ms = 5 := hspread
  rw [hms] at hreleased
  exact ⟨a, hmem, d, List.mem_singleton_self d, hrelayed, hreleased⟩

end SelectiveRepeat
