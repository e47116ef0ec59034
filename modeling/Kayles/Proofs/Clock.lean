import Kayles.Proofs.Isolation
import Kayles.Proofs.Sessions

set_option autoImplicit false

/-! # The clock and the timeout

While the clock does not go back, no game was last active after its present reading, so the 64-bit
subtraction of the sweep is the subtraction of the integers and the sweep is exact: `sweep_exact`.
What the timeout means for the players is `timeout_contract`: a game is evicted only after a timeout
without messages, unless it was sent moves that were refused. -/

namespace Kayles

/-! ## Runs in clock order -/

/-- The readings of the clock that an event takes. -/
def Event.readings : Event → List UInt64
  | .sweep now => [now]
  | .datagram now _ _ => [now]

def Label.readings (l : Label) : List UInt64 := l.event.readings

/-- The readings of the clock along a run. -/
abbrev readings (tr : List Transition) : List UInt64 := LTS.readings Label.readings tr

theorem readings_snoc (tr : List Transition) (t : Transition) :
    readings (tr ++ [t]) = readings tr ++ t.label.readings := by
  rw [readings, LTS.readings_append, LTS.readings_singleton]

/-- The clock never goes back. -/
def InOrder (tr : List Transition) : Prop := (readings tr).Pairwise (· ≤ ·)

/-- No game of `s` was last active after `now`. -/
def ServerState.ActiveBy (now : UInt64) (s : ServerState) : Prop :=
  ∀ id g, s.activeGames.lookup id = some g → g.lastActivity ≤ now

section Readings

variable {srv : Server} {s s' : ServerState} {l : Label} {id : UInt32} {g g' : GameState}
  {now t h : UInt64} {d : Datagram} {log : List LogLine} {tr : List Transition}

/-- A change of a game leaves `last_activity` or reads the clock. -/
theorem Change.lastActivity (hc : Change now d log id g g') :
    g'.lastActivity = g.lastActivity ∨ g'.lastActivity = now := by
  cases hc with
  | idle _ _ _ => exact .inl rfl
  | seat _ _ _ => exact .inr rfl
  | move _ => exact .inr rfl
  | giveUp _ => exact .inr rfl
  | keepAlive _ _ _ _ => exact .inr rfl

theorem Appears.lastActivity_le {tmpl : GameState} {alloc : Allocation}
    (ha : Appears tmpl now alloc d s id g) : g.lastActivity ≤ now := by
  rcases ha.game with ⟨-, rfl⟩ | ⟨-, rfl⟩
  · exact UInt64.le_refl _
  · exact UInt64.zero_le

/-- One handling keeps the bound. -/
theorem Handling.activeBy {tmpl : GameState} {alloc : Allocation} {out : Output}
    (hh : Handling tmpl now alloc d s s' out) (hs : s.ActiveBy now) : s'.ActiveBy now := by
  intro id g' hg'
  rcases hh.entry hg' with ⟨g, hg, hc⟩ | ⟨-, ha⟩
  · rcases hc.lastActivity with hla | hla
    · rw [hla]
      exact hs id g hg
    · rw [hla]
      exact UInt64.le_refl _
  · exact ha.lastActivity_le

theorem Sweeps.activeBy {out : Output} (hsweep : Sweeps srv now s s' out) (hs : s.ActiveBy t) :
    s'.ActiveBy t := fun id g hg => hs id g (hsweep.lookup_eq_some.1 hg).1

theorem ServerState.ActiveBy.mono (hs : s.ActiveBy now) (hle : now ≤ t) : s.ActiveBy t :=
  fun id g hg => UInt64.le_trans (hs id g hg) hle

/-- One step keeps the bound, from its reading of the clock on. -/
theorem Step.activeBy (hstep : Step srv s l s') (hs : ∀ u ∈ l.readings ++ [t], s.ActiveBy u)
    (hord : (l.readings ++ [t]).Pairwise (· ≤ ·)) : s'.ActiveBy t := by
  obtain ⟨event, out⟩ := l
  cases event with
  | sweep now => exact Sweeps.activeBy hstep (hs t (by simp))
  | datagram now alloc d =>
      have hnow : s.ActiveBy now := hs now (by simp [Label.readings, Event.readings])
      have hle : now ≤ t := by simpa [Label.readings, Event.readings] using hord
      exact ((Handles.handling hstep).activeBy hnow).mono hle

/-- **No timestamp is ahead of the clock.** -/
theorem activeBy_of_run (hrun : LTS.Run (Step srv) .initial tr s)
    (hord : (readings tr ++ [t]).Pairwise (· ≤ ·)) : s.ActiveBy t := by
  refine hrun.clock_invariant (I := fun t s => s.ActiveBy t) ?_ ?_ hord
  · intro t id g hg
    simp [ServerState.initial] at hg
  · intro s l s' t hs hord hstep
    exact hstep.activeBy hs hord

/-- The test of the sweep, on timestamps that are not ahead of the clock. -/
theorem GameState.expired_iff {timeoutMs : UInt64} (hle : g.lastActivity ≤ now) :
    g.Expired now timeoutMs ↔
      (timeoutMs.toNat : ℤ) < (now.toNat : ℤ) - (g.lastActivity.toNat : ℤ) := by
  have hnat := UInt64.le_iff_toNat_le.1 hle
  rw [GameState.Expired, gt_iff_lt, UInt64.lt_iff_toNat_lt, UInt64.toNat_sub_of_le _ _ hle]
  omega

end Readings

/-! ## The sweep -/

/-- No handler can find, join or refresh a game `id` in `s`: the two searches for a game miss it, and
    what a handling leaves under `id` it has just created. -/
structure OutOfReach (srv : Server) (s : ServerState) (id : UInt32) : Prop where
  notFound : ∀ (p : UInt32) (d : Datagram), findGameAndVerifyPlayers id p d.buf d.len s.activeGames =
    .ok (none, [d.wrongMessage errorIdxGame])
  notWaiting : ∀ order, Finmap.IsTraversal order s.activeGames →
    ∀ g, findWaitingGame order ≠ some ⟨id, g⟩
  notRefreshed : ∀ now alloc d s' out, Handles srv now alloc d s s' out →
    ∀ g, s'.activeGames.lookup id = some g → Appears srv.template now alloc d s id g

theorem outOfReach_of_lookup {srv : Server} {s : ServerState} {id : UInt32}
    (hnone : s.activeGames.lookup id = none) : OutOfReach srv s id where
  notFound p d := by
    rw [findGameAndVerifyPlayers_eq, hnone]
  notWaiting order horder g hfind := by
    obtain ⟨hg, -⟩ := horder.of_find?_eq_some hfind
    rw [hnone] at hg
    exact absurd hg (Option.some_ne_none g).symm
  notRefreshed now alloc d s' out hh g hg := by
    rcases hh.handling.entry hg with ⟨g₀, hg₀, -⟩ | ⟨-, ha⟩
    · rw [hnone] at hg₀
      exact absurd hg₀ (Option.some_ne_none g₀).symm
    · exact ha

/-- **The sweep is exact.** After any run in clock order, at any next reading `t`, no timestamp is
    ahead of the clock; the sweep leaves the games whose last activity is at most a timeout ago,
    unchanged, and erases the others; and no handler after it can reach one that it erased. -/
theorem sweep_exact (srv : Server) {tr : List Transition} {s : ServerState}
    (hrun : LTS.Run (Step srv) .initial tr s) {t : UInt64}
    (hord : (readings tr ++ [t]).Pairwise (· ≤ ·)) :
    (∀ id g, s.activeGames.lookup id = some g → g.lastActivity ≤ t) ∧
    (∀ order, Finmap.IsTraversal order s.activeGames → ∀ id,
      (removeTimedOutGames t srv.timeoutMs order s.activeGames).1.lookup id =
        (s.activeGames.lookup id).filter fun g =>
          decide ((t.toNat : ℤ) - (g.lastActivity.toNat : ℤ) ≤ (srv.timeoutMs.toNat : ℤ))) ∧
    ∀ mid swept, Sweeps srv t s mid swept → ∀ id g, s.activeGames.lookup id = some g →
      (srv.timeoutMs.toNat : ℤ) < (t.toNat : ℤ) - (g.lastActivity.toNat : ℤ) →
      OutOfReach srv mid id := by
  have hactive := activeBy_of_run hrun hord
  refine ⟨hactive, ?_, ?_⟩
  · intro order horder id
    rw [removeTimedOutGames_fst, horder.lookup_eraseWhere]
    cases hg : s.activeGames.lookup id with
    | none => rfl
    | some g =>
        have htest : (!decide (g.Expired t srv.timeoutMs)) =
            decide ((t.toNat : ℤ) - (g.lastActivity.toNat : ℤ) ≤ (srv.timeoutMs.toNat : ℤ)) := by
          rw [← decide_not, decide_eq_decide, GameState.expired_iff (hactive id g hg), not_lt]
        simp only [Option.filter, htest]
  · intro mid swept hsweep id g hg hlate
    have hexp := (GameState.expired_iff (hactive id g hg)).2 hlate
    refine outOfReach_of_lookup ?_
    rw [hsweep.lookup id, hg]
    simp [Option.filter, hexp]

theorem sweep_exact_opened : ∃ tr mid swept,
    LTS.Run (Step threePawns) .initial tr (opened threePawns 7 0) ∧
      Sweeps threePawns 1001 (opened threePawns 7 0) mid swept ∧ OutOfReach threePawns mid 1 := by
  have hinit : ReachableCompleted threePawns .initial := LTS.Reachable.refl
  have hfirst := handling_opened threePawns (p := 7) (by decide) 0
  have hrun := LTS.Run.single (hinit.handles hfirst).step
  obtain ⟨mid, swept, hsweep⟩ := exists_sweeps threePawns 1001 (opened threePawns 7 0)
  have hord : List.Pairwise (· ≤ ·) ([0, 1001] : List UInt64) := by decide
  obtain ⟨-, -, hreach⟩ := sweep_exact threePawns hrun (t := 1001) hord
  exact ⟨_, mid, swept, hrun, hsweep,
    hreach mid swept hsweep 1 _ (lookup_opened threePawns 7 0) (by decide)⟩

/-! ## The timeout -/

/-- `d` is a correct message for the game `id`: of one of the types 1..4, with the length of its type,
    from a player registered in the game it names. -/
structure ServerState.Correct (s : ServerState) (id : UInt32) (d : Datagram) : Prop where
  wellFormed : d.WellFormed
  type_ne : d.msgType ≠ 0
  gameId : d.gameId = id
  registered : ∃ g, s.activeGames.lookup id = some g ∧ g.Registered d.playerId

/-- The step handles a correct message for the game `id` that its handler refuses: a move or a GIVE_UP
    out of turn, or an illegal move. -/
def Refuses (id : UInt32) (t : Transition) : Prop :=
  ∃ now alloc d g, t.label.event = .datagram now alloc d ∧ (d.IsMove ∨ d.IsGiveUp) ∧ d.gameId = id ∧
    t.pre.activeGames.lookup id = some g ∧ g.Registered d.playerId ∧
    ¬ (g.OnTurn d.playerId ∧ (d.IsMove → g.Legal d.movePawns))

/-- The timeout as documented: a sweep at `t` that evicts the game `id` comes more than a timeout
    after every correct message for it that was handled, at `h`, while it was active. -/
def TimeoutContract (srv : Server) (id : UInt32) (tr : List Transition) : Prop :=
  ∀ before m between sweep after, tr = before ++ m :: (between ++ sweep :: after) →
    ∀ h alloc d, m.label.event = .datagram h alloc d → m.pre.Correct id d →
      (∀ u ∈ between, id ∈ u.post.activeGames) →
      ∀ t, sweep.label.event = .sweep t → id ∈ sweep.pre.activeGames →
        id ∉ sweep.post.activeGames → srv.timeoutMs.toNat < t.toNat - h.toNat

section Timeout

variable {srv : Server} {s s' : ServerState} {l : Label} {id : UInt32} {g g' : GameState}
  {now t h : UInt64} {d : Datagram} {tr : List Transition}

/-- A message that is not refused refreshes the game. -/
theorem GameState.lastActivity_after (hwf : d.WellFormed) (ht : d.msgType ≠ 0)
    (hreg : g.Registered d.playerId)
    (hok : d.IsMove ∨ d.IsGiveUp → g.OnTurn d.playerId ∧ (d.IsMove → g.Legal d.movePawns)) :
    (g.after d now).lastActivity = now := by
  rcases hwf.named ht with hmove | hgive | hkeep
  · obtain ⟨hturn, hlegal⟩ := hok (.inl hmove)
    rw [GameState.after_of_moved hmove hturn (hlegal hmove)]
    rfl
  · obtain ⟨hturn, -⟩ := hok (.inr hgive)
    rw [GameState.after_of_gaveUp hgive hturn]
    rfl
  · rw [GameState.after_of_keptAlive hkeep hreg]
    rfl

/-- The game `id` is active and was so at `h` or later. -/
def ServerState.ActiveSince (h : UInt64) (id : UInt32) (s : ServerState) : Prop :=
  ∃ g, s.activeGames.lookup id = some g ∧ h ≤ g.lastActivity

/-- A correct message that is not refused makes its game active at its reading of the clock. -/
theorem Handling.activeSince {tmpl : GameState} {alloc : Allocation} {out : Output}
    (hh : Handling tmpl now alloc d s s' out) (hd : s.Correct id d)
    (hok : ∀ g, s.activeGames.lookup id = some g → d.IsMove ∨ d.IsGiveUp →
      g.OnTurn d.playerId ∧ (d.IsMove → g.Legal d.movePawns)) : s'.ActiveSince now id := by
  obtain ⟨g, hg, hreg⟩ := hd.registered
  obtain rfl := hd.gameId
  obtain ⟨hafter, -⟩ := hh.of_named hd.type_ne hg
  refine ⟨_, hafter, ?_⟩
  rw [GameState.lastActivity_after hd.wellFormed hd.type_ne hreg (hok g hg)]
  exact UInt64.le_refl _

/-- One later step leaves the game active since then, as long as it stays in the map. -/
theorem Step.activeSince (hstep : Step srv s l s') (hs : s.ActiveSince h id)
    (hord : ∀ u ∈ l.readings, h ≤ u) (hid : id ∈ s'.activeGames) : s'.ActiveSince h id := by
  obtain ⟨g, hg, hle⟩ := hs
  obtain ⟨g', hg', hev⟩ := hstep.evolves hg hid
  refine ⟨g', hg', ?_⟩
  obtain ⟨event, out⟩ := l
  cases event with
  | sweep now =>
      obtain rfl : g' = g := hev
      exact hle
  | datagram now alloc d =>
      have hc : Change now d out.log id g g' := hev
      rcases hc.lastActivity with hla | hla
      · rwa [hla]
      · rw [hla]
        exact hord now (by simp [Label.readings, Event.readings])

/-- A run of later steps does. -/
theorem activeSince_of_run (hrun : LTS.Run (Step srv) s tr s') (hs : s.ActiveSince h id)
    (hord : ∀ u ∈ readings tr, h ≤ u) (hact : ∀ u ∈ tr, id ∈ u.post.activeGames) :
    s'.ActiveSince h id := by
  have hboth : ∀ u ∈ tr, (∀ v ∈ u.label.readings, h ≤ v) ∧ id ∈ u.post.activeGames :=
    fun u hu => ⟨fun v hv => hord v (List.mem_flatMap.2 ⟨u, hu, hv⟩), hact u hu⟩
  refine (hrun.restrict hboth).invariant (I := fun s => s.ActiveSince h id) ?_ hs
  intro s l s' hI hst
  exact hst.1.activeSince hI hst.2.1 hst.2.2

theorem Sweeps.notMem_of_expired {out : Output} (hsweep : Sweeps srv t s s' out)
    (hg : s.activeGames.lookup id = some g) (hexp : g.Expired t srv.timeoutMs) :
    id ∉ s'.activeGames := by
  intro hmem
  obtain ⟨g', hg'⟩ := Finmap.mem_iff.1 hmem
  obtain ⟨hold, hkeep⟩ := hsweep.lookup_eq_some.1 hg'
  obtain rfl : g = g' := Option.mem_unique hg hold
  exact hkeep hexp

/-- An eviction in clock order comes more than a timeout after the last activity. -/
theorem Sweeps.timeout_lt {out : Output} (hsweep : Sweeps srv t s s' out) (hs : s.ActiveBy t)
    (hsince : s.ActiveSince h id) (hid : id ∉ s'.activeGames) :
    srv.timeoutMs.toNat < t.toNat - h.toNat := by
  obtain ⟨g, hg, hle⟩ := hsince
  have hexp : g.Expired t srv.timeoutMs := by
    by_contra hkeep
    exact hid (Finmap.mem_of_lookup_eq_some (hsweep.lookup_eq_some.2 ⟨hg, hkeep⟩))
  have hlate := (GameState.expired_iff (hs id g hg)).1 hexp
  have hnat := UInt64.le_iff_toNat_le.1 hle
  omega

end Timeout

theorem sweeps_singleton {srv : Server} {now : UInt64} {id next : UInt32} {g : GameState}
    (hg : ¬ g.Expired now srv.timeoutMs) :
    Sweeps srv now ⟨(∅ : ActiveGames).insert id g, next⟩ ⟨(∅ : ActiveGames).insert id g, next⟩ {} := by
  refine sweeps_of_none fun k g' hk => ?_
  obtain ⟨-, rfl⟩ := eq_of_lookup_singleton hk
  exact hg

/-- Two JOINs when the clock shows 0, each after its sweep. -/
theorem exists_run_at_zero : ∃ tr, LTS.Run (Step threePawns) .initial tr (started threePawns 7 9 0) ∧
    readings tr = [0, 0, 0, 0] ∧ ∀ t ∈ tr, ∀ id, ¬ Refuses id t := by
  have hinit : ReachableCompleted threePawns .initial := LTS.Reachable.refl
  have hfirst := handling_opened threePawns (p := 7) (by decide) 0
  have hsecond := handling_started threePawns 7 (q := 9) (by decide) 0
  have hone := hinit.handling Allocation.ok_succeeds hfirst
  have hsweep : Sweeps threePawns 0 .initial .initial {} :=
    sweeps_of_none (by simp [ServerState.initial])
  have hsweep' : Sweeps threePawns 0 (opened threePawns 7 0) (opened threePawns 7 0) {} :=
    sweeps_singleton (by decide)
  refine ⟨_, (((LTS.Run.single hsweep.step).snoc (hinit.handles hfirst).step).snoc
    hsweep'.step).snoc (hone.handles hsecond).step, rfl, ?_⟩
  intro t ht id hrefuse
  obtain ⟨now, alloc, d, g, hevent, hty, -⟩ := hrefuse
  have hnotJoin : ¬ d.IsJoin :=
    fun hj => hty.elim (fun hm => hm.type_ne hj.2) fun hu => hu.type_ne hj.2
  have hjoin : ∀ p : UInt32, p ≠ 0 → Event.datagram 0 .ok (.join p) ≠ .datagram now alloc d := by
    intro p hp heq
    obtain ⟨-, -, rfl⟩ := Event.datagram.inj heq
    exact hnotJoin (Datagram.isJoin_join hp)
  simp only [List.cons_append, List.nil_append, List.mem_cons, List.not_mem_nil, or_false] at ht
  rcases ht with rfl | rfl | rfl | rfl
  · exact Event.noConfusion hevent
  · exact hjoin 7 (by decide) hevent
  · exact Event.noConfusion hevent
  · exact hjoin 9 (by decide) hevent

/-- **The timeout contract** holds in every run in clock order in which no correct message for the
    game is refused: then a game is evicted only more than a timeout after every message for it. -/
theorem timeout_contract (srv : Server) (id : UInt32) {tr : List Transition} {s : ServerState}
    (hrun : LTS.Run (Step srv) .initial tr s) (hord : InOrder tr)
    (hno : ∀ t ∈ tr, ¬ Refuses id t) : TimeoutContract srv id tr := by
  intro before m between sweep after htr h alloc d hm hd hact t hsweep hpre hpost
  have hsplit : tr = before ++ [m] ++ between ++ [sweep] ++ after := by simpa using htr
  have hrefuse : ¬ Refuses id m := hno m (by simp [htr])
  have hmread : m.label.readings = [h] := by rw [Label.readings, hm, Event.readings]
  have hsread : sweep.label.readings = [t] := by rw [Label.readings, hsweep, Event.readings]
  -- the run up to the sweep, cut at the message
  rw [hsplit] at hrun hord
  obtain ⟨s₃, hrun₃, -⟩ := hrun.split
  obtain ⟨hrun₂, hstep₂, -⟩ := hrun₃.unsnoc
  obtain ⟨s₁, hrun₁, hbetween⟩ := hrun₂.split
  obtain ⟨-, hstep₁, rfl⟩ := hrun₁.unsnoc
  -- the readings up to the sweep
  have hord₂ : (readings (before ++ [m] ++ between) ++ [t]).Pairwise (· ≤ ·) := by
    rw [InOrder, readings, LTS.readings_append, LTS.readings_append _ _ [sweep],
      LTS.readings_singleton, hsread] at hord
    exact (List.pairwise_append.1 hord).1
  have hafter : ∀ u ∈ readings between, h ≤ u := by
    intro u hu
    have hmem : h ∈ readings (before ++ [m]) := by simp [hmread]
    rw [readings, LTS.readings_append] at hord₂
    exact (List.pairwise_append.1 (List.pairwise_append.1 hord₂).1).2.2 h hmem u hu
  have hsince : m.post.ActiveSince h id := by
    have hhandles : Handles srv h alloc d m.pre m.post m.label.output := by
      simpa only [Step, hm] using hstep₁
    refine hhandles.handling.activeSince hd ?_
    intro g hg hty
    by_contra hbad
    obtain ⟨g₀, hg₀, hreg⟩ := hd.registered
    obtain rfl : g = g₀ := Option.mem_unique hg hg₀
    exact hrefuse ⟨h, alloc, d, g, hm, hty, hd.gameId, hg, hreg, hbad⟩
  have hsweeps : Sweeps srv t sweep.pre sweep.post sweep.label.output := by
    simpa only [Step, hsweep] using hstep₂
  exact hsweeps.timeout_lt (activeBy_of_run hrun₂ hord₂)
    (activeSince_of_run hbetween hsince hafter hact) hpost

/-- The game of 7 and 9 is given up half a second after its start, and evicted more than a second
    later. -/
theorem timeout_contract_gaveUp : ∃ tr s, LTS.Run (Step threePawns) .initial tr s ∧
    1 ∉ s.activeGames ∧ TimeoutContract threePawns 1 tr := by
  obtain ⟨tr, hrun, hread, hquiet⟩ := exists_run_at_zero
  have hs := reachable_started threePawns (p := 7) (q := 9) (by decide) (by decide) 0
  have hgive : (Datagram.giveUp 9 1).IsGiveUp := Datagram.isGiveUp_giveUp (by decide) 1
  have hg := lookup_started threePawns 7 9 0
  have hturn : ((threePawns.template.open 7 0).seat 9 0).OnTurn (Datagram.giveUp 9 1).playerId := by
    decide
  have hgaveUp : Handling threePawns.template 500 .ok (.giveUp 9 1) (started threePawns 7 9 0) _ _ :=
    .gaveUp _ hgive hg hturn
  have hg' := (hgaveUp.of_named hgive.type_ne hg).1
  obtain ⟨s, out, hsweep⟩ := exists_sweeps threePawns 1501 _
  have hrun' := (hrun.snoc (hs.handles hgaveUp).step).snoc hsweep.step
  refine ⟨_, s, hrun', hsweep.notMem_of_expired hg' (by decide),
    timeout_contract threePawns 1 hrun' ?_ ?_⟩
  · rw [InOrder, readings_snoc, readings_snoc, hread]
    show List.Pairwise (· ≤ ·) ([0, 0, 0, 0, 500, 1501] : List UInt64)
    decide
  · intro t ht hrefuse
    rw [List.append_assoc, List.mem_append, List.singleton_append, List.mem_pair] at ht
    rcases ht with ht | rfl | rfl
    · exact hquiet t ht 1 hrefuse
    · obtain ⟨now, alloc, d, g, hevent, -, -, hlookup, -, hbad⟩ := hrefuse
      obtain ⟨-, -, rfl⟩ := Event.datagram.inj hevent
      obtain rfl := Option.mem_unique hg hlookup
      exact hbad ⟨hturn, fun hmove => (hgive.not_move hmove).elim⟩
    · obtain ⟨now, alloc, d, g, hevent, -⟩ := hrefuse
      exact Event.noConfusion hevent

/-- Player 7 moves out of turn when the game is a second old, and a millisecond later the game is
    evicted, as after a second without messages. -/
theorem not_all_timeout_contracts : ¬ ∀ (srv : Server) (id : UInt32) (tr : List Transition)
    (s : ServerState), LTS.Run (Step srv) .initial tr s → InOrder tr → TimeoutContract srv id tr := by
  intro hall
  obtain ⟨tr, hrun, hread, -⟩ := exists_run_at_zero
  have hs := reachable_started threePawns (p := 7) (q := 9) (by decide) (by decide) 0
  have hmove : (Datagram.move 1 7 1 0).IsMove := Datagram.isMove_move (.inl rfl) (by decide) 1 0
  have hg := lookup_started threePawns 7 9 0
  have hrefused :
      Handling threePawns.template 1000 .ok (.move 1 7 1 0) (started threePawns 7 9 0) _ _ :=
    .refused _ (.inl hmove) hg (.inl rfl) fun hyes => absurd hyes.1 (by decide)
  have hsweep : Sweeps threePawns 1000 (started threePawns 7 9 0) (started threePawns 7 9 0) {} :=
    sweeps_singleton (by decide)
  obtain ⟨s, out, hlast⟩ := exists_sweeps threePawns 1001 (started threePawns 7 9 0)
  have hrun' := ((hrun.snoc hsweep.step).snoc (hs.handles hrefused).step).snoc hlast.step
  have hcorrect : (started threePawns 7 9 0).Correct 1 (.move 1 7 1 0) :=
    ⟨hmove.1, hmove.type_ne, rfl, _, hg, .inl rfl⟩
  have hcontract := hall threePawns 1 _ s hrun' (by
    rw [InOrder, readings_snoc, readings_snoc, readings_snoc, hread]
    show List.Pairwise (· ≤ ·) ([0, 0, 0, 0, 1000, 1000, 1001] : List UInt64)
    decide)
  have hlt := hcontract _ _ [] _ [] (List.append_assoc _ _ _) 1000 _ _ rfl hcorrect (by simp) 1001 rfl
    (Finmap.mem_of_lookup_eq_some hg) (hlast.notMem_of_expired hg (by decide))
  exact absurd hlt (by decide)

end Kayles
