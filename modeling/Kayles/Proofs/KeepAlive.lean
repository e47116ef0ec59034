import Kayles.Proofs.Clock

set_option autoImplicit false

/-! # Keep-alives only prolong

Two runs of the loop from one state: the second receives what the first receives and, in between,
any number of KEEP_ALIVEs for one game. The two maps may differ, since the sweeps of the extra turns
evict other games sooner. The game itself is in both the same but for a later activity in the second
run, or it has timed out in the first run and waits to be swept: `Outlives`. -/

namespace Kayles

/-! ## The extended run -/

/-- The readings of the clock that a turn takes. -/
def Received.readings : Received → List UInt64
  | .timedOut sweptAt => [sweptAt]
  | .arrived arrival => [arrival.sweptAt, arrival.handledAt]

def Round.readings (l : Round) : List UInt64 := l.received.readings

/-- The readings of a turn that receives a datagram are in order. -/
theorem Arrival.readings_le {a : Arrival} {t : UInt64}
    (hord : ((Received.arrived a).readings ++ [t]).Pairwise (· ≤ ·)) :
    a.sweptAt ≤ a.handledAt ∧ a.sweptAt ≤ t ∧ a.handledAt ≤ t := by
  simp only [Received.readings, List.cons_append, List.nil_append, List.pairwise_cons,
    List.mem_cons, List.not_mem_nil, or_false, forall_eq_or_imp, forall_eq] at hord
  exact ⟨hord.1.1, hord.1.2, hord.2.1⟩

theorem Round.sweptAt_mem (l : Round) : l.received.sweptAt ∈ l.readings := by
  obtain ⟨received, swept, answered⟩ := l
  cases received with
  | timedOut _ => exact List.mem_cons_self
  | arrived _ => exact List.mem_cons_self

/-- What the turns of a run received. -/
def inputs (tr : List (LTS.Transition ServerState Round)) : List Received :=
  tr.map fun t => t.label.received

/-- The same input at the same readings of the clock, in a buffer that may hold other bytes behind
    it. -/
inductive Received.Copy : Received → Received → Prop
  | timedOut (sweptAt : UInt64) : Received.Copy (.timedOut sweptAt) (.timedOut sweptAt)
  | arrived {a a' : Arrival} (h : a.Same a') : Received.Copy (.arrived a) (.arrived a')

/-- A well-formed KEEP_ALIVE for the game `id` from a registered player of `g`. -/
def KeepsAlive (id : UInt32) (g : GameState) : Received → Prop
  | .timedOut _ => False
  | .arrived a => a.d.IsKeepAlive ∧ a.d.gameId = id ∧ g.Registered a.d.playerId

/-- `ins'` is `ins` with KEEP_ALIVEs for the game inserted anywhere. -/
def Extends (id : UInt32) (g : GameState) (ins ins' : List Received) : Prop :=
  LTS.Inserts Received.Copy (KeepsAlive id g) ins ins'

/-- `ins'` has been extended up to the last input of `ins`. -/
def Corresponds (id : UInt32) (g : GameState) (ins ins' : List Received) : Prop :=
  LTS.SamePoint Received.Copy (KeepsAlive id g) ins ins'

/-! ## A game with a later activity -/

section Later

variable {g g' : GameState} {d : Datagram} {now t timeoutMs : UInt64} {p : UInt32}

theorem GameState.SameGame.eq_touch (h : g.SameGame g') : g' = g.touch g'.lastActivity := by
  obtain ⟨hA, hB, hstatus, hmax, hrow⟩ := h
  cases g
  cases g'
  simp only at hA hB hstatus hmax hrow
  subst hA hB hstatus hmax hrow
  rfl

/-- A message does the same to a game whatever its last activity: it refreshes it, or leaves it. -/
theorem GameState.after_touch (g : GameState) (d : Datagram) (now t : UInt64) :
    ((g.touch t).after d now = g.after d now ∧ (g.after d now).lastActivity = now) ∨
      ((g.touch t).after d now = g.touch t ∧ g.after d now = g) := by
  have hturn : (g.touch t).OnTurn d.playerId ↔ g.OnTurn d.playerId := Iff.rfl
  have hlegal : (g.touch t).Legal d.movePawns ↔ g.Legal d.movePawns := Iff.rfl
  have hreg : (g.touch t).Registered d.playerId ↔ g.Registered d.playerId := Iff.rfl
  unfold GameState.after
  simp only [hturn, hlegal, hreg]
  split
  · exact .inl ⟨rfl, rfl⟩
  · split
    · exact .inl ⟨rfl, rfl⟩
    · split
      · exact .inl ⟨rfl, rfl⟩
      · exact .inr ⟨rfl, rfl⟩

theorem GameState.Registered.after (h : g.Registered p) : (g.after d now).Registered p := by
  unfold GameState.after
  split
  · exact h
  · split
    · exact h
    · split
      · exact h
      · exact h

/-- A game that has timed out stays so. -/
theorem GameState.Expired.mono (h : g.Expired now timeoutMs) (hla : g.lastActivity ≤ now)
    (hle : now ≤ t) : g.Expired t timeoutMs := by
  have hlate := (GameState.expired_iff hla).1 h
  have hnat := UInt64.le_iff_toNat_le.1 hle
  exact (GameState.expired_iff (UInt64.le_trans hla hle)).2 (by omega)

/-- A game that was last active sooner times out sooner. -/
theorem GameState.Expired.of_le (h : g'.Expired now timeoutMs)
    (hle : g.lastActivity ≤ g'.lastActivity) (hla : g'.lastActivity ≤ now) :
    g.Expired now timeoutMs := by
  have hlate := (GameState.expired_iff hla).1 h
  have hnat := UInt64.le_iff_toNat_le.1 hle
  exact (GameState.expired_iff (UInt64.le_trans hle hla)).2 (by omega)

end Later

/-! ## The relation of the two runs -/

/-- The game `id`, begun by the players of `g₀`, is active in both states and the same, with an
    activity in the second that is not before that in the first and not after `now`. -/
structure ProlongedAs (g₀ : GameState) (now : UInt64) (g g' : GameState) : Prop where
  same : g.SameGame g'
  not_waiting : g.status ≠ waitingForOpponent
  registered : ∀ p, g₀.Registered p → g.Registered p
  later : g.lastActivity ≤ g'.lastActivity
  active : g'.lastActivity ≤ now

/-- The game `id` is active in both states, prolonged in the second. -/
def Prolonged (id : UInt32) (g₀ : GameState) (now : UInt64) (s r : ServerState) : Prop :=
  ∃ g g', s.activeGames.lookup id = some g ∧ r.activeGames.lookup id = some g' ∧
    ProlongedAs g₀ now g g'

/-- The game `id` is prolonged in the second state, or it has timed out in the first. -/
def Outlives (srv : Server) (id : UInt32) (g₀ : GameState) (now : UInt64) (s r : ServerState) : Prop :=
  Prolonged id g₀ now s r ∨
    ∃ g, s.activeGames.lookup id = some g ∧ g.lastActivity ≤ now ∧ g.Expired now srv.timeoutMs

section Step

variable {srv : Server} {id : UInt32} {g₀ g g' : GameState} {s s' r r' : ServerState} {l l' : Round}
  {now t : UInt64} {d d' : Datagram} {alloc alloc' : Allocation} {out out' : Output}

theorem ProlongedAs.mono (h : ProlongedAs g₀ now g g') (hle : now ≤ t) : ProlongedAs g₀ t g g' :=
  { h with active := UInt64.le_trans h.active hle }

/-- A message for the game, handled in both states. -/
theorem ProlongedAs.after (h : ProlongedAs g₀ now g g') (hle : now ≤ t) (d : Datagram) :
    ProlongedAs g₀ t (g.after d t) (g'.after d t) := by
  have hwait : (g.after d t).status ≠ waitingForOpponent :=
    GameState.after_not_waiting h.not_waiting
  have hreg : ∀ p, g₀.Registered p → (g.after d t).Registered p :=
    fun p hp => (h.registered p hp).after
  rw [h.same.eq_touch]
  rcases g.after_touch d t g'.lastActivity with ⟨htouch, hla⟩ | ⟨htouch, hsame⟩
  · rw [htouch]
    exact ⟨.refl _, hwait, hreg, UInt64.le_refl _, by rw [hla]; exact UInt64.le_refl _⟩
  · rw [htouch, hsame]
    exact ⟨g.sameGame_touch _, h.not_waiting, h.registered, h.later, UInt64.le_trans h.active hle⟩

/-- One handling of copies of a datagram. -/
theorem Prolonged.handle (h : Prolonged id g₀ now s r) (hle : now ≤ t)
    (hh : Handling srv.template t alloc d s s' out)
    (hh' : Handling srv.template t alloc' d' r r' out') (hcopy : d.SameBytes d') :
    Prolonged id g₀ t s' r' := by
  obtain ⟨g, g', hg, hg', hp⟩ := h
  by_cases hn : d.Names id
  · have hn' := hn.copy hcopy
    obtain rfl := hn.2.2
    have hafter := (hh.of_named hn.type_ne hg).1
    have hafter' := (hh'.of_named hn'.type_ne (hn'.2.2.symm ▸ hg')).1
    rw [hn'.2.2, GameState.after_copy hcopy hn.1] at hafter'
    exact ⟨_, _, hafter, hafter', hp.after hle d⟩
  · have hn' : ¬ d'.Names id := fun hn' => hn (hn'.copy hcopy.symm)
    have hwait' : g'.status ≠ waitingForOpponent := by
      rw [hp.same.status]
      exact hp.not_waiting
    exact ⟨g, g', hh.lookup_of_not_names hn hg hp.not_waiting,
      hh'.lookup_of_not_names hn' hg' hwait', hp.mono hle⟩

/-- A sweep of each run that spares the game in the first. -/
theorem Prolonged.sweep (h : Prolonged id g₀ t s r) (hsweep : Sweeps srv t s s' out)
    (hsweep' : Sweeps srv t r r' out') (hlog : LogLine.timedOut id ∉ out.log) :
    Prolonged id g₀ t s' r' := by
  obtain ⟨g, g', hg, hg', hp⟩ := h
  obtain ⟨hkeep, hmid⟩ := hsweep.lookup_of_log hg hlog
  have hkeep' : ¬ g'.Expired t srv.timeoutMs := fun hexp => hkeep (hexp.of_le hp.later hp.active)
  exact ⟨g, g', hmid, hsweep'.lookup_eq_some.2 ⟨hg', hkeep'⟩, hp⟩

/-- **A turn and its copy** leave the game prolonged, if the turn does not evict it. -/
theorem Outlives.copy (h : Outlives srv id g₀ l'.received.sweptAt s r) (hstep : LoopStep srv s l s')
    (hlog : LogLine.timedOut id ∉ l.swept.log) (hstep' : LoopStep srv r l' r')
    (hcopy : l.received.Copy l'.received) (hord : (l'.readings ++ [t]).Pairwise (· ≤ ·)) :
    Prolonged id g₀ t s' r' := by
  obtain ⟨received, swept, answered⟩ := l
  obtain ⟨received', swept', answered'⟩ := l'
  obtain ⟨mid, hsweep, hrest⟩ := hstep
  obtain ⟨mid', hsweep', hrest'⟩ := hstep'
  have hswept : received'.sweptAt = received.sweptAt := by
    cases hcopy with
    | timedOut _ => rfl
    | arrived ha => exact ha.sweptAt
  change Sweeps srv received.sweptAt s mid swept at hsweep
  change Sweeps srv received'.sweptAt r mid' swept' at hsweep'
  change Outlives srv id g₀ received'.sweptAt s r at h
  rw [← hswept] at hsweep
  have hmid : Prolonged id g₀ received'.sweptAt mid mid' := by
    rcases h with h | ⟨g, hg, -, hexp⟩
    · exact h.sweep hsweep hsweep' hlog
    · exact absurd hexp (hsweep.lookup_of_log hg hlog).1
  cases hcopy with
  | timedOut sweptAt =>
      obtain ⟨rfl, -⟩ := hrest
      obtain ⟨rfl, -⟩ := hrest'
      have hle : sweptAt ≤ t := by simpa [Round.readings, Received.readings] using hord
      obtain ⟨g, g', hg, hg', hp⟩ := hmid
      exact ⟨g, g', hg, hg', hp.mono hle⟩
  | @arrived a a' ha =>
      obtain ⟨alloc, hhandles⟩ := hrest
      obtain ⟨alloc', hhandles'⟩ := hrest'
      obtain ⟨hle, -, hlast⟩ := Arrival.readings_le hord
      change Handles srv a.handledAt alloc a.d mid s' answered at hhandles
      rw [← ha.handledAt] at hhandles
      obtain ⟨g, g', hg, hg', hp⟩ := hmid.handle hle hhandles.handling hhandles'.handling ha.d
      exact ⟨g, g', hg, hg', hp.mono hlast⟩

/-- **An extra turn** for a KEEP_ALIVE leaves the game prolonged, or it has timed out in the first
    run. -/
theorem Outlives.keepAlive (h : Outlives srv id g₀ l'.received.sweptAt s r)
    (hstep' : LoopStep srv r l' r') (hkeep : KeepsAlive id g₀ l'.received)
    (hord : (l'.readings ++ [t]).Pairwise (· ≤ ·)) : Outlives srv id g₀ t s r' := by
  obtain ⟨received', swept', answered'⟩ := l'
  obtain ⟨mid', hsweep', hrest'⟩ := hstep'
  cases received' with
  | timedOut sweptAt => exact hkeep.elim
  | arrived a =>
      obtain ⟨hkeepAlive, hid, hreg⟩ := hkeep
      obtain ⟨alloc', hhandles'⟩ := hrest'
      obtain ⟨hle, hswept, hlast⟩ := Arrival.readings_le hord
      change Sweeps srv a.sweptAt r mid' swept' at hsweep'
      change Outlives srv id g₀ a.sweptAt s r at h
      rcases h with ⟨g, g', hg, hg', hp⟩ | ⟨g, hg, hla, hexp⟩
      · have hla := UInt64.le_trans hp.later hp.active
        by_cases hexp' : g'.Expired a.sweptAt srv.timeoutMs
        · -- the extra sweep evicts a game that the first run keeps only because it has not swept
          exact .inr ⟨g, hg, UInt64.le_trans hla hswept,
            (hexp'.of_le hp.later hp.active).mono hla hswept⟩
        · have hmid' := hsweep'.lookup_eq_some.2 ⟨hg', hexp'⟩
          subst hid
          have hafter := (hhandles'.handling.of_named hkeepAlive.type_ne hmid').1
          have hreg' : g'.Registered a.d.playerId := by
            rw [hp.same.eq_touch]
            exact hp.registered _ hreg
          rw [GameState.after_of_keptAlive hkeepAlive hreg'] at hafter
          refine .inl ⟨g, _, hg, hafter, hp.same.trans (g'.sameGame_touch _), hp.not_waiting,
            hp.registered, ?_, hlast⟩
          exact UInt64.le_trans hla hle
      · exact .inr ⟨g, hg, UInt64.le_trans hla hswept, hexp.mono hla hswept⟩

end Step

/-! ## The two runs -/

section Run

variable {srv : Server} {id : UInt32} {g : GameState} {s r r' : ServerState}
  {hist : List Transition} {tr tr' : List (LTS.Transition ServerState Round)}

/-- A turn that does not print the eviction of the game. -/
def Spares (id : UInt32) (t : LTS.Transition ServerState Round) : Prop :=
  LogLine.timedOut id ∉ t.label.swept.log

theorem outlives_of_runs (hhist : LTS.Run (Step srv) .initial hist s)
    (hg : s.activeGames.lookup id = some g) (hw : g.status ≠ waitingForOpponent)
    (hrun : LTS.Run (LoopStep srv) s tr r) (hrun' : LTS.Run (LoopStep srv) s tr' r')
    (hext : Extends id g (inputs tr) (inputs tr')) (hspare : ∀ t ∈ tr, Spares id t) {t : UInt64}
    (hord : (readings hist ++ LTS.readings Round.readings tr' ++ [t]).Pairwise (· ≤ ·)) :
    Outlives srv id g t r r' := by
  refine LTS.Run.inserts_agree (R := fun t s r => Outlives srv id g t s r) ?_ ?_ ?_ hext
    (hrun.restrict hspare) hrun' rfl rfl hord
  · intro t ht
    have hla := activeBy_of_run hhist ht id g hg
    exact .inl ⟨g, g, hg, hg, .refl g, hw, fun _ hp => hp, UInt64.le_refl _, hla⟩
  · intro s l s' r l' r' t hR ht hstep hstep' hcopy
    refine .inl (Outlives.copy (hR _ ?_) hstep.1 hstep.2 hstep' hcopy ht)
    exact List.mem_append_left _ l'.sweptAt_mem
  · intro s r l' r' t hR ht hstep' hkeep
    exact (hR _ (List.mem_append_left _ l'.sweptAt_mem)).keepAlive hstep' hkeep ht

/-- The point right after a turn of the first run and its copy in the second. -/
theorem prolonged_of_runs (hhist : LTS.Run (Step srv) .initial hist s)
    (hg : s.activeGames.lookup id = some g) (hw : g.status ≠ waitingForOpponent)
    (hrun : LTS.Run (LoopStep srv) s tr r) (hrun' : LTS.Run (LoopStep srv) s tr' r')
    (hpoint : Corresponds id g (inputs tr) (inputs tr')) (hspare : ∀ t ∈ tr, Spares id t) {t : UInt64}
    (hord : (readings hist ++ LTS.readings Round.readings tr' ++ [t]).Pairwise (· ≤ ·)) :
    Prolonged id g t r r' := by
  generalize hins : inputs tr = ins at hpoint
  generalize hins' : inputs tr' = ins' at hpoint
  cases hpoint with
  | start =>
      obtain rfl := List.map_eq_nil_iff.1 hins
      obtain rfl := List.map_eq_nil_iff.1 hins'
      obtain rfl := hrun.eq_of_nil
      obtain rfl := hrun'.eq_of_nil
      have hla := activeBy_of_run hhist (by simpa [LTS.readings] using hord) id g hg
      exact ⟨g, g, hg, hg, .refl g, hw, fun _ hp => hp, UInt64.le_refl _, hla⟩
  | copy hext hcopy =>
      obtain ⟨tr₁, u, rfl, rfl, rfl, hrun₁, hstep⟩ := hrun.unsnoc_map hins
      obtain ⟨tr₁', u', rfl, rfl, rfl, hrun₁', hstep'⟩ := hrun'.unsnoc_map hins'
      have hspare₁ : ∀ v ∈ tr₁, Spares id v := fun v hv => hspare v (List.mem_append_left _ hv)
      rw [LTS.readings_append, LTS.readings_singleton, ← List.append_assoc,
        List.append_assoc _ u'.label.readings] at hord
      -- the two runs before their last turns, when the second sweeps
      have hsublist : [u'.label.received.sweptAt].Sublist (u'.label.readings ++ [t]) :=
        List.singleton_sublist.2 (List.mem_append_left _ u'.label.sweptAt_mem)
      have hbefore := outlives_of_runs hhist hg hw hrun₁ hrun₁' hext hspare₁
        (hord.sublist ((List.Sublist.refl _).append hsublist))
      exact hbefore.copy hstep (hspare u (List.mem_append_right _ List.mem_cons_self)) hstep' hcopy
        (List.pairwise_append.1 hord).2.1

end Run

/-- There always is a later reading of the clock. -/
theorem pairwise_concat_max {us : List UInt64} (h : us.Pairwise (· ≤ ·)) :
    (us ++ [18446744073709551615]).Pairwise (· ≤ ·) := by
  refine List.pairwise_append.2 ⟨h, List.pairwise_singleton _ _, ?_⟩
  intro u _ v hv
  obtain rfl := List.mem_singleton.1 hv
  have hlt := u.toNat_lt
  exact UInt64.le_iff_toNat_le.2 (show u.toNat ≤ 18446744073709551615 by omega)

/-- A prefix of what a run received is what a prefix of the run received. -/
theorem exists_prefix_of_inputs {tr : List (LTS.Transition ServerState Round)} {ins : List Received}
    (h : ins <+: inputs tr) : ∃ before, before <+: tr ∧ inputs before = ins := by
  refine ⟨tr.take ins.length, List.take_prefix _ _, ?_⟩
  rw [inputs, List.map_take]
  exact (List.prefix_iff_eq_take.1 h).symm

/-- **Keep-alives only prolong.** From a state that a run in clock order has reached, with a game
    that does not wait, take a run of the loop and one that receives the same and, inserted anywhere
    in clock order, KEEP_ALIVEs for the game from its players. Every point of the first run has a
    point of the second that corresponds to it, and at any two such points, as long as the first run
    has not evicted the game, it is active in both with the same players, status and board. -/
theorem keepAlive_prolongs (srv : Server) {hist : List Transition} {s : ServerState}
    (hhist : LTS.Run (Step srv) .initial hist s) {id : UInt32} {g : GameState}
    (hg : s.activeGames.lookup id = some g) (hw : g.status ≠ waitingForOpponent)
    {tr tr' : List (LTS.Transition ServerState Round)} {r r' : ServerState}
    (hrun : LTS.Run (LoopStep srv) s tr r) (hrun' : LTS.Run (LoopStep srv) s tr' r')
    (hext : Extends id g (inputs tr) (inputs tr'))
    (hord : (readings hist ++ LTS.readings Round.readings tr').Pairwise (· ≤ ·)) :
    (∀ before, before <+: tr → ∃ before', before' <+: tr' ∧
      Corresponds id g (inputs before) (inputs before')) ∧
    ∀ before before', before <+: tr → before' <+: tr' →
      Corresponds id g (inputs before) (inputs before') → (∀ t ∈ before, Spares id t) →
      ∃ p p' g₁ g₁', LTS.Run (LoopStep srv) s before p ∧ LTS.Run (LoopStep srv) s before' p' ∧
        p.activeGames.lookup id = some g₁ ∧ p'.activeGames.lookup id = some g₁' ∧
        g₁.SameGame g₁' := by
  constructor
  · intro before hbefore
    obtain ⟨ins', hins', hpoint⟩ := hext.exists_samePoint (inputs before) (hbefore.map _)
    obtain ⟨before', hbefore', rfl⟩ := exists_prefix_of_inputs hins'
    exact ⟨before', hbefore', hpoint⟩
  · intro before before' hbefore hbefore' hpoint hspare
    obtain ⟨after, rfl⟩ := hbefore
    obtain ⟨after', rfl⟩ := hbefore'
    obtain ⟨p, hrun₁, -⟩ := hrun.split
    obtain ⟨p', hrun₁', -⟩ := hrun'.split
    rw [LTS.readings_append, ← List.append_assoc] at hord
    obtain ⟨g₁, g₁', hg₁, hg₁', hp⟩ := prolonged_of_runs hhist hg hw hrun₁ hrun₁' hpoint hspare
      (pairwise_concat_max (List.pairwise_append.1 hord).1)
    exact ⟨p, p', g₁, g₁', hrun₁, hrun₁', hg₁, hg₁', hp.same⟩

/-- The loop times out when the game of 7 and 9 is nearly a second old; in the second run player 7
    has kept it alive half a second before. -/
theorem keepAlive_prolongs_started : ∃ tr tr' r r',
    LTS.Run (LoopStep threePawns) (started threePawns 7 9 0) tr r ∧
      LTS.Run (LoopStep threePawns) (started threePawns 7 9 0) tr' r' ∧ tr.length = 1 ∧
      tr'.length = 2 ∧ ∃ before', before' <+: tr' ∧
        Corresponds 1 ((threePawns.template.open 7 0).seat 9 0) (inputs tr) (inputs before') ∧
        ∃ p p' g₁ g₁', LTS.Run (LoopStep threePawns) (started threePawns 7 9 0) tr p ∧
          LTS.Run (LoopStep threePawns) (started threePawns 7 9 0) before' p' ∧
          p.activeGames.lookup 1 = some g₁ ∧ p'.activeGames.lookup 1 = some g₁' ∧
          g₁.SameGame g₁' := by
  obtain ⟨hist, hhist, hread, -⟩ := exists_run_at_zero
  have hs := reachable_started threePawns (p := 7) (q := 9) (by decide) (by decide) 0
  have hg := lookup_started threePawns 7 9 0
  have hkeep : (Datagram.keepAlive 7 1).IsKeepAlive := Datagram.isKeepAlive_keepAlive (by decide) 1
  have hsweep : Sweeps threePawns 900 (started threePawns 7 9 0) (started threePawns 7 9 0) {} :=
    sweeps_singleton (by decide)
  have hsweep' : Sweeps threePawns 500 (started threePawns 7 9 0) (started threePawns 7 9 0) {} :=
    sweeps_singleton (by decide)
  have hkept : Handling threePawns.template 500 .ok (.keepAlive 7 1) (started threePawns 7 9 0) _ _ :=
    .keptAlive _ hkeep hg (.inl rfl)
  have hstep : LoopStep threePawns (started threePawns 7 9 0) ⟨.timedOut 900, {}, {}⟩ _ :=
    ⟨_, hsweep, rfl, rfl⟩
  have hfirst : LoopStep threePawns (started threePawns 7 9 0)
      ⟨.arrived ⟨500, 500, .keepAlive 7 1⟩, {}, _⟩ _ := ⟨_, hsweep', .ok, hs.handles hkept⟩
  obtain ⟨r', out, hlast⟩ := exists_sweeps threePawns 900 _
  have hsecond : LoopStep threePawns _ ⟨.timedOut 900, out, {}⟩ r' := ⟨_, hlast, rfl, rfl⟩
  have hrun := LTS.Run.single hstep
  have hrun' := (LTS.Run.single hfirst).snoc hsecond
  have hkeeps : KeepsAlive 1 ((threePawns.template.open 7 0).seat 9 0)
      (.arrived ⟨500, 500, .keepAlive 7 1⟩) := ⟨hkeep, rfl, .inl rfl⟩
  have hord : List.Pairwise (· ≤ ·) ([0, 0, 0, 0, 500, 500, 900] : List UInt64) := by decide
  obtain ⟨hpoints, hagree⟩ := keepAlive_prolongs threePawns hhist hg (by decide) hrun hrun'
    (.copy (.insert .nil hkeeps) (.timedOut 900)) (by rw [hread]; exact hord)
  obtain ⟨before', hbefore', hpoint⟩ := hpoints _ (List.prefix_refl _)
  refine ⟨_, _, _, r', hrun, hrun', rfl, rfl, before', hbefore', hpoint, ?_⟩
  refine hagree _ before' (List.prefix_refl _) hbefore' hpoint ?_
  intro t ht
  obtain rfl := List.mem_singleton.1 ht
  exact List.not_mem_nil

end Kayles
