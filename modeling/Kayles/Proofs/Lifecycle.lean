import Kayles.Proofs.Sessions
import Kayles.Proofs.Progress

set_option autoImplicit false

/-! # The life of a game

From the step that creates a game to its eviction, under any interleaving. The history of the game is
read off the transitions of the run (`moveIn`, `giveUpIn`, `Seats`); the laws of sessions and the
simulation tie it to the status and the board. -/

namespace Kayles

open Session (Act Phase Side)

/-! ## A life -/

/-- A transition prints that the game `id` has been created. -/
def Creates (id : UInt32) (t : Transition) : Prop := ∃ p, LogLine.created id p ∈ t.label.output.log

/-- `tr` is what happens, up to the state `s`, after the step that creates the game `id`, which is
    active all along. -/
structure LifeOf (srv : Server) (id : UInt32) (tr : List Transition) (s : ServerState) : Prop where
  run : ∃ before birth, LTS.Run (CompletedStep srv) .initial (before ++ birth :: tr) s ∧
    Creates id birth
  live : ∀ t ∈ tr, id ∈ t.post.activeGames

section Life

variable {srv : Server} {tmpl : GameState} {now : UInt64} {alloc : Allocation} {d : Datagram}
  {s s' : ServerState} {out : Output} {l : Label} {id p : UInt32} {tr : List Transition}

/-- The handling that prints that a game has been created. -/
theorem Handling.of_created (h : Handling tmpl now alloc d s s' out)
    (hmem : LogLine.created id p ∈ out.log) :
    d.IsJoin ∧ d.playerId = p ∧ s.NoneWaiting ∧ s.FreeId id ∧
      s' = { activeGames := s.activeGames.insert id (tmpl.open p now),
             nextGameId := advanceGameId id } := by
  cases h with
  | created k hj hw _ hid _ =>
      obtain ⟨rfl, rfl⟩ : id = k ∧ p = d.playerId := by simpa using hmem
      exact ⟨hj, rfl, hw, hid, rfl⟩
  | seated _ _ _ _ _ => simp at hmem
  | _ => exact absurd hmem List.not_mem_nil

/-- The handling that prints that a player has joined. -/
theorem Handling.of_joined (h : Handling tmpl now alloc d s s' out)
    (hmem : LogLine.joined p id ∈ out.log) :
    d.IsJoin ∧ d.playerId = p ∧ ∃ g, s.activeGames.lookup id = some g ∧
      g.status = waitingForOpponent ∧
      s' = { s with activeGames := s.activeGames.insert id (g.seat p now) } := by
  cases h with
  | seated k g hj hg hw =>
      obtain ⟨rfl, rfl⟩ : p = d.playerId ∧ id = k := by simpa using hmem
      exact ⟨hj, rfl, g, hg, hw, rfl⟩
  | created _ _ _ _ _ _ => simp at hmem
  | _ => exact absurd hmem List.not_mem_nil

theorem Step.of_created (h : Step srv s l s') (hmem : LogLine.created id p ∈ l.output.log) :
    ∃ now, s'.activeGames.lookup id = some (srv.template.open p now) := by
  obtain ⟨event, out⟩ := l
  cases event with
  | sweep now => exact absurd hmem (Sweeps.created_notMem h id p)
  | datagram now alloc d =>
      obtain ⟨-, -, -, -, rfl⟩ := (Handles.handling h).of_created hmem
      exact ⟨now, Finmap.lookup_insert _⟩

/-- The life of a game is a run of live steps from the state in which it waits on a full board. -/
theorem LifeOf.liveRun (h : LifeOf srv id tr s) : ∃ s₀ g₀, ReachableCompleted srv s₀ ∧
    s₀.activeGames.lookup id = some g₀ ∧ g₀.status = waitingForOpponent ∧
    g₀.pawnRow = srv.template.pawnRow ∧ LTS.Run (LiveStep srv id) s₀ tr s := by
  obtain ⟨⟨before, birth, hrun, p, hbirth⟩, hlive⟩ := h
  obtain ⟨s₁, hbefore, hafter⟩ := hrun.split
  obtain ⟨rfl, hstep, hlife⟩ := hafter.uncons
  obtain ⟨now, hg₀⟩ := hstep.2.of_created hbirth
  have hreach : ReachableCompleted srv birth.post := ⟨_, hbefore.snoc hstep⟩
  exact ⟨birth.post, _, hreach, hg₀, rfl, rfl, hlife.restrict hlive⟩

/-- The step that seats a player. -/
theorem Step.of_seats {t : Transition} (h : Step srv t.pre t.label t.post) (hseats : Seats id t) :
    ∃ now alloc d g, t.label.event = .datagram now alloc d ∧ d.IsJoin ∧
      t.pre.activeGames.lookup id = some g ∧ g.status = waitingForOpponent ∧
      t.post.activeGames.lookup id = some (g.seat d.playerId now) := by
  obtain ⟨pre, ⟨event, out⟩, post⟩ := t
  obtain ⟨p, hmem⟩ := hseats
  cases event with
  | sweep now => exact absurd hmem (Sweeps.joined_notMem h p id)
  | datagram now alloc d =>
      obtain ⟨hj, rfl, g, hg, hw, hpost⟩ := (Handles.handling h).of_joined hmem
      refine ⟨now, alloc, d, g, rfl, hj, hg, hw, ?_⟩
      rw [hpost]
      exact Finmap.lookup_insert _

theorem mem_acts_of_seats (hrun : LTS.Run (LiveStep srv id) s tr s') {t : Transition} (ht : t ∈ tr)
    (hseats : Seats id t) : Act.seat ∈ tr.filterMap (actIn id) := by
  refine List.mem_filterMap.2 ⟨t, ht, ?_⟩
  obtain ⟨now, alloc, d, g, hevent, hj, hg, -⟩ := (hrun.step_of_mem t ht).1.2.of_seats hseats
  obtain ⟨pre, ⟨event, out⟩, post⟩ := t
  obtain rfl : event = .datagram now alloc d := hevent
  rw [actIn_datagram hg, if_neg fun hm => hm.1.type_ne hj.2, if_neg fun hu => hu.1.type_ne hj.2,
    if_pos hseats]

/-- A game is over. -/
def GameState.Over (g : GameState) : Prop := g.status = winA ∨ g.status = winB

theorem GameState.over_afterGiveUp (g : GameState) (p : UInt32) (now : UInt64) :
    (g.afterGiveUp p now).Over := (g.afterGiveUp_status p now).symm

theorem GameState.Over.not_onTurn {g : GameState} (h : g.Over) (p : UInt32) : ¬ g.OnTurn p := by
  intro hturn
  rcases h with h | h <;> rcases hturn.status with ht | ht <;> rw [h] at ht <;>
    exact absurd ht (by decide)

/-- One change of a game that is over. -/
theorem Change.sameGame_of_over {log : List LogLine} {g g' : GameState} (hover : g.Over)
    (h : Change now d log id g g') : g.SameGame g' := by
  cases h with
  | idle _ _ _ => exact GameState.SameGame.refl g
  | keepAlive _ _ _ _ => exact g.sameGame_touch now
  | seat _ hw _ => rcases hover with h | h <;> rw [h] at hw <;> exact absurd hw (by decide)
  | move hm => exact absurd (carriedOut_iff.1 hm.2.2).1 (hover.not_onTurn _)
  | giveUp hu => exact absurd hu.2.2 (hover.not_onTurn _)

/-- **A game that is over stays as it is**, for as long as it is active. -/
theorem sameGame_of_over {g₀ : GameState} (hrun : LTS.Run (LiveStep srv id) s tr s')
    (hg₀ : s.activeGames.lookup id = some g₀) (hover : g₀.Over) :
    ∃ g, s'.activeGames.lookup id = some g ∧ g₀.SameGame g := by
  refine hrun.invariant (I := fun s => ∃ g, s.activeGames.lookup id = some g ∧ g₀.SameGame g) ?_
    ⟨g₀, hg₀, GameState.SameGame.refl g₀⟩
  rintro s l s' ⟨g, hg, hsame⟩ hstep
  obtain ⟨g', hg', hev⟩ := hstep.1.2.evolves hg hstep.2
  have hover' : g.Over := by
    unfold GameState.Over
    rw [hsame.status]
    exact hover
  refine ⟨g', hg', hsame.trans ?_⟩
  exact hev.preserves (P := g.SameGame) (GameState.SameGame.refl g) fun _ _ hchange =>
    hchange.sameGame_of_over hover'

/-! ## Lives that exist -/

theorem LifeOf.reachable (h : LifeOf srv id tr s) : ReachableCompleted srv s := by
  obtain ⟨⟨before, birth, hrun, -⟩, -⟩ := h
  exact ⟨_, hrun⟩

/-- A life goes on for as long as the game is active. -/
theorem LifeOf.snoc (h : LifeOf srv id tr s) (hstep : CompletedStep srv s l s')
    (hid : id ∈ s'.activeGames) : LifeOf srv id (tr ++ [⟨s, l, s'⟩]) s' := by
  obtain ⟨⟨before, birth, hrun, hbirth⟩, hlive⟩ := h
  refine ⟨⟨before, birth, ?_, hbirth⟩, ?_⟩
  · rw [← List.cons_append, ← List.append_assoc]
    exact hrun.snoc hstep
  · intro t ht
    rcases List.mem_append.1 ht with ht | ht
    · exact hlive t ht
    · obtain rfl := List.mem_singleton.1 ht
      exact hid

/-- The life of the first game of a server: `p` creates it. -/
theorem lifeOf_opened (srv : Server) {p : UInt32} (hp : p ≠ 0) (now : UInt64) :
    LifeOf srv 1 [] (opened srv p now) := by
  have hinit : ReachableCompleted srv .initial := LTS.Reachable.refl
  have hstep := hinit.step Allocation.ok_succeeds (handling_opened srv hp now)
  refine ⟨⟨[], _, LTS.Run.single hstep, p, ?_⟩, fun t ht => absurd ht List.not_mem_nil⟩
  exact List.mem_singleton.2 rfl

/-- Then `q` is seated. -/
theorem exists_lifeOf_started (srv : Server) {p q : UInt32} (hp : p ≠ 0) (hq : q ≠ 0)
    (now : UInt64) :
    ∃ t, Seats 1 t ∧ moveIn 1 t = none ∧ LifeOf srv 1 [t] (started srv p q now) := by
  have hlife := lifeOf_opened srv hp now
  have hstep := hlife.reachable.step Allocation.ok_succeeds (handling_started srv p hq now)
  have hmem := Finmap.mem_of_lookup_eq_some (lookup_started srv p q now)
  refine ⟨_, ⟨q, List.mem_singleton.2 rfl⟩, ?_, hlife.snoc hstep hmem⟩
  simp only [moveIn, lookup_opened]
  exact if_neg fun hmoves => hmoves.1.type_ne (Datagram.isJoin_join hq).2

/-- A legal move of the player on turn can be carried out, and the game stays active. -/
theorem exists_liveStep_of_move {g : GameState} (hs : ReachableCompleted srv s)
    (hg : s.activeGames.lookup id = some g) (hmove : d.IsMove) (hid : d.gameId = id)
    (hturn : g.OnTurn d.playerId) (hlegal : g.Legal d.movePawns)
    (hends : (g.knock d.movePawns).MoveEnds) (now : UInt64) :
    ∃ l s', LiveStep srv id s l s' ∧ moveIn id ⟨s, l, s'⟩ = some d.movePawns ∧
      giveUpIn id ⟨s, l, s'⟩ = none ∧
      s'.activeGames.lookup id = some (g.afterMove d.movePawns now) := by
  subst hid
  have hhandling : Handling srv.template now .ok d s _ _ := .moved g hmove hg hturn hlegal hends
  have hmem : d.gameId ∈ s.activeGames.insert d.gameId (g.afterMove d.movePawns now) :=
    Finmap.mem_insert.2 (.inl rfl)
  refine ⟨_, _, ⟨hs.step Allocation.ok_succeeds hhandling, hmem⟩, ?_, giveUpIn_of_move hg hmove,
    Finmap.lookup_insert _⟩
  exact moveIn_of_movesIn hg ⟨hmove, rfl, carriedOut_iff.2 ⟨hturn, hlegal⟩⟩

/-- A move that is carried out is one more of the life. -/
theorem LifeOf.moved {g : GameState} (h : LifeOf srv id tr s)
    (hg : s.activeGames.lookup id = some g) (hmove : d.IsMove) (hid : d.gameId = id)
    (hturn : g.OnTurn d.playerId) (hlegal : g.Legal d.movePawns)
    (hends : (g.knock d.movePawns).MoveEnds) (now : UInt64) :
    ∃ t s', moveIn id t = some d.movePawns ∧ LifeOf srv id (tr ++ [t]) s' ∧
      s'.activeGames.lookup id = some (g.afterMove d.movePawns now) := by
  obtain ⟨l, s', hstep, hmoves, -, hg'⟩ :=
    exists_liveStep_of_move h.reachable hg hmove hid hturn hlegal hends now
  exact ⟨⟨s, l, s'⟩, s', hmoves, h.snoc hstep.1 hstep.2, hg'⟩

end Life

/-! ## The life cycle -/

/-- What a life `tr` of the game `id` makes of it. -/
structure LifeCycle (srv : Server) (id : UInt32) (tr : List Transition) (g : GameState) : Prop where
  waiting : (∀ t ∈ tr, ¬ Seats id t) → g.status = waitingForOpponent
  seat : ∀ t ∈ tr, Seats id t → ∃ now alloc d g₀ g₁, t.label.event = .datagram now alloc d ∧
    d.IsJoin ∧ t.pre.activeGames.lookup id = some g₀ ∧ g₀.status = waitingForOpponent ∧
    t.post.activeGames.lookup id = some g₁ ∧ g₁.playerBId = d.playerId ∧ g₁.status = turnB
  turn : (∃ t ∈ tr, Seats id t) → (∀ t ∈ tr, giveUpIn id t = none) → g.AnyStanding →
    g.status = if (tr.filterMap (moveIn id)).length % 2 = 0 then turnB else turnA
  win : (∃ t ∈ tr, Seats id t) → (∀ t ∈ tr, giveUpIn id t = none) → ¬ g.AnyStanding →
    g.status = if (tr.filterMap (moveIn id)).length % 2 = 1 then winB else winA
  moves_le : (tr.filterMap (moveIn id)).length ≤ (PackedBits.ones srv.template.pawnRow).card
  final : ∀ t ∈ tr, ∀ g₀, t.pre.activeGames.lookup id = some g₀ → g₀.Over → g₀.SameGame g

section Cycle

variable {srv : Server} {s s₀ : ServerState} {id : UInt32} {tr : List Transition} {g : GameState}

/-- The phase of a game without a GIVE_UP, by the parity of its moves. -/
theorem GameInv.status_of_phase (h : GameInv srv.template id g) {k : ℕ}
    (hphase : phaseOf g.status = Session.phaseAfter k g.session.standing) :
    (g.AnyStanding → g.status = if k % 2 = 0 then turnB else turnA) ∧
    (¬ g.AnyStanding → g.status = if k % 2 = 1 then winB else winA) := by
  rw [Session.phaseAfter, Session.sideAfter_eq, if_congr h.anyStanding_iff.symm rfl rfl] at hphase
  constructor
  · intro hany
    rw [if_pos hany] at hphase
    by_cases hk : k % 2 = 0
    · rw [if_pos hk] at hphase ⊢
      exact eq_of_phaseOf h.status (by decide) hphase
    · rw [if_neg hk] at hphase ⊢
      exact eq_of_phaseOf h.status (by decide) hphase
  · intro hnone
    rw [if_neg hnone] at hphase
    by_cases hk : k % 2 = 0
    · rw [if_pos hk] at hphase
      rw [if_neg (by omega)]
      exact eq_of_phaseOf h.status (by decide) hphase
    · rw [if_neg hk] at hphase
      rw [if_pos (by omega)]
      exact eq_of_phaseOf h.status (by decide) hphase

/-- A run passes through every state it recorded. -/
theorem exists_run_from {t : Transition} (hrun : LTS.Run (LiveStep srv id) s₀ tr s) (ht : t ∈ tr) :
    ∃ rest, LTS.Run (LiveStep srv id) t.pre rest s := by
  obtain ⟨before, after, rfl⟩ := List.append_of_mem ht
  obtain ⟨s₁, -, hafter⟩ := hrun.split
  obtain ⟨rfl, -⟩ := hafter.uncons
  exact ⟨_, hafter⟩

end Cycle

/-- **The life cycle** of a game, from its creation to any later state in which it is active. -/
theorem life_cycle (srv : Server) {id : UInt32} {tr : List Transition} {s : ServerState}
    (h : LifeOf srv id tr s) : ∃ g, s.activeGames.lookup id = some g ∧ LifeCycle srv id tr g := by
  obtain ⟨s₀, g₀, hreach, hg₀, hw, hrow, hrun⟩ := h.liveRun
  have hinv₀ := hreach.gameInv hg₀
  obtain ⟨_, ⟨g, hg, hinv, rfl⟩, hhist⟩ := history_of_run hrun ⟨g₀, hg₀, hinv₀, rfl⟩
  have hphase₀ : g₀.session.phase = .waiting := by
    show phaseOf g₀.status = .waiting
    rw [hw]
    rfl
  have hne : g₀.session.standing.Nonempty := by
    rw [← hinv₀.anyStanding_iff]
    obtain ⟨i, hi, hs⟩ := srv.anyStanding
    refine ⟨i, hinv₀.maxPawn ▸ hi, ?_⟩
    rw [GameState.Standing, hrow]
    exact hs
  have hmoves : (Session.moves (tr.filterMap (actIn id))).length =
      (tr.filterMap (moveIn id)).length := by
    rw [moves_filterMap_actIn, List.length_map]
  have hcycle : (∃ t ∈ tr, Seats id t) → (∀ t ∈ tr, giveUpIn id t = none) →
      phaseOf g.status =
        Session.phaseAfter (tr.filterMap (moveIn id)).length g.session.standing := by
    -- the history of the session has a seat and no giving up
    rintro ⟨t, ht, hseats⟩ hno
    have hseat := mem_acts_of_seats hrun ht hseats
    rcases hhist.phase hphase₀ hne with ⟨hnoseat, -⟩ | ⟨-, -, hphase⟩
    · exact absurd hseat hnoseat
    · rw [← hmoves]
      refine hphase fun winner hmem => ?_
      obtain ⟨t', ht', hgive⟩ := giveUp_mem_acts hmem
      rw [hno t' ht'] at hgive
      exact absurd hgive (by simp)
  refine ⟨g, hg, ?_, ?_, ?_, ?_, ?_, ?_⟩
  · intro hno
    rcases hhist.phase hphase₀ hne with ⟨-, hsame, -⟩ | ⟨hseat, -⟩
    · have hphase : phaseOf g.status = phaseOf g₀.status :=
        congrArg Session.State.phase hsame
      rw [eq_of_phaseOf hinv.status hinv₀.status hphase, hw]
    · obtain ⟨t, ht, hseats⟩ := seat_mem_acts hseat
      exact absurd hseats (hno t ht)
  · intro t ht hseats
    obtain ⟨now, alloc, d, g₁, hevent, hj, hg₁, hw₁, hpost⟩ :=
      (hrun.step_of_mem t ht).1.2.of_seats hseats
    exact ⟨now, alloc, d, g₁, _, hevent, hj, hg₁, hw₁, hpost, rfl, rfl⟩
  · exact fun hseats hno => (hinv.status_of_phase (hcycle hseats hno)).1
  · exact fun hseats hno => (hinv.status_of_phase (hcycle hseats hno)).2
  · have hle := hhist.length_moves_add_card_le
    rw [hmoves] at hle
    have hcard : g₀.session.standing = PackedBits.ones srv.template.pawnRow :=
      congrArg PackedBits.ones hrow
    rw [hcard] at hle
    exact Nat.le_trans (Nat.le_add_right _ _) hle
  · intro t ht g₁ hg₁ hover
    obtain ⟨rest, hrest⟩ := exists_run_from hrun ht
    obtain ⟨g', hg', hsame⟩ := sameGame_of_over hrest hg₁ hover
    obtain rfl : g' = g := Option.mem_unique hg' hg
    exact hsame

/-- Player 9 opens with the first two of three pawns, and 7 takes the last and wins. -/
theorem life_cycle_played : ∃ tr g, tr.filterMap (moveIn 1) = [[0, 1], [2]] ∧
    LifeCycle threePawns 1 tr g ∧ ¬ g.AnyStanding ∧ g.status = winA := by
  obtain ⟨t, -, ht, hlife⟩ := exists_lifeOf_started threePawns (p := 7) (q := 9) (by decide)
    (by decide) 0
  have hg := lookup_started threePawns 7 9 0
  have hopening : (Datagram.move 2 9 1 0).IsMove := Datagram.isMove_move (.inr rfl) (by decide) 1 0
  have hlast : (Datagram.move 1 7 1 2).IsMove := Datagram.isMove_move (.inl rfl) (by decide) 1 2
  have hmoveEnds : ∀ {g : GameState} (pawns), g.RowFits → g.maxPawn ≠ 255 →
      (g.knock pawns).MoveEnds :=
    fun _ hfits hmax => (hfits.knock _).moveEnds (.inr hmax)
  obtain ⟨t₁, s₁, ht₁, hlife₁, hg₁⟩ := hlife.moved hg hopening rfl (by decide)
    (List.forall_mem_cons.2 ⟨by decide, GameState.legal_singleton.2 (by decide)⟩)
    (hmoveEnds _ (hlife.reachable.gameInv hg).fits (by decide)) 0
  obtain ⟨t₂, s₂, ht₂, hlife₂, hg₂⟩ := hlife₁.moved hg₁ hlast rfl (by decide)
    (GameState.legal_singleton.2 (by decide))
    (hmoveEnds _ (hlife₁.reachable.gameInv hg₁).fits (by decide)) 0
  obtain ⟨g, hlookup, hcycle⟩ := life_cycle threePawns hlife₂
  obtain rfl := Option.mem_unique hg₂ hlookup
  refine ⟨_, _, ?_, hcycle, by decide, by decide⟩
  rw [List.filterMap_append, List.filterMap_append, List.filterMap_cons_none ht,
    List.filterMap_cons_some ht₁, List.filterMap_cons_some ht₂]
  rfl

/-! ## Replays -/

/-- The transition carries out the move or the GIVE_UP of `d` in the game `id`. -/
def CarriesOut (id : UInt32) (t : Transition) (d : Datagram) : Prop :=
  (∃ now alloc, t.label.event = .datagram now alloc d) ∧
    ((moveIn id t).isSome ∨ (giveUpIn id t).isSome)

section Replay

variable {srv : Server} {s s' : ServerState} {id : UInt32} {tr : List Transition}
  {now : UInt64} {alloc : Allocation} {d d' : Datagram} {g g' : GameState}

theorem countP_moveIn_le (hrun : LTS.Run (LiveStep srv id) s tr s')
    (hs : ∃ g, s.activeGames.lookup id = some g ∧ GameInv srv.template id g) (i : UInt8) :
    (tr.filterMap (moveIn id)).countP (fun pawns => decide (i ∈ pawns)) ≤ 1 := by
  obtain ⟨g, hg, hinv⟩ := hs
  obtain ⟨_, -, hhist⟩ := history_of_run hrun ⟨g, hg, hinv, rfl⟩
  have hle := hhist.countP_add_standing_le i.toNat
  have hmem : ∀ pawns : List UInt8, i.toNat ∈ pawnSet pawns ↔ i ∈ pawns := by
    intro pawns
    rw [mem_pawnSet]
    exact List.mem_map_of_injective fun _ _ => UInt8.toNat_inj.1
  rw [moves_filterMap_actIn, List.countP_map] at hle
  simp only [Function.comp_def, hmem] at hle
  split at hle <;> split at hle <;> omega

/-- A message that is neither carried out nor a JOIN. -/
theorem Change.sameGame_of_not {log : List LogLine} (hj : d.msgType ≠ 0)
    (hmove : ¬ d.MovesIn id g) (hgive : ¬ d.GivesUpIn id g) (h : Change now d log id g g') :
    g.SameGame g' := by
  cases h with
  | idle _ _ _ => exact GameState.SameGame.refl g
  | keepAlive _ _ _ _ => exact g.sameGame_touch now
  | seat h _ _ => exact absurd h.2 hj
  | move hm => exact absurd hm hmove
  | giveUp hu => exact absurd hu hgive

theorem LiveStep.handles {l : Label} (h : LiveStep srv id s l s')
    (hevent : l.event = .datagram now alloc d) : Handles srv now alloc d s s' l.output := by
  have hstep := h.1.2
  rwa [Step, hevent] at hstep

/-- The pawns of a move that was carried out are down for good. -/
theorem not_standing_of_moved {t : Transition} (hstep : LiveStep srv id t.pre t.label t.post)
    (hevent : t.label.event = .datagram now alloc d) (hg : t.pre.activeGames.lookup id = some g)
    (hinv : GameInv srv.template id g) (hmoves : d.MovesIn id g)
    (hrun : LTS.Run (LiveStep srv id) t.post tr s) (hg' : s.activeGames.lookup id = some g') :
    ∀ i ∈ d.movePawns, ¬ g'.Standing i.toNat := by
  obtain ⟨hmove, rfl, hcarried⟩ := hmoves
  rcases (hstep.handles hevent).handling.of_move hmove hg with ⟨-, -, -, hpost, -⟩ | ⟨hno, -⟩
  · have hgame : t.post.activeGames.lookup d.gameId = some (g.afterMove d.movePawns now) := by
      rw [hpost]
      exact Finmap.lookup_insert _
    have hchange : Change now d [] d.gameId g (g.afterMove d.movePawns now) :=
      .move ⟨hmove, rfl, hcarried⟩
    have hinv' := hinv.change srv.anyStanding hchange
    obtain ⟨_, ⟨g₁, hg₁, -, rfl⟩, hhist⟩ := history_of_run hrun ⟨_, hgame, hinv', rfl⟩
    obtain rfl : g₁ = g' := Option.mem_unique hg₁ hg'
    intro i hi hstands
    have hmem := hhist.standing_subset (GameState.mem_standing.2 hstands)
    -- the set left is that of the knocked board
    have hknock : (g.knock d.movePawns).Standing i.toNat := GameState.mem_standing.1 hmem
    exact (GameState.standing_knock.1 hknock).2 (List.mem_map_of_mem hi)
  · exact absurd (carriedOut_iff.1 hcarried) hno

/-- A GIVE_UP that was carried out ends the game for good. -/
theorem over_of_gaveUp {t : Transition} (hstep : LiveStep srv id t.pre t.label t.post)
    (hevent : t.label.event = .datagram now alloc d) (hg : t.pre.activeGames.lookup id = some g)
    (hgives : d.GivesUpIn id g) (hrun : LTS.Run (LiveStep srv id) t.post tr s)
    (hg' : s.activeGames.lookup id = some g') : g'.Over := by
  obtain ⟨hgive, rfl, hturn⟩ := hgives
  rcases (hstep.handles hevent).handling.of_giveUp hgive hg with ⟨-, hpost, -⟩ | ⟨hno, -⟩
  · have hgame : t.post.activeGames.lookup d.gameId = some (g.afterGiveUp d.playerId now) := by
      rw [hpost]
      exact Finmap.lookup_insert _
    have hover := g.over_afterGiveUp d.playerId now
    obtain ⟨g₁, hg₁, hsame⟩ := sameGame_of_over hrun hgame hover
    obtain rfl : g₁ = g' := Option.mem_unique hg₁ hg'
    rw [GameState.Over, hsame.status]
    exact hover
  · exact absurd hturn hno

/-- What a transition carries out, as a condition on the game it finds. -/
theorem CarriesOut.movesIn_or_givesUpIn {t : Transition} (h : CarriesOut id t d) :
    (∃ now alloc, t.label.event = .datagram now alloc d) ∧
      ∃ g, t.pre.activeGames.lookup id = some g ∧ (d.MovesIn id g ∨ d.GivesUpIn id g) := by
  obtain ⟨⟨now, alloc, hevent⟩, hsome⟩ := h
  refine ⟨⟨now, alloc, hevent⟩, ?_⟩
  cases hg : t.pre.activeGames.lookup id with
  | none => simp [moveIn, giveUpIn, hevent, hg] at hsome
  | some g =>
      refine ⟨g, rfl, ?_⟩
      by_contra hno
      rw [not_or] at hno
      simp [moveIn, giveUpIn, hevent, hg, hno.1, hno.2] at hsome

/-- A life in which the GIVE_UP of the player on turn comes twice. -/
theorem exists_lifeOf_gaveUp (srv : Server) {p q : UInt32} (hp : p ≠ 0) (hq : q ≠ 0)
    (now : UInt64) : ∃ t t₁ t₂ s, CarriesOut 1 t₁ (.giveUp q 1) ∧
      t₂.label.event = .datagram now .ok (.giveUp q 1) ∧ LifeOf srv 1 [t, t₁, t₂] s := by
  obtain ⟨t, -, -, hlife⟩ := exists_lifeOf_started srv hp hq now
  have hgive := Datagram.isGiveUp_giveUp hq 1
  have hplayer := Datagram.playerId_giveUp q 1
  have hgame := Datagram.gameId_giveUp q 1
  generalize Datagram.giveUp q 1 = d at hgive hplayer hgame ⊢
  have hg : (started srv p q now).activeGames.lookup d.gameId = _ :=
    hgame ▸ lookup_started srv p q now
  have hturn : ((srv.template.open p now).seat q now).OnTurn d.playerId :=
    GameState.onTurn_iff.2 (.inr ⟨hplayer, rfl⟩)
  obtain ⟨s₁, out, hfirst, hg₁⟩ : ∃ s₁ out,
      Handling srv.template now .ok d (started srv p q now) s₁ out ∧ s₁.activeGames.lookup d.gameId =
        some (((srv.template.open p now).seat q now).afterGiveUp d.playerId now) :=
    ⟨_, _, .gaveUp _ hgive hg hturn, Finmap.lookup_insert _⟩
  have hover := ((srv.template.open p now).seat q now).over_afterGiveUp d.playerId now
  have hsecond : Handling srv.template now .ok d s₁ _ _ :=
    .refused _ (.inr hgive) hg₁ (.inr hplayer.symm) fun hyes => hover.not_onTurn _ hyes.1
  have hmem := hfirst.mem (Finmap.mem_of_lookup_eq_some (lookup_started srv p q now))
  have hlife₁ := hlife.snoc (hlife.reachable.step Allocation.ok_succeeds hfirst) hmem
  have hlife₂ := hlife₁.snoc (hlife₁.reachable.step Allocation.ok_succeeds hsecond) hmem
  refine ⟨t, _, _, _, ⟨⟨now, .ok, rfl⟩, .inr ?_⟩, rfl, hlife₂⟩
  have hgives : d.GivesUpIn 1 ((srv.template.open p now).seat q now) := ⟨hgive, hgame, hturn⟩
  simp [giveUpIn, lookup_started, hgives]

end Replay

/-- **Replay safety.** No pawn falls twice, and a later copy of a message that was carried out does
    nothing to the game. -/
theorem replay_safe (srv : Server) {id : UInt32} {tr : List Transition} {s : ServerState}
    (h : LifeOf srv id tr s) :
    (∀ i, (tr.filterMap (moveIn id)).countP (fun pawns => decide (i ∈ pawns)) ≤ 1) ∧
    ∀ before t between t' after d d' now alloc, tr = before ++ t :: (between ++ t' :: after) →
      CarriesOut id t d → d.SameBytes d' → t'.label.event = .datagram now alloc d' →
      ∃ g g', t'.pre.activeGames.lookup id = some g ∧ t'.post.activeGames.lookup id = some g' ∧
        g.SameGame g' := by
  obtain ⟨s₀, g₀, hreach, hg₀, -, -, hrun⟩ := h.liveRun
  have hinv₀ := hreach.gameInv hg₀
  refine ⟨countP_moveIn_le hrun ⟨g₀, hg₀, hinv₀⟩, ?_⟩
  rintro before t between t' after d d' now alloc rfl hcarries hcopy hevent'
  obtain ⟨⟨now₀, alloc₀, hevent⟩, g₁, hg₁, hdone⟩ := hcarries.movesIn_or_givesUpIn
  -- the states around the first copy, and around the second
  obtain ⟨s₁, hbefore, hfrom⟩ := hrun.split
  obtain ⟨rfl, hstep, hfrom⟩ := hfrom.uncons
  obtain ⟨s₂, hbetween, hafter⟩ := hfrom.split
  obtain ⟨rfl, hstep', -⟩ := hafter.uncons
  obtain ⟨_, hsession, -⟩ := history_of_run hbefore ⟨g₀, hg₀, hinv₀, rfl⟩
  obtain ⟨_, hsession₁, -⟩ := LiveStep.simulates hsession hstep
  obtain ⟨_, ⟨g, hg, -, -⟩, -⟩ := history_of_run hbetween hsession₁
  obtain ⟨g', hg', hev⟩ := hstep'.1.2.evolves hg hstep'.2
  rw [Evolves, hevent'] at hev
  refine ⟨g, g', hg, hg', ?_⟩
  -- after a move the copy finds its pawns down; after a GIVE_UP it finds the game over
  rcases hdone with hmoves | hgives
  · have hmove' := hcopy.isMove hmoves.1
    obtain ⟨g₂, hg₂, hinv, -⟩ := hsession
    obtain rfl : g₁ = g₂ := Option.mem_unique hg₁ hg₂
    have hdown := not_standing_of_moved hstep hevent hg₁ hinv hmoves hbetween hg
    refine Change.sameGame_of_not hmove'.type_ne ?_ (fun hu => hu.1.not_move hmove') hev
    intro h
    obtain ⟨-, -, hcarried⟩ := h
    obtain ⟨i, hi⟩ := List.exists_mem_of_ne_nil _ d.movePawns_ne_nil
    rw [← hcopy.movePawns hmoves.1] at hi
    refine hdown i ?_ ((carriedOut_iff.1 hcarried).2 i hi).2
    rwa [← hcopy.movePawns hmoves.1]
  · have hgive' := hcopy.isGiveUp hgives.1
    have hover := over_of_gaveUp hstep hevent hg₁ hgives hbetween hg
    exact Change.sameGame_of_not hgive'.type_ne (fun hm => hgive'.not_move hm.1)
      (fun hu => hover.not_onTurn _ hu.2.2) hev

theorem replay_safe_gaveUp : ∃ (t : Transition) (g g' : GameState),
    t.label.event = .datagram 0 .ok (.giveUp 9 1) ∧
    t.pre.activeGames.lookup 1 = some g ∧ t.post.activeGames.lookup 1 = some g' ∧
    g.SameGame g' := by
  obtain ⟨t, t₁, t₂, s, hcarries, hevent, hlife⟩ :=
    exists_lifeOf_gaveUp threePawns (p := 7) (q := 9) (by decide) (by decide) 0
  obtain ⟨g, g', hsame⟩ := (replay_safe threePawns hlife).2 [t] t₁ [] t₂ [] _ _ 0 .ok rfl hcarries
    ⟨rfl, rfl⟩ hevent
  exact ⟨t₂, g, g', hevent, hsame⟩

end Kayles
