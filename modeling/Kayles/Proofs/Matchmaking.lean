import Kayles.Proofs.Lifecycle

set_option autoImplicit false

/-! # Matchmaking

At most one game waits (`OneWaiting`), so the loop of `handle_join_game` finds the same game in every
order of the hash map, and the players of a run are seated two by two in the order of their JOINs. -/

namespace Kayles

/-! ## Waiting games -/

/-- The game `id` waits for its second player. -/
def ServerState.Waits (s : ServerState) (id : UInt32) : Prop :=
  ∃ g, s.activeGames.lookup id = some g ∧ g.status = waitingForOpponent

/-- At most one game waits. -/
def ServerState.OneWaiting (s : ServerState) : Prop := ∀ id id', s.Waits id → s.Waits id' → id = id'

/-- The player of the well-formed JOIN that an event is, if it is one. -/
def Event.joins : Event → Option UInt32
  | .sweep _ => none
  | .datagram _ _ d => if d.IsJoin then some d.playerId else none

/-- What a completed step does to the waiting games. -/
inductive Matching (s : ServerState) (l : Label) (s' : ServerState) : Prop
  | other (hjoin : l.event.joins = none)
      (hlog : ∀ line ∈ l.output.log, ∃ id, line = .timedOut id)
      (hold : ∀ id, s'.Waits id → s.Waits id)
      (hkeep : ∀ id, s.Waits id → id ∈ s'.activeGames → s'.Waits id)
  | full (p : UInt32) (hjoin : l.event.joins = some p) (hnone : s.NoneWaiting)
      (hfull : ¬ s.HasRoom) (hlog : l.output.log = []) (hs : s' = s)
  | seated (p id : UInt32) (hjoin : l.event.joins = some p) (hlog : l.output.log = [.joined p id])
      (hw : s.Waits id) (hwaits : ∀ k, s'.Waits k ↔ s.Waits k ∧ k ≠ id)
  | created (p id : UInt32) (hjoin : l.event.joins = some p) (hlog : l.output.log = [.created id p])
      (hnone : s.NoneWaiting) (hwaits : ∀ k, s'.Waits k ↔ k = id)

section Waiting

variable {srv : Server} {tmpl : GameState} {now : UInt64} {alloc : Allocation} {d : Datagram}
  {s s' : ServerState} {out : Output} {l : Label} {id : UInt32} {g g' : GameState}
  {log : List LogLine}

theorem noneWaiting_iff : s.NoneWaiting ↔ ∀ id, ¬ s.Waits id := by
  constructor
  · rintro h id ⟨g, hg, hw⟩
    exact h id g hg hw
  · intro h id g hg hw
    exact h id ⟨g, hg, hw⟩

theorem Event.joins_of_join (hj : d.IsJoin) : (Event.datagram now alloc d).joins = some d.playerId :=
  if_pos hj

theorem Event.joins_of_not (hj : ¬ d.IsJoin) : (Event.datagram now alloc d).joins = none :=
  if_neg hj

/-- Only a JOIN ends the waiting of a game. -/
theorem Change.waiting_iff (h : Change now d log id g g') (hj : ¬ d.IsJoin) :
    g'.status = waitingForOpponent ↔ g.status = waitingForOpponent := by
  cases h with
  | idle _ _ _ => rfl
  | keepAlive _ _ _ _ => rfl
  | seat hjoin _ _ => exact absurd hjoin hj
  | move hm =>
      have hafter := g.afterMove_not_waiting d.movePawns now
      exact ⟨fun h => absurd h hafter, fun h => absurd h (carriedOut_iff.1 hm.2.2).1.not_waiting⟩
  | giveUp hu =>
      have hafter := g.afterGiveUp_not_waiting d.playerId now
      exact ⟨fun h => absurd h hafter, fun h => absurd h hu.2.2.not_waiting⟩

theorem Handling.waits_iff (h : Handling tmpl now alloc d s s' out) (hj : ¬ d.IsJoin)
    (id : UInt32) : s'.Waits id ↔ s.Waits id := by
  constructor
  · intro h
    obtain ⟨g', hg', hw⟩ := h
    rcases h.entry hg' with ⟨g, hg, hc⟩ | ⟨-, happ⟩
    · exact ⟨g, hg, (hc.waiting_iff hj).1 hw⟩
    · exact absurd happ.join hj
  · intro h
    obtain ⟨g, hg, hw⟩ := h
    obtain ⟨g', hg'⟩ := Finmap.mem_iff.1 (h.mem (Finmap.mem_of_lookup_eq_some hg))
    rcases h.entry hg' with ⟨g₀, hg₀, hc⟩ | ⟨-, happ⟩
    · obtain rfl : g = g₀ := Option.mem_unique hg hg₀
      exact ⟨g', hg', (hc.waiting_iff hj).2 hw⟩
    · exact absurd happ.join hj

theorem Handling.log_of_not_join (h : Handling tmpl now alloc d s s' out) (hj : ¬ d.IsJoin) :
    out.log = [] := by
  cases h with
  | seated _ _ hjoin _ _ => exact absurd hjoin hj
  | created _ hjoin _ _ _ _ => exact absurd hjoin hj
  | _ => rfl

theorem waits_insert {m : ActiveGames} {k : UInt32} {next : UInt32} :
    (ServerState.mk (m.insert k g) next).Waits id ↔
      (id = k ∧ g.status = waitingForOpponent) ∨ (id ≠ k ∧ (ServerState.mk m next).Waits id) := by
  constructor
  · intro h
    obtain ⟨g', hg', hw⟩ := h
    rcases lookup_insert_cases hg' with ⟨rfl, rfl⟩ | ⟨hne, hold⟩
    · exact .inl ⟨rfl, hw⟩
    · exact .inr ⟨hne, g', hold, hw⟩
  · rintro (⟨rfl, hw⟩ | ⟨hne, g', hold, hw⟩)
    · exact ⟨g, Finmap.lookup_insert _, hw⟩
    · exact ⟨g', (Finmap.lookup_insert_of_ne m hne).trans hold, hw⟩

/-- The waiting games after a JOIN. -/
theorem Handling.matching (h : Handling tmpl now alloc d s s' out) (hj : d.IsJoin)
    (halloc : alloc.Succeeds) : Matching s ⟨.datagram now alloc d, out⟩ s' := by
  have hjoins : (Event.datagram now alloc d).joins = some d.playerId := Event.joins_of_join hj
  cases h with
  | malformed hwf => exact absurd hj.1 hwf
  | notFound _ ht _ => exact absurd hj.2 ht
  | seated k g _ hg hw =>
      refine .seated d.playerId k hjoins rfl ⟨g, hg, hw⟩ fun id => ?_
      have hseat : (g.seat d.playerId now).status ≠ waitingForOpponent := by
        show turnB ≠ waitingForOpponent
        decide
      rw [waits_insert, and_comm (b := id ≠ k)]
      simp [hseat]
  | full _ hw hfull => exact .full d.playerId hjoins hw hfull rfl rfl
  | unallocated _ _ _ _ _ hfail => simp [halloc.1, halloc.2.1] at hfail
  | unfinished _ _ _ _ _ hfail => simp [halloc.2.2] at hfail
  | created k _ hw _ _ _ =>
      refine .created d.playerId k hjoins rfl hw fun id => ?_
      have hopen : (tmpl.open d.playerId now).status = waitingForOpponent := rfl
      have hnot : ¬ s.Waits id := noneWaiting_iff.1 hw id
      rw [waits_insert]
      constructor
      · rintro (⟨hid, -⟩ | ⟨-, hwaits⟩)
        · exact hid
        · exact absurd hwaits hnot
      · exact fun hid => .inl ⟨hid, hopen⟩
  | refused _ hty _ _ _ =>
      rcases hty with hm | hu
      · exact absurd hj.2 hm.type_ne
      · exact absurd hj.2 hu.type_ne
  | moved _ hm _ _ _ _ => exact absurd hj.2 hm.type_ne
  | gaveUp _ hu _ _ => exact absurd hj.2 hu.type_ne
  | keptAlive _ hk _ _ => exact absurd hj.2 hk.type_ne

/-- **One step**, as matchmaking sees it. -/
theorem CompletedStep.matching (h : CompletedStep srv s l s') : Matching s l s' := by
  obtain ⟨halloc, hstep⟩ := h
  obtain ⟨event, out⟩ := l
  cases event with
  | sweep now =>
      refine .other rfl (Sweeps.log hstep) ?_ ?_
      · rintro id ⟨g, hg, hw⟩
        exact ⟨g, ((Sweeps.lookup_eq_some hstep).1 hg).1, hw⟩
      · rintro id ⟨g, hg, hw⟩ hid
        obtain ⟨g', hg'⟩ := Finmap.mem_iff.1 hid
        obtain rfl : g = g' := Option.some.inj
          (hg.symm.trans ((Sweeps.lookup_eq_some hstep).1 hg').1)
        exact ⟨g, hg', hw⟩
  | datagram now alloc d =>
      have hhandling := Handles.handling hstep
      by_cases hj : d.IsJoin
      · exact hhandling.matching hj halloc
      · refine .other (Event.joins_of_not hj) ?_ (fun id => (hhandling.waits_iff hj id).1)
          fun id hw _ => (hhandling.waits_iff hj id).2 hw
        intro line hline
        rw [show out.log = [] from hhandling.log_of_not_join hj] at hline
        exact absurd hline List.not_mem_nil

/-- At most one game waits: a step keeps it so. -/
theorem Matching.oneWaiting (h : Matching s l s') (hs : s.OneWaiting) : s'.OneWaiting := by
  intro id id' hid hid'
  cases h with
  | other _ _ hold _ => exact hs id id' (hold id hid) (hold id' hid')
  | full _ _ _ _ _ hsame => exact hs id id' (hsame ▸ hid) (hsame ▸ hid')
  | seated _ _ _ _ _ hwaits => exact hs id id' ((hwaits id).1 hid).1 ((hwaits id').1 hid').1
  | created _ _ _ _ _ hwaits => exact ((hwaits id).1 hid).trans ((hwaits id').1 hid').symm

theorem ReachableCompleted.oneWaiting (h : ReachableCompleted srv s) : s.OneWaiting := by
  refine h.invariant (I := ServerState.OneWaiting) ?_ ?_
  · exact fun s l s' _ hs hst => (CompletedStep.matching hst).oneWaiting hs
  · rintro id id' ⟨g, hg, -⟩
    simp [ServerState.initial] at hg

end Waiting

/-! ## The order of the hash map -/

/-- The handling of `d` is the same for every order in which the hash map is traversed. -/
def OrderIndependent (srv : Server) (s : ServerState) (d : Datagram) : Prop :=
  ∀ now alloc fuel order order', Finmap.IsTraversal order s.activeGames →
    Finmap.IsTraversal order' s.activeGames →
    decodeAndVerifyMessage ⟨now, alloc, order, fuel⟩ srv.template d.buf d.len s =
      decodeAndVerifyMessage ⟨now, alloc, order', fuel⟩ srv.template d.buf d.len s

theorem ServerState.OneWaiting.orderIndependent {s : ServerState} (h : s.OneWaiting) (srv : Server)
    {d : Datagram} (hj : d.IsJoin) : OrderIndependent srv s d := by
  intro now alloc fuel order order' horder horder'
  have hfind : findWaitingGame order = findWaitingGame order' := by
    refine horder.find?_congr horder' ?_
    rintro ⟨id, g⟩ he ⟨id', g'⟩ he' hw hw'
    have hg := horder.mem_iff.1 he
    have hg' := horder.mem_iff.1 he'
    obtain rfl := h id id' ⟨g, hg, beq_iff_eq.1 hw⟩ ⟨g', hg', beq_iff_eq.1 hw'⟩
    rw [Option.mem_unique hg hg']
  rw [decode_of_join _ _ _ hj, decode_of_join _ _ _ hj, joinReply, joinReply, hfind]
  rfl

/-! ## Who is seated where -/

/-- The players of the well-formed JOINs of a run, in order. -/
def joins (tr : List Transition) : List UInt32 := tr.filterMap fun t => t.label.event.joins

/-- The player that a line of the log gives a seat. -/
def LogLine.seats : LogLine → Option UInt32
  | .joined playerId _ => some playerId
  | .created _ playerId => some playerId
  | .timedOut _ => none

/-- The game that a line of the log creates. -/
def LogLine.creates : LogLine → Option UInt32
  | .created gameId _ => some gameId
  | _ => none

/-- The players that are given a seat in a run, in order. -/
def seatings (tr : List Transition) : List UInt32 :=
  tr.flatMap fun t => t.label.output.log.filterMap LogLine.seats

/-- The games that are created in a run, in order. -/
def creations (tr : List Transition) : List UInt32 :=
  tr.flatMap fun t => t.label.output.log.filterMap LogLine.creates

theorem joins_append (tr tr' : List Transition) : joins (tr ++ tr') = joins tr ++ joins tr' :=
  List.filterMap_append

theorem creations_append (tr tr' : List Transition) :
    creations (tr ++ tr') = creations tr ++ creations tr' := List.flatMap_append

theorem joins_snoc (tr : List Transition) (s : ServerState) (l : Label) (s' : ServerState) :
    joins (tr ++ [⟨s, l, s'⟩]) = joins tr ++ l.event.joins.toList := by
  rw [joins_append]
  cases hl : l.event.joins <;> simp [joins, hl]

/-- A sweep evicts a game that waits. -/
def EvictsWaiting (t : Transition) : Prop := ∃ id, t.pre.Waits id ∧ id ∉ t.post.activeGames

/-- A JOIN finds no waiting game and no room for another one. -/
def HitsCapacity (t : Transition) : Prop :=
  ∃ p, t.label.event.joins = some p ∧ t.pre.NoneWaiting ∧ ¬ t.pre.HasRoom

/-- The players seated so far, and the parity of their number. -/
structure Balanced (tr : List Transition) (s : ServerState) : Prop where
  order : seatings tr = joins tr
  even : s.NoneWaiting → (joins tr).length = 2 * (creations tr).length
  odd : ¬ s.NoneWaiting → (joins tr).length + 1 = 2 * (creations tr).length

section Balance

variable {srv : Server} {s s' : ServerState} {l : Label} {tr : List Transition}

/-- One step adds a seat for its JOIN, in the game that waits or in a new one. -/
theorem Balanced.step (h : Balanced tr s) (hone : s.OneWaiting) (hm : Matching s l s')
    (hevict : ¬ EvictsWaiting ⟨s, l, s'⟩) (hroom : ¬ HitsCapacity ⟨s, l, s'⟩) :
    Balanced (tr ++ [⟨s, l, s'⟩]) s' := by
  have hjoins := joins_snoc tr s l s'
  have hseatings : seatings (tr ++ [⟨s, l, s'⟩]) =
      seatings tr ++ l.output.log.filterMap LogLine.seats := by simp [seatings]
  have hcreations : creations (tr ++ [⟨s, l, s'⟩]) =
      creations tr ++ l.output.log.filterMap LogLine.creates := by simp [creations]
  cases hm with
  | other hjoin hlog hold hkeep =>
      have hseats : l.output.log.filterMap LogLine.seats = [] := by
        refine List.filterMap_eq_nil_iff.2 fun line hline => ?_
        obtain ⟨id, rfl⟩ := hlog line hline
        rfl
      have hcreates : l.output.log.filterMap LogLine.creates = [] := by
        refine List.filterMap_eq_nil_iff.2 fun line hline => ?_
        obtain ⟨id, rfl⟩ := hlog line hline
        rfl
      have hnone : s'.NoneWaiting ↔ s.NoneWaiting := by
        rw [noneWaiting_iff, noneWaiting_iff]
        constructor
        · intro hs' id hw
          by_cases hid : id ∈ s'.activeGames
          · exact hs' id (hkeep id hw hid)
          · exact hevict ⟨id, hw, hid⟩
        · exact fun hs id hw => hs id (hold id hw)
      rw [hjoin, Option.toList_none, List.append_nil] at hjoins
      rw [hseats, List.append_nil] at hseatings
      rw [hcreates, List.append_nil] at hcreations
      refine ⟨?_, ?_, ?_⟩
      · rw [hseatings, hjoins, h.order]
      · rw [hjoins, hcreations, hnone]
        exact h.even
      · rw [hjoins, hcreations, hnone]
        exact h.odd
  | full p hjoin hnone hfull _ _ => exact absurd ⟨p, hjoin, hnone, hfull⟩ hroom
  | seated p id hjoin hlog hw hwaits =>
      -- the game that gets its second player was the only one waiting
      have hnone : s'.NoneWaiting := by
        refine noneWaiting_iff.2 fun k hk => ?_
        obtain ⟨hk, hne⟩ := (hwaits k).1 hk
        exact hne (hone k id hk hw)
      have hodd := h.odd fun hs => noneWaiting_iff.1 hs id hw
      have hcreates : [LogLine.joined p id].filterMap LogLine.creates = [] := rfl
      rw [hjoin] at hjoins
      rw [hlog] at hseatings
      rw [hlog, hcreates, List.append_nil] at hcreations
      refine ⟨?_, fun _ => ?_, fun hs => absurd hnone hs⟩
      · rw [hseatings, hjoins, h.order]
        rfl
      · rw [hjoins, hcreations, List.length_append]
        exact hodd
  | created p id hjoin hlog hnone hwaits =>
      have heven := h.even hnone
      have hcreates : [LogLine.created id p].filterMap LogLine.creates = [id] := rfl
      rw [hjoin] at hjoins
      rw [hlog] at hseatings
      rw [hlog, hcreates] at hcreations
      refine ⟨?_, fun hs => absurd ((hwaits id).2 rfl) (noneWaiting_iff.1 hs id), fun _ => ?_⟩
      · rw [hseatings, hjoins, h.order]
        rfl
      · rw [hjoins, hcreations, List.length_append, List.length_append, heven]
        exact (Nat.mul_add 2 _ 1).symm

/-- **The balance of a run** in which no waiting game is evicted and no JOIN finds the map full. -/
theorem balanced_of_run (hrun : LTS.Run (CompletedStep srv) .initial tr s)
    (hevict : ∀ t ∈ tr, ¬ EvictsWaiting t) (hroom : ∀ t ∈ tr, ¬ HitsCapacity t) : Balanced tr s := by
  induction hrun with
  | refl =>
      exact ⟨rfl, fun _ => rfl, fun h => absurd noneWaiting_initial h⟩
  | @snoc tr s₁ s₂ l hrun hstep ih =>
      have hlast : ⟨s₁, l, s₂⟩ ∈ tr ++ [⟨s₁, l, s₂⟩] := List.mem_append_right _ List.mem_cons_self
      have hprev := ih (fun t ht => hevict t (List.mem_append_left _ ht))
        fun t ht => hroom t (List.mem_append_left _ ht)
      exact hprev.step (ReachableCompleted.oneWaiting ⟨_, hrun⟩) hstep.matching
        (hevict _ hlast) (hroom _ hlast)

end Balance

/-! ## The seats of one game -/

/-- The second player of a game, once it has arrived. -/
def GameState.secondPlayer (g : GameState) : Option UInt32 :=
  if g.status = waitingForOpponent then none else some g.playerBId

section Seats

variable {srv : Server} {s s' s₀ : ServerState} {l : Label} {tr : List Transition} {id : UInt32}
  {g g₀ g' : GameState}

theorem GameState.secondPlayer_of_waiting (h : g.status = waitingForOpponent) :
    g.secondPlayer = none := if_pos h

theorem GameState.secondPlayer_of_not (h : g.status ≠ waitingForOpponent) :
    g.secondPlayer = some g.playerBId := if_neg h

theorem GameState.secondPlayer_afterMove (hw : g.status ≠ waitingForOpponent) (pawns : List UInt8)
    (now : UInt64) : (g.afterMove pawns now).secondPlayer = g.secondPlayer := by
  rw [GameState.secondPlayer_of_not (g.afterMove_not_waiting pawns now),
    GameState.secondPlayer_of_not hw]
  rfl

theorem GameState.secondPlayer_afterGiveUp (hw : g.status ≠ waitingForOpponent) (p : UInt32)
    (now : UInt64) : (g.afterGiveUp p now).secondPlayer = g.secondPlayer := by
  rw [GameState.secondPlayer_of_not (g.afterGiveUp_not_waiting p now),
    GameState.secondPlayer_of_not hw]
  rfl

/-- A game that waits is not left idle by a JOIN. -/
theorem Matching.joins_of_idle (h : Matching s l s') (hone : s.OneWaiting) (hw : s.Waits id)
    (hlog : ∀ p, LogLine.joined p id ∉ l.output.log) : l.event.joins = none := by
  cases h with
  | other hjoin _ _ _ => exact hjoin
  | full _ _ hnone _ _ _ => exact absurd hw (noneWaiting_iff.1 hnone id)
  | seated p k _ hjoined hk _ =>
      obtain rfl := hone id k hw hk
      exact absurd (hjoined ▸ List.mem_singleton.2 rfl) (hlog p)
  | created _ _ _ _ hnone _ => exact absurd hw (noneWaiting_iff.1 hnone id)

/-- The step that creates a game. -/
theorem Matching.of_created (h : Matching s l s') {p : UInt32}
    (hmem : LogLine.created id p ∈ l.output.log) : l.event.joins = some p ∧ s.NoneWaiting := by
  cases h with
  | other _ hlog _ _ =>
      obtain ⟨k, hk⟩ := hlog _ hmem
      exact LogLine.noConfusion hk
  | full _ _ _ _ hlog _ => exact absurd (hlog ▸ hmem) List.not_mem_nil
  | seated _ _ _ hlog _ _ =>
      rw [hlog] at hmem
      exact LogLine.noConfusion (List.mem_singleton.1 hmem)
  | created q k hjoin hlog hnone _ =>
      rw [hlog] at hmem
      obtain ⟨rfl, rfl⟩ : id = k ∧ p = q := by simpa using hmem
      exact ⟨hjoin, hnone⟩

/-- **One step**: the first player stays, and the next JOIN is the second. -/
theorem LiveStep.seats (h : LiveStep srv id s l s') (hone : s.OneWaiting)
    (hg : s.activeGames.lookup id = some g) : ∃ g', s'.activeGames.lookup id = some g' ∧
      g'.playerAId = g.playerAId ∧ g'.secondPlayer = g.secondPlayer.or l.event.joins := by
  have hmatching := h.1.matching
  obtain ⟨g', hg', hev⟩ := h.1.2.evolves hg h.2
  refine ⟨g', hg', ?_⟩
  obtain ⟨event, out⟩ := l
  cases event with
  | sweep now =>
      obtain rfl : g' = g := hev
      exact ⟨rfl, (Option.or_none).symm⟩
  | datagram now alloc d =>
      have hchange : Change now d out.log id g g' := hev
      have hwaiting : ¬ d.IsJoin → _ := hchange.waiting_iff
      cases hchange with
      | idle _ _ hlog =>
          refine ⟨rfl, ?_⟩
          by_cases hw : g.status = waitingForOpponent
          · rw [hmatching.joins_of_idle hone ⟨g, hg, hw⟩ hlog, Option.or_none]
          · rw [GameState.secondPlayer_of_not hw]
            rfl
      | seat hjoin hw _ =>
          rw [GameState.secondPlayer_of_waiting hw]
          rw [Event.joins_of_join hjoin]
          exact ⟨rfl, rfl⟩
      | move hm =>
          have hnot : ¬ d.IsJoin := fun hj => hm.1.type_ne hj.2
          rw [GameState.secondPlayer, GameState.secondPlayer, if_congr (hwaiting hnot) rfl rfl,
            Event.joins_of_not hnot, Option.or_none]
          exact ⟨rfl, rfl⟩
      | giveUp hu =>
          have hnot : ¬ d.IsJoin := fun hj => hu.1.type_ne hj.2
          rw [GameState.secondPlayer, GameState.secondPlayer, if_congr (hwaiting hnot) rfl rfl,
            Event.joins_of_not hnot, Option.or_none]
          exact ⟨rfl, rfl⟩
      | keepAlive hk _ _ _ =>
          rw [Event.joins_of_not fun hj => hk.type_ne hj.2, Option.or_none]
          exact ⟨rfl, rfl⟩

/-- **A run**: the first JOIN after a game began to wait is its second player. -/
theorem seats_of_run (hs : ReachableCompleted srv s₀) (hg₀ : s₀.activeGames.lookup id = some g₀)
    (hw : g₀.status = waitingForOpponent) (hrun : LTS.Run (LiveStep srv id) s₀ tr s) :
    ∃ g, s.activeGames.lookup id = some g ∧ g.playerAId = g₀.playerAId ∧
      g.secondPlayer = (joins tr).head? := by
  induction hrun with
  | refl => exact ⟨g₀, hg₀, rfl, GameState.secondPlayer_of_waiting hw⟩
  | @snoc tr s₁ s₂ l hrun hstep ih =>
      obtain ⟨g, hg, hfirst, hsecond⟩ := ih
      have hreach : ReachableCompleted srv s₁ := hs.run (hrun.mono fun _ _ _ h => h.1)
      obtain ⟨g', hg', hfirst', hsecond'⟩ := hstep.seats hreach.oneWaiting hg
      refine ⟨g', hg', hfirst'.trans hfirst, ?_⟩
      rw [hsecond', hsecond, joins_snoc, List.head?_append, Option.head?_toList]

end Seats

/-- The first two JOINs of a server. -/
theorem exists_run_joins (srv : Server) {p q : UInt32} (hp : p ≠ 0) (hq : q ≠ 0) (now : UInt64) :
    ∃ tr, LTS.Run (CompletedStep srv) .initial tr (started srv p q now) ∧ joins tr = [p, q] ∧
      (∀ t ∈ tr, ¬ EvictsWaiting t) ∧ ∀ t ∈ tr, ¬ HitsCapacity t := by
  have hinit : ReachableCompleted srv .initial := LTS.Reachable.refl
  have hfirst := handling_opened srv hp now
  have hsecond := handling_started srv p hq now
  have hone := hinit.step Allocation.ok_succeeds hfirst
  have htwo := (hinit.handling Allocation.ok_succeeds hfirst).step Allocation.ok_succeeds hsecond
  refine ⟨_, (LTS.Run.single hone).snoc htwo, ?_, ?_, ?_⟩
  · have hjoin := Datagram.isJoin_join hp
    have hjoin' := Datagram.isJoin_join hq
    simp [joins, Event.joins, hjoin, hjoin']
  · intro t ht
    rw [List.singleton_append, List.mem_pair] at ht
    rcases ht with rfl | rfl
    · intro h
      obtain ⟨id, ⟨g, hg, -⟩, hid⟩ := h
      exact hid (hfirst.mem (Finmap.mem_of_lookup_eq_some hg))
    · intro h
      obtain ⟨id, ⟨g, hg, -⟩, hid⟩ := h
      exact hid (hsecond.mem (Finmap.mem_of_lookup_eq_some hg))
  · intro t ht
    rw [List.singleton_append, List.mem_pair] at ht
    rcases ht with rfl | rfl
    · intro h
      obtain ⟨-, -, -, hfull⟩ := h
      exact hfull (show ServerState.initial.HasRoom by decide)
    · intro h
      obtain ⟨-, -, hnone, -⟩ := h
      exact hnone 1 _ (lookup_opened srv p now) rfl

/-- **Matchmaking.** In every reachable state at most one game waits, so a JOIN is handled the same
    for every order of the hash map; and in every run that evicts no waiting game and does not reach
    the capacity, the players are seated in the order of their JOINs, two by two: the game whose
    creation comes after `j` others has the players of the JOINs `2 * j` and, once it has arrived,
    `2 * j + 1`, counting from 0. -/
theorem matchmaking (srv : Server) :
    (∀ s, ReachableCompleted srv s →
      s.OneWaiting ∧ ∀ d : Datagram, d.IsJoin → OrderIndependent srv s d) ∧
    ∀ tr s, LTS.Run (CompletedStep srv) .initial tr s → (∀ t ∈ tr, ¬ EvictsWaiting t) →
      (∀ t ∈ tr, ¬ HitsCapacity t) →
      seatings tr = joins tr ∧ (creations tr).length = ((joins tr).length + 1) / 2 ∧
      ∀ before birth life id, tr = before ++ birth :: life → Creates id birth →
        (∀ t ∈ life, id ∈ t.post.activeGames) →
        ∃ g, s.activeGames.lookup id = some g ∧
          (joins tr)[2 * (creations before).length]? = some g.playerAId ∧
          (joins tr)[2 * (creations before).length + 1]? = g.secondPlayer := by
  constructor
  · intro s hs
    exact ⟨hs.oneWaiting, fun d hj => hs.oneWaiting.orderIndependent srv hj⟩
  · intro tr s hrun hevict hroom
    have hbalanced := balanced_of_run hrun hevict hroom
    refine ⟨hbalanced.order, ?_, ?_⟩
    · by_cases hnone : s.NoneWaiting
      · have heven := hbalanced.even hnone
        omega
      · have hodd := hbalanced.odd hnone
        omega
    · rintro before birth life id rfl ⟨p, hbirth⟩ hlive
      obtain ⟨s₁, hbefore, hafter⟩ := hrun.split
      obtain ⟨rfl, hstep, hlife⟩ := hafter.uncons
      obtain ⟨hjoin, hnone⟩ := hstep.matching.of_created hbirth
      obtain ⟨now, hg₀⟩ := hstep.2.of_created hbirth
      have hreach : ReachableCompleted srv birth.post := ⟨_, hbefore.snoc hstep⟩
      obtain ⟨g, hg, hfirst, hsecond⟩ := seats_of_run hreach hg₀ rfl (hlife.restrict hlive)
      -- nobody waits when a game is created, so the JOINs before it come in pairs
      have heven := (balanced_of_run hbefore (fun t ht => hevict t (List.mem_append_left _ ht))
        fun t ht => hroom t (List.mem_append_left _ ht)).even hnone
      have hjoins : joins (before ++ birth :: life) = joins before ++ p :: joins life := by
        rw [joins_append]
        exact congrArg _ (List.filterMap_cons_some hjoin)
      refine ⟨g, hg, ?_, ?_⟩
      · rw [hjoins, ← heven, List.getElem?_append_right (Nat.le_refl _), Nat.sub_self, hfirst]
        rfl
      · rw [hjoins, ← heven, List.getElem?_append_right (Nat.le_add_right _ 1), Nat.add_sub_cancel_left,
          hsecond, List.head?_eq_getElem?]
        rfl

theorem matchmaking_started : ∃ tr,
    LTS.Run (CompletedStep threePawns) .initial tr (started threePawns 7 9 0) ∧
    joins tr = [7, 9] ∧ seatings tr = [7, 9] ∧ (creations tr).length = 1 := by
  obtain ⟨tr, hrun, hjoins, hevict, hroom⟩ :=
    exists_run_joins threePawns (p := 7) (q := 9) (by decide) (by decide) 0
  obtain ⟨hseats, hcount, -⟩ := (matchmaking threePawns).2 tr _ hrun hevict hroom
  rw [hjoins] at hseats hcount
  exact ⟨tr, hrun, hjoins, hseats, hcount⟩

end Kayles
