import Kayles.Proofs.Handlers

set_option autoImplicit false

/-! # One game under one step

A step of the server seen from a single game: a sweep removes it or leaves it alone, a handling
changes at most its own game. `Step.entry` says what can become of an entry, and `entry_invariant`
turns a property that these changes preserve into one of every entry of every reachable state. -/

namespace Kayles

/-! ## The sweep -/

/-- The test of `remove_timed_out_games`. -/
def GameState.Expired (g : GameState) (now timeoutMs : UInt64) : Prop :=
  now - g.lastActivity > timeoutMs

instance (g : GameState) (now timeoutMs : UInt64) : Decidable (g.Expired now timeoutMs) :=
  inferInstanceAs (Decidable (now - g.lastActivity > timeoutMs))

theorem removeTimedOutGames_fst (now timeoutMs : UInt64) (order : List Entry) :
    ∀ m : ActiveGames, (removeTimedOutGames now timeoutMs order m).1 =
      Finmap.eraseWhere (fun e => decide (e.2.Expired now timeoutMs)) order m := by
  induction order with
  | nil => intro m; rfl
  | cons e rest ih =>
      intro m
      rw [removeTimedOutGames, Finmap.eraseWhere]
      by_cases hexp : e.2.Expired now timeoutMs
      · rw [if_pos (show now - e.2.lastActivity > timeoutMs from hexp), decide_eq_true hexp,
          if_pos rfl]
        exact ih (m.erase e.1)
      · rw [if_neg (show ¬ now - e.2.lastActivity > timeoutMs from hexp), decide_eq_false hexp]
        exact ih m

/-- A sweep prints nothing but what it removes. -/
theorem removeTimedOutGames_log (now timeoutMs : UInt64) (order : List Entry) :
    ∀ m : ActiveGames, ∀ line ∈ (removeTimedOutGames now timeoutMs order m).2,
      ∃ id, line = .timedOut id := by
  induction order with
  | nil => intro m line hline; simp [removeTimedOutGames] at hline
  | cons e rest ih =>
      intro m line hline
      rw [removeTimedOutGames] at hline
      split at hline
      · rcases List.mem_cons.1 hline with rfl | hline
        · exact ⟨e.1, rfl⟩
        · exact ih _ line hline
      · exact ih m line hline

/-- It prints everything it removes. -/
theorem mem_removeTimedOutGames_log (now timeoutMs : UInt64) {e : Entry}
    (hexp : e.2.Expired now timeoutMs) (order : List Entry) : ∀ m : ActiveGames, e ∈ order →
      LogLine.timedOut e.1 ∈ (removeTimedOutGames now timeoutMs order m).2 := by
  induction order with
  | nil => intro m he; exact absurd he List.not_mem_nil
  | cons e' rest ih =>
      intro m he
      rw [removeTimedOutGames]
      rcases List.mem_cons.1 he with rfl | he
      · rw [if_pos (show now - e.2.lastActivity > timeoutMs from hexp)]
        exact List.mem_cons_self
      · split
        · exact List.mem_cons_of_mem _ (ih _ he)
        · exact ih m he

theorem removeTimedOutGames_of_none (now timeoutMs : UInt64) (m : ActiveGames) (order : List Entry)
    (h : ∀ e ∈ order, ¬ e.2.Expired now timeoutMs) :
    removeTimedOutGames now timeoutMs order m = (m, []) := by
  induction order with
  | nil => rfl
  | cons e rest ih =>
      rw [removeTimedOutGames]
      rw [if_neg (show ¬ now - e.2.lastActivity > timeoutMs from h e List.mem_cons_self)]
      exact ih fun e' he' => h e' (List.mem_cons_of_mem _ he')

section Sweep

variable {srv : Server} {now : UInt64} {s s' : ServerState} {out : Output}

/-- A sweep keeps the games that have not expired, as they are. -/
theorem Sweeps.lookup (h : Sweeps srv now s s' out) (id : UInt32) : s'.activeGames.lookup id =
    (s.activeGames.lookup id).filter fun g => !decide (g.Expired now srv.timeoutMs) := by
  obtain ⟨order, horder, rfl, -⟩ := h
  simp only [removeTimedOutGames_fst]
  exact horder.lookup_eraseWhere _ id

theorem Sweeps.lookup_eq_some (h : Sweeps srv now s s' out) {id : UInt32} {g : GameState} :
    s'.activeGames.lookup id = some g ↔
      s.activeGames.lookup id = some g ∧ ¬ g.Expired now srv.timeoutMs := by
  rw [h.lookup id, Option.filter_eq_some_iff]
  simp

theorem Sweeps.nextGameId (h : Sweeps srv now s s' out) : s'.nextGameId = s.nextGameId := by
  obtain ⟨order, -, rfl, -⟩ := h
  rfl

theorem Sweeps.log (h : Sweeps srv now s s' out) : ∀ line ∈ out.log, ∃ id, line = .timedOut id := by
  obtain ⟨order, -, -, rfl⟩ := h
  exact removeTimedOutGames_log now srv.timeoutMs order s.activeGames

theorem Sweeps.joined_notMem (h : Sweeps srv now s s' out) (p id : UInt32) :
    LogLine.joined p id ∉ out.log := by
  intro hmem
  obtain ⟨k, hk⟩ := h.log _ hmem
  exact LogLine.noConfusion hk

theorem Sweeps.created_notMem (h : Sweeps srv now s s' out) (id p : UInt32) :
    LogLine.created id p ∉ out.log := by
  intro hmem
  obtain ⟨k, hk⟩ := h.log _ hmem
  exact LogLine.noConfusion hk

/-- What a sweep does not print stays. -/
theorem Sweeps.lookup_of_log (h : Sweeps srv now s s' out) {id : UInt32} {g : GameState}
    (hg : s.activeGames.lookup id = some g) (hlog : LogLine.timedOut id ∉ out.log) :
    ¬ g.Expired now srv.timeoutMs ∧ s'.activeGames.lookup id = some g := by
  have hkeep : ¬ g.Expired now srv.timeoutMs := by
    obtain ⟨order, horder, -, rfl⟩ := h
    intro hexp
    exact hlog (mem_removeTimedOutGames_log (e := ⟨id, g⟩) now srv.timeoutMs hexp order _
      (horder.mem_iff.2 hg))
  exact ⟨hkeep, h.lookup_eq_some.2 ⟨hg, hkeep⟩⟩

theorem Sweeps.step (h : Sweeps srv now s s' out) : Step srv s ⟨.sweep now, out⟩ s' := h

/-- A sweep when nothing has expired. -/
theorem sweeps_of_none (h : ∀ id g, s.activeGames.lookup id = some g → ¬ g.Expired now srv.timeoutMs) :
    Sweeps srv now s s {} := by
  obtain ⟨order, horder⟩ := Finmap.exists_isTraversal s.activeGames
  have hnone := removeTimedOutGames_of_none now srv.timeoutMs s.activeGames order
    fun e he => h e.1 e.2 (horder.mem_iff.1 he)
  exact ⟨order, horder, by rw [hnone], by rw [hnone]⟩

theorem exists_sweeps (srv : Server) (now : UInt64) (s : ServerState) :
    ∃ s' out, Sweeps srv now s s' out := by
  obtain ⟨order, horder⟩ := Finmap.exists_isTraversal s.activeGames
  exact ⟨_, _, order, horder, rfl, rfl⟩

end Sweep

/-! ## One game under one handling -/

/-- The players, the status and the board agree; `last_activity` need not. -/
structure GameState.SameGame (g g' : GameState) : Prop where
  playerAId : g'.playerAId = g.playerAId
  playerBId : g'.playerBId = g.playerBId
  status : g'.status = g.status
  maxPawn : g'.maxPawn = g.maxPawn
  pawnRow : g'.pawnRow = g.pawnRow

theorem GameState.SameGame.refl (g : GameState) : g.SameGame g := ⟨rfl, rfl, rfl, rfl, rfl⟩

theorem GameState.SameGame.trans {g g' g'' : GameState} (h : g.SameGame g')
    (h' : g'.SameGame g'') : g.SameGame g'' where
  playerAId := h'.playerAId.trans h.playerAId
  playerBId := h'.playerBId.trans h.playerBId
  status := h'.status.trans h.status
  maxPawn := h'.maxPawn.trans h.maxPawn
  pawnRow := h'.pawnRow.trans h.pawnRow

theorem GameState.sameGame_touch (g : GameState) (now : UInt64) : g.SameGame (g.touch now) :=
  ⟨rfl, rfl, rfl, rfl, rfl⟩

/-- The handler carries the move out: both checks pass before its first `knock_pawn_down`. -/
def CarriedOut (g : GameState) (d : Datagram) : Prop :=
  isValidTurn g d.playerId = true ∧ areLegalMoves g d.movePawns = .ok true

theorem carriedOut_iff {g : GameState} {d : Datagram} :
    CarriedOut g d ↔ g.OnTurn d.playerId ∧ g.Legal d.movePawns := by
  constructor
  · intro h
    obtain ⟨hturn, hlegal⟩ := h
    exact ⟨hturn, (areLegalMoves_eq_ok hlegal).1 rfl⟩
  · intro h
    obtain ⟨hturn, hlegal⟩ := h
    exact ⟨hturn, areLegalMoves_of_legal hlegal⟩

instance (g : GameState) (d : Datagram) : Decidable (CarriedOut g d) :=
  decidable_of_iff _ carriedOut_iff.symm

/-- The handling of `d` carries out a move in the game `id`. -/
def Datagram.MovesIn (d : Datagram) (id : UInt32) (g : GameState) : Prop :=
  d.IsMove ∧ d.gameId = id ∧ CarriedOut g d

/-- The handling of `d` gives the game `id` up. -/
def Datagram.GivesUpIn (d : Datagram) (id : UInt32) (g : GameState) : Prop :=
  d.IsGiveUp ∧ d.gameId = id ∧ g.OnTurn d.playerId

instance (d : Datagram) (id : UInt32) (g : GameState) : Decidable (d.MovesIn id g) :=
  inferInstanceAs (Decidable (_ ∧ _))

instance (d : Datagram) (id : UInt32) (g : GameState) : Decidable (d.GivesUpIn id g) :=
  inferInstanceAs (Decidable (_ ∧ _))

/-- What the handling of `d`, which printed `log`, can make of the game `id`. -/
inductive Change (now : UInt64) (d : Datagram) (log : List LogLine) (id : UInt32) (g : GameState) :
    GameState → Prop
  | idle (hmove : ¬ d.MovesIn id g) (hgive : ¬ d.GivesUpIn id g)
      (hlog : ∀ p, LogLine.joined p id ∉ log) : Change now d log id g g
  | seat (h : d.IsJoin) (hw : g.status = waitingForOpponent)
      (hlog : log = [.joined d.playerId id]) : Change now d log id g (g.seat d.playerId now)
  | move (h : d.MovesIn id g) : Change now d log id g (g.afterMove d.movePawns now)
  | giveUp (h : d.GivesUpIn id g) : Change now d log id g (g.afterGiveUp d.playerId now)
  | keepAlive (h : d.IsKeepAlive) (hid : d.gameId = id) (hreg : g.Registered d.playerId)
      (hlog : log = []) : Change now d log id g (g.touch now)

/-- The handling of `d` can add the game `g` under `id`. -/
structure Appears (tmpl : GameState) (now : UInt64) (alloc : Allocation) (d : Datagram)
    (s : ServerState) (id : UInt32) (g : GameState) : Prop where
  join : d.IsJoin
  noneWaiting : s.NoneWaiting
  freeId : s.FreeId id
  game : (alloc.Succeeds ∧ g = tmpl.open d.playerId now) ∨
    (¬ alloc.Succeeds ∧ g = tmpl.unfinished d.playerId)

theorem Handles.step {srv : Server} {now : UInt64} {alloc : Allocation} {d : Datagram}
    {s s' : ServerState} {out : Output} (h : Handles srv now alloc d s s' out) :
    Step srv s ⟨.datagram now alloc d, out⟩ s' := h

section Entry

variable {srv : Server} {tmpl : GameState} {now : UInt64} {alloc : Allocation} {d : Datagram}
  {s s' : ServerState} {out : Output} {l : Label} {id : UInt32} {g g' : GameState}

theorem lookup_insert_cases {m : ActiveGames} {k : UInt32} {v : GameState}
    (h : (m.insert k v).lookup id = some g) : (id = k ∧ g = v) ∨ (id ≠ k ∧ m.lookup id = some g) := by
  by_cases hid : id = k
  · subst hid
    rw [Finmap.lookup_insert] at h
    exact .inl ⟨rfl, (Option.some.inj h).symm⟩
  · rw [Finmap.lookup_insert_of_ne m hid] at h
    exact .inr ⟨hid, h⟩

/-- A map with one entry. -/
theorem eq_of_lookup_singleton {k : UInt32} {v : GameState}
    (h : ((∅ : ActiveGames).insert k v).lookup id = some g) : id = k ∧ g = v := by
  rcases lookup_insert_cases h with heq | ⟨-, hnone⟩
  · exact heq
  · simp at hnone

/-- Every entry after a handling was there before it, or has just been created. -/
theorem Handling.entry (h : Handling tmpl now alloc d s s' out)
    (hg' : s'.activeGames.lookup id = some g') :
    (∃ g, s.activeGames.lookup id = some g ∧ Change now d out.log id g g') ∨
      (s.activeGames.lookup id = none ∧ Appears tmpl now alloc d s id g') := by
  have hjoin : d.IsJoin → ∀ g, ¬ d.MovesIn id g ∧ ¬ d.GivesUpIn id g :=
    fun hj g => ⟨fun hm => hm.1.type_ne hj.2, fun hu => hu.1.type_ne hj.2⟩
  have hnil : ∀ p, LogLine.joined p id ∉ ([] : List LogLine) := fun _ => List.not_mem_nil
  -- an entry under another id than the one the message names
  have hother : id ≠ d.gameId → ∀ g, ¬ d.MovesIn id g ∧ ¬ d.GivesUpIn id g :=
    fun hid g => ⟨fun hm => hid hm.2.1.symm, fun hu => hid hu.2.1.symm⟩
  cases h with
  | malformed hwf =>
      exact .inl ⟨g', hg', .idle (fun hm => hwf hm.1.1) (fun hu => hwf hu.1.1) hnil⟩
  | notFound _ _ hs =>
      refine .inl ⟨g', hg', .idle ?_ ?_ hnil⟩
      · intro h
        obtain ⟨-, rfl, hcarried⟩ := h
        exact hs g' hg' (carriedOut_iff.1 hcarried).1.registered
      · intro h
        obtain ⟨-, rfl, hturn⟩ := h
        exact hs g' hg' hturn.registered
  | full hj _ _ => exact .inl ⟨g', hg', .idle (hjoin hj g').1 (hjoin hj g').2 hnil⟩
  | unallocated _ hj _ _ _ _ => exact .inl ⟨g', hg', .idle (hjoin hj g').1 (hjoin hj g').2 hnil⟩
  | refused g _ hg _ hno =>
      refine .inl ⟨g', hg', .idle ?_ ?_ hnil⟩
      · intro h
        obtain ⟨-, rfl, hcarried⟩ := h
        obtain rfl : g = g' := Option.mem_unique hg hg'
        obtain ⟨hturn, hlegal⟩ := carriedOut_iff.1 hcarried
        exact hno ⟨hturn, fun _ => hlegal⟩
      · intro h
        obtain ⟨hgive, rfl, hturn⟩ := h
        obtain rfl : g = g' := Option.mem_unique hg hg'
        exact hno ⟨hturn, fun hm => (hgive.not_move hm).elim⟩
  | seated k g hj hg hw =>
      rcases lookup_insert_cases hg' with ⟨rfl, rfl⟩ | ⟨hne, hold⟩
      · exact .inl ⟨g, hg, .seat hj hw rfl⟩
      · refine .inl ⟨g', hold, .idle (hjoin hj g').1 (hjoin hj g').2 ?_⟩
        simp [hne]
  | unfinished k hj hw _ hid halloc =>
      rcases lookup_insert_cases hg' with ⟨rfl, rfl⟩ | ⟨_, hold⟩
      · exact .inr ⟨Finmap.lookup_eq_none.2 hid.notMem, hj, hw, hid,
          .inr ⟨fun hall => by simp [hall.2.2] at halloc, rfl⟩⟩
      · exact .inl ⟨g', hold, .idle (hjoin hj g').1 (hjoin hj g').2 hnil⟩
  | created k hj hw _ hid halloc =>
      rcases lookup_insert_cases hg' with ⟨rfl, rfl⟩ | ⟨_, hold⟩
      · exact .inr ⟨Finmap.lookup_eq_none.2 hid.notMem, hj, hw, hid, .inl ⟨halloc, rfl⟩⟩
      · refine .inl ⟨g', hold, .idle (hjoin hj g').1 (hjoin hj g').2 ?_⟩
        simp
  | moved g hm hg hturn hlegal _ =>
      rcases lookup_insert_cases hg' with ⟨rfl, rfl⟩ | ⟨hne, hold⟩
      · exact .inl ⟨g, hg, .move ⟨hm, rfl, carriedOut_iff.2 ⟨hturn, hlegal⟩⟩⟩
      · exact .inl ⟨g', hold, .idle (hother hne g').1 (hother hne g').2 hnil⟩
  | gaveUp g hu hg hturn =>
      rcases lookup_insert_cases hg' with ⟨rfl, rfl⟩ | ⟨hne, hold⟩
      · exact .inl ⟨g, hg, .giveUp ⟨hu, rfl, hturn⟩⟩
      · exact .inl ⟨g', hold, .idle (hother hne g').1 (hother hne g').2 hnil⟩
  | keptAlive g hk hg hreg =>
      rcases lookup_insert_cases hg' with ⟨rfl, rfl⟩ | ⟨hne, hold⟩
      · exact .inl ⟨g, hg, .keepAlive hk rfl hreg rfl⟩
      · exact .inl ⟨g', hold, .idle (hother hne g').1 (hother hne g').2 hnil⟩

/-- The handling of a move that names an active game. -/
theorem Handling.of_move (h : Handling tmpl now alloc d s s' out) (hmove : d.IsMove)
    (hg : s.activeGames.lookup d.gameId = some g) :
    (g.OnTurn d.playerId ∧ g.Legal d.movePawns ∧ (g.knock d.movePawns).MoveEnds ∧
      s' = { s with activeGames := s.activeGames.insert d.gameId (g.afterMove d.movePawns now) } ∧
      out.sent = [gameStateMessage (g.afterMove d.movePawns now) d.gameId]) ∨
    (¬ (g.OnTurn d.playerId ∧ g.Legal d.movePawns) ∧ s' = s ∧
      (g.Registered d.playerId → out.sent = [gameStateMessage g d.gameId])) := by
  have hnotGive : ¬ d.IsGiveUp := fun hgive => hgive.not_move hmove
  have hnotKeep : ¬ d.IsKeepAlive := fun hkeep => hkeep.not_move hmove
  cases h with
  | malformed hwf => exact absurd hmove.1 hwf
  | notFound _ _ hs =>
      exact .inr ⟨fun hyes => hs g hg hyes.1.registered, rfl, fun hreg => absurd hreg (hs g hg)⟩
  | seated _ _ hjoin _ _ => exact absurd hjoin.2 hmove.type_ne
  | full hjoin _ _ => exact absurd hjoin.2 hmove.type_ne
  | unallocated _ hjoin _ _ _ _ => exact absurd hjoin.2 hmove.type_ne
  | unfinished _ hjoin _ _ _ _ => exact absurd hjoin.2 hmove.type_ne
  | created _ hjoin _ _ _ _ => exact absurd hjoin.2 hmove.type_ne
  | refused g₀ _ hg₀ _ hno =>
      obtain rfl : g = g₀ := Option.mem_unique hg hg₀
      exact .inr ⟨fun hyes => hno ⟨hyes.1, fun _ => hyes.2⟩, rfl, fun _ => rfl⟩
  | moved g₀ _ hg₀ hturn hlegal hends =>
      obtain rfl : g = g₀ := Option.mem_unique hg hg₀
      exact .inl ⟨hturn, hlegal, hends, rfl, rfl⟩
  | gaveUp _ hgive _ _ => exact absurd hgive hnotGive
  | keptAlive _ hkeep _ _ => exact absurd hkeep hnotKeep

/-- The handling of a GIVE_UP that names an active game. -/
theorem Handling.of_giveUp (h : Handling tmpl now alloc d s s' out) (hgive : d.IsGiveUp)
    (hg : s.activeGames.lookup d.gameId = some g) :
    (g.OnTurn d.playerId ∧
      s' = { s with
        activeGames := s.activeGames.insert d.gameId (g.afterGiveUp d.playerId now) } ∧
      out.sent = [gameStateMessage (g.afterGiveUp d.playerId now) d.gameId]) ∨
    (¬ g.OnTurn d.playerId ∧ s' = s ∧
      (g.Registered d.playerId → out.sent = [gameStateMessage g d.gameId])) := by
  have hnotKeep : ¬ d.IsKeepAlive := fun hkeep => hkeep.not_giveUp hgive
  cases h with
  | malformed hwf => exact absurd hgive.1 hwf
  | notFound _ _ hs =>
      exact .inr ⟨fun hturn => hs g hg hturn.registered, rfl, fun hreg => absurd hreg (hs g hg)⟩
  | seated _ _ hjoin _ _ => exact absurd hjoin.2 hgive.type_ne
  | full hjoin _ _ => exact absurd hjoin.2 hgive.type_ne
  | unallocated _ hjoin _ _ _ _ => exact absurd hjoin.2 hgive.type_ne
  | unfinished _ hjoin _ _ _ _ => exact absurd hjoin.2 hgive.type_ne
  | created _ hjoin _ _ _ _ => exact absurd hjoin.2 hgive.type_ne
  | refused g₀ _ hg₀ _ hno =>
      obtain rfl : g = g₀ := Option.mem_unique hg hg₀
      exact .inr ⟨fun hturn => hno ⟨hturn, fun hmove => (hgive.not_move hmove).elim⟩, rfl,
        fun _ => rfl⟩
  | moved _ hmove _ _ _ _ => exact (hgive.not_move hmove).elim
  | gaveUp g₀ _ hg₀ hturn =>
      obtain rfl : g = g₀ := Option.mem_unique hg hg₀
      exact .inl ⟨hturn, rfl, rfl⟩
  | keptAlive _ hkeep _ _ => exact absurd hkeep hnotKeep

/-- A handling removes no game. -/
theorem Handling.mem (h : Handling tmpl now alloc d s s' out) (hid : id ∈ s.activeGames) :
    id ∈ s'.activeGames := by
  cases h with
  | malformed _ => exact hid
  | notFound _ _ _ => exact hid
  | full _ _ _ => exact hid
  | unallocated _ _ _ _ _ _ => exact hid
  | refused _ _ _ _ _ => exact hid
  | seated _ _ _ _ _ => exact Finmap.mem_insert.2 (.inr hid)
  | unfinished _ _ _ _ _ _ => exact Finmap.mem_insert.2 (.inr hid)
  | created _ _ _ _ _ _ => exact Finmap.mem_insert.2 (.inr hid)
  | moved _ _ _ _ _ _ => exact Finmap.mem_insert.2 (.inr hid)
  | gaveUp _ _ _ _ => exact Finmap.mem_insert.2 (.inr hid)
  | keptAlive _ _ _ _ => exact Finmap.mem_insert.2 (.inr hid)

/-- What a transition can make of the game `id`. -/
def Evolves (l : Label) (id : UInt32) (g g' : GameState) : Prop :=
  match l.event with
  | .sweep _ => g' = g
  | .datagram now _ d => Change now d l.output.log id g g'

/-- What every change of a game preserves, a transition preserves. -/
theorem Evolves.preserves {P : GameState → Prop} (h : Evolves l id g g') (hP : P g)
    (hchange : ∀ now d, Change now d l.output.log id g g' → P g') : P g' := by
  obtain ⟨event, out⟩ := l
  cases event with
  | sweep now =>
      obtain rfl : g' = g := h
      exact hP
  | datagram now alloc d => exact hchange now d h

/-- A game an event can add. -/
def AppearsAt (srv : Server) (e : Event) (s : ServerState) (id : UInt32) (g : GameState) : Prop :=
  match e with
  | .sweep _ => False
  | .datagram now alloc d => Appears srv.template now alloc d s id g

theorem Step.entry (h : Step srv s l s') (hg' : s'.activeGames.lookup id = some g') :
    (∃ g, s.activeGames.lookup id = some g ∧ Evolves l id g g') ∨
      (s.activeGames.lookup id = none ∧ AppearsAt srv l.event s id g') := by
  obtain ⟨event, output⟩ := l
  cases event with
  | sweep now => exact .inl ⟨g', (Sweeps.lookup_eq_some h).1 hg' |>.1, rfl⟩
  | datagram now alloc d => exact (Handles.handling h).entry hg'

/-- A game that is active before and after a step. -/
theorem Step.evolves (h : Step srv s l s') (hg : s.activeGames.lookup id = some g)
    (hid : id ∈ s'.activeGames) :
    ∃ g', s'.activeGames.lookup id = some g' ∧ Evolves l id g g' := by
  obtain ⟨g', hg'⟩ := Finmap.mem_iff.1 hid
  rcases h.entry hg' with ⟨g₀, hg₀, hev⟩ | ⟨hnone, _⟩
  · obtain rfl : g = g₀ := Option.mem_unique hg hg₀
    exact ⟨g', hg', hev⟩
  · rw [hg] at hnone
    exact absurd hnone (Option.some_ne_none g)

/-- The id counter after a step. -/
theorem Step.nextGameId_ne (h : Step srv s l s') (hs : s.nextGameId ≠ 0) : s'.nextGameId ≠ 0 := by
  obtain ⟨event, output⟩ := l
  cases event with
  | sweep now => exact (Sweeps.nextGameId h).symm ▸ hs
  | datagram now alloc d =>
      cases Handles.handling h with
      | unallocated id _ _ _ _ _ => exact advanceGameId_ne_zero id
      | unfinished id _ _ _ _ _ => exact advanceGameId_ne_zero id
      | created id _ _ _ _ _ => exact advanceGameId_ne_zero id
      | _ => exact hs

theorem nextGameId_ne {step : ServerState → Label → ServerState → Prop}
    (hle : ∀ s l s', step s l s' → Step srv s l s') (h : LTS.Reachable step .initial s) :
    s.nextGameId ≠ 0 := by
  refine h.invariant (I := fun s => s.nextGameId ≠ 0) ?_ (by decide)
  intro s l s' _ hs hst
  exact (hle s l s' hst).nextGameId_ne hs

theorem Reachable.nextGameId_ne (h : Reachable srv s) : s.nextGameId ≠ 0 :=
  Kayles.nextGameId_ne (fun _ _ _ hst => hst) h

/-- **The invariant rule for entries**: what a created game satisfies and every change preserves
    holds of every entry of every reachable state. -/
theorem entry_invariant {step : ServerState → Label → ServerState → Prop}
    {P : UInt32 → GameState → Prop} (hle : ∀ s l s', step s l s' → Step srv s l s')
    (hevolve : ∀ s l s' id g g', step s l s' → P id g → Evolves l id g g' → P id g')
    (happear : ∀ s l s' id g', step s l s' → id ≠ 0 → AppearsAt srv l.event s id g' → P id g')
    (h : LTS.Reachable step .initial s) : ∀ id g, s.activeGames.lookup id = some g → P id g := by
  refine h.invariant (I := fun s => ∀ id g, s.activeGames.lookup id = some g → P id g) ?_ ?_
  · intro s l s' hs hI hstep id g' hg'
    rcases (hle s l s' hstep).entry hg' with ⟨g, hg, hev⟩ | ⟨_, happ⟩
    · exact hevolve s l s' id g g' hstep (hI id g hg) hev
    · refine happear s l s' id g' hstep ?_ happ
      -- the search for an id starts at the counter, which never is 0
      have hnext := nextGameId_ne hle hs
      cases hevent : l.event with
      | sweep now => simp [AppearsAt, hevent] at happ
      | datagram now alloc d =>
          simp only [AppearsAt, hevent] at happ
          exact happ.freeId.ne_zero hnext
  · intro id g hg
    simp [ServerState.initial] at hg

end Entry

end Kayles
