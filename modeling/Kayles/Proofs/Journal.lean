import Kayles.Proofs.Matchmaking

set_option autoImplicit false

/-! # The log as a journal

The server prints a line when it creates a game, when a second player joins it and when it evicts
it. A reader who carries these lines out one after the other (`replay`) knows at any point which
games are active and who plays in them: `journal_exact`. The one kind of game the log does not tell
of is the entry that is left behind when the row of a new game cannot be copied. -/

namespace Kayles

/-! ## Rosters -/

/-- The players of each game, by its id: the first one, and the second one once there is one. -/
abbrev Roster := UInt32 → Option (UInt32 × Option UInt32)

/-- Nobody plays. -/
def Roster.empty : Roster := fun _ => none

/-- What a line of the log says. -/
def LogLine.apply (roster : Roster) : LogLine → Roster
  | .created gameId playerId => Function.update roster gameId (some (playerId, none))
  | .joined playerId gameId =>
    Function.update roster gameId ((roster gameId).map fun players => (players.1, some playerId))
  | .timedOut gameId => Function.update roster gameId none

/-- What the lines of a log say, from a roster on. -/
def replay (roster : Roster) (log : List LogLine) : Roster := log.foldl LogLine.apply roster

/-- The players of a game that has its row. -/
def GameState.players (g : GameState) : Option (UInt32 × Option UInt32) :=
  if g.pawnRow = [] then none else some (g.playerAId, g.secondPlayer)

/-- The players of the active games. -/
def roster (activeGames : ActiveGames) : Roster :=
  fun id => (activeGames.lookup id).bind GameState.players

/-- What the server prints about its games in a run. -/
def printed (tr : List Transition) : List LogLine := tr.flatMap fun t => t.label.output.log

section Roster

variable {m : ActiveGames} {id p : UInt32} {g g' tmpl : GameState} {now : UInt64}

theorem roster_insert (m : ActiveGames) (id : UInt32) (g : GameState) :
    roster (m.insert id g) = Function.update (roster m) id g.players := by
  funext k
  by_cases hk : k = id
  · subst hk
    rw [Function.update_self, roster, Finmap.lookup_insert]
    rfl
  · rw [Function.update_of_ne hk, roster, Finmap.lookup_insert_of_ne _ hk]
    rfl

theorem roster_erase (m : ActiveGames) (id : UInt32) :
    roster (m.erase id) = Function.update (roster m) id none := by
  funext k
  by_cases hk : k = id
  · subst hk
    rw [Function.update_self, roster, Finmap.lookup_erase]
    rfl
  · rw [Function.update_of_ne hk, roster, Finmap.lookup_erase_ne hk]
    rfl

theorem roster_of_lookup (hg : m.lookup id = some g) : roster m id = g.players := by
  rw [roster, hg]
  rfl

/-- A game with the same players in the place of another. -/
theorem roster_insert_of_players (hg : m.lookup id = some g) (h : g'.players = g.players) :
    roster (m.insert id g') = roster m := by
  rw [roster_insert, h, ← roster_of_lookup hg, Function.update_eq_self]

theorem GameState.players_of_row (h : g.pawnRow ≠ []) :
    g.players = some (g.playerAId, g.secondPlayer) := if_neg h

theorem GameState.players_open (h : tmpl.pawnRow ≠ []) (p : UInt32) (now : UInt64) :
    (tmpl.open p now).players = some (p, none) := GameState.players_of_row h

theorem GameState.players_unfinished (tmpl : GameState) (p : UInt32) :
    (tmpl.unfinished p).players = none := rfl

/-- The second player takes the free seat, if the game has its row. -/
theorem GameState.players_seat (g : GameState) (p : UInt32) (now : UInt64) :
    (g.seat p now).players = g.players.map fun players => (players.1, some p) := by
  by_cases hrow : g.pawnRow = []
  · have hseat : (g.seat p now).pawnRow = [] := hrow
    rw [GameState.players, if_pos hseat, GameState.players, if_pos hrow]
    rfl
  · have hseat : (g.seat p now).pawnRow ≠ [] := hrow
    rw [GameState.players_of_row hseat, GameState.players_of_row hrow]
    rfl

theorem GameState.players_afterMove {pawns : List UInt8} (hw : g.status ≠ waitingForOpponent) :
    (g.afterMove pawns now).players = g.players := by
  have hlength : (g.afterMove pawns now).pawnRow.length = g.pawnRow.length := length_clearPawns _ _
  have hrow : (g.afterMove pawns now).pawnRow = [] ↔ g.pawnRow = [] := by
    rw [← List.length_eq_zero_iff, hlength, List.length_eq_zero_iff]
  unfold GameState.players
  rw [if_congr hrow rfl rfl, GameState.secondPlayer_afterMove hw pawns now]
  rfl

theorem GameState.players_afterGiveUp (hw : g.status ≠ waitingForOpponent) (p : UInt32) :
    (g.afterGiveUp p now).players = g.players := by
  unfold GameState.players
  rw [GameState.secondPlayer_afterGiveUp hw p now]
  rfl

end Roster

/-! ## One step -/

section Step

variable {srv : Server} {tmpl : GameState} {now : UInt64} {alloc : Allocation} {d : Datagram}
  {s s' : ServerState} {l : Label} {out : Output}

/-- A sweep prints what it erases, as it erases it. -/
theorem replay_removeTimedOutGames (now timeoutMs : UInt64) (order : List Entry) :
    ∀ m : ActiveGames, replay (roster m) (removeTimedOutGames now timeoutMs order m).2 =
      roster (removeTimedOutGames now timeoutMs order m).1 := by
  induction order with
  | nil => intro m; rfl
  | cons e rest ih =>
      intro m
      unfold removeTimedOutGames
      by_cases hexp : now - e.2.lastActivity > timeoutMs
      · rw [if_pos hexp]
        have hrest := ih (m.erase e.1)
        rw [roster_erase] at hrest
        exact hrest
      · rw [if_neg hexp]
        exact ih m

/-- A handling prints what becomes of the players. -/
theorem Handling.journal (h : Handling tmpl now alloc d s s' out) (htmpl : tmpl.pawnRow ≠ []) :
    replay (roster s.activeGames) out.log = roster s'.activeGames := by
  cases h with
  | malformed _ => rfl
  | notFound _ _ _ => rfl
  | seated id g _ hg _ =>
      rw [roster_insert, GameState.players_seat, ← roster_of_lookup hg]
      rfl
  | full _ _ _ => rfl
  | unallocated _ _ _ _ _ _ => rfl
  | unfinished id _ _ _ hid _ =>
      -- the entry is not told of, and has no players in the roster
      have hfree : roster s.activeGames id = none := by
        rw [roster, Finmap.lookup_eq_none.2 hid.notMem]
        rfl
      rw [roster_insert, GameState.players_unfinished, ← hfree, Function.update_eq_self]
      rfl
  | created id _ _ _ _ _ =>
      rw [roster_insert, GameState.players_open htmpl]
      rfl
  | refused _ _ _ _ _ => rfl
  | moved g _ hg hturn _ _ =>
      exact (roster_insert_of_players hg (GameState.players_afterMove hturn.not_waiting)).symm
  | gaveUp g _ hg hturn =>
      exact (roster_insert_of_players hg (GameState.players_afterGiveUp hturn.not_waiting _)).symm
  | keptAlive g _ hg _ =>
      have htouch : (g.touch now).players = g.players := rfl
      exact (roster_insert_of_players hg htouch).symm

theorem Server.pawnRow_ne_nil (srv : Server) : srv.template.pawnRow ≠ [] := by
  have hfits := srv.isBoardOf.fits
  rw [← List.length_pos_iff, hfits]
  exact Nat.succ_pos _

/-- **One step** prints what becomes of the players. -/
theorem Step.journal (h : Step srv s l s') :
    replay (roster s.activeGames) l.output.log = roster s'.activeGames := by
  obtain ⟨event, out⟩ := l
  cases event with
  | sweep now =>
      obtain ⟨order, -, rfl, rfl⟩ := h
      exact replay_removeTimedOutGames now srv.timeoutMs order s.activeGames
  | datagram now alloc d => exact (Handles.handling h).journal srv.pawnRow_ne_nil

end Step

/-- **The journal is exact.** In every run of the server, whatever allocations fail: who plays in
    which game is what the lines printed so far say, but for games whose row could not be copied, of
    which they say nothing. -/
theorem journal_exact (srv : Server) {tr : List Transition} {s : ServerState}
    (hrun : LTS.Run (Step srv) .initial tr s) : replay .empty (printed tr) = roster s.activeGames :=
  LTS.Run.replay (fun s : ServerState => roster s.activeGames) LogLine.apply
    (fun l : Label => l.output.log) (fun _ _ _ hstep => hstep.journal) hrun

/-- Two players join on a server that has just started. -/
theorem journal_exact_started : ∃ tr,
    LTS.Run (Step threePawns) .initial tr (started threePawns 7 9 0) ∧ joins tr = [7, 9] ∧
    replay .empty (printed tr) = roster (started threePawns 7 9 0).activeGames := by
  obtain ⟨tr, hrun, hjoins, -⟩ := exists_run_joins threePawns (show (7 : UInt32) ≠ 0 by decide)
    (show (9 : UInt32) ≠ 0 by decide) 0
  have hsteps : LTS.Run (Step threePawns) .initial tr (started threePawns 7 9 0) :=
    hrun.mono fun _ _ _ hst => hst.2
  exact ⟨tr, hsteps, hjoins, journal_exact threePawns hsteps⟩

end Kayles
