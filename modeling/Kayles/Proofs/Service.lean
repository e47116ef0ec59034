import Kayles.Proofs.Matchmaking
import Kayles.Proofs.Moves
import Kayles.Proofs.Network
import Kayles.Spec.Service

set_option autoImplicit false

/-! # The server as a service of sessions

`ServerState.service` is the view of the server's memory in which every game is a session with its
players. Every completed step of the server is a step of the service (`server_refines_service`): the
handling of a well-formed message answers a request, and the first reply is displayed as the response;
a sweep closes sessions; what is refused for its bytes alone, or for want of room, is no step. -/

namespace Kayles

open Session (Side Phase)

/-! ## The view -/

/-- A game as a session with its players. -/
def GameState.toGame (g : GameState) : Service.Game UInt32 ℕ where
  playerA := g.playerAId
  playerB := g.secondPlayer
  session := g.session

/-- The active games, each as a session with its players. -/
def ServerState.service (s : ServerState) : Service.State UInt32 UInt32 ℕ :=
  fun id => (s.activeGames.lookup id).map GameState.toGame

/-- The pawns of a new game. -/
def Server.board (srv : Server) : Finset ℕ := srv.template.session.standing

/-- The request that a message of type `t` with these fields is. -/
def serviceRequest (t : UInt8) (p id : UInt32) (i : UInt8) : Service.Request UInt32 UInt32 ℕ :=
  match t.toNat with
  | 0 => .join p
  | 1 => .move p id {i.toNat}
  | 2 => .move p id {i.toNat, i.toNat + 1}
  | 3 => .keepAlive p id
  | _ => .giveUp p id

/-- The request that a well-formed datagram is. -/
def Datagram.request (d : Datagram) : Service.Request UInt32 UInt32 ℕ :=
  serviceRequest d.msgType d.playerId d.gameId d.pawnIdx

/-- The bytes of a datagram that a MSG_WRONG_MSG echoes, filled up with zeros. -/
def Datagram.echo (d : Datagram) : Bytes :=
  d.buf.take (min d.len 12) ++ List.replicate (12 - min d.len 12) 0

/-- What a client is to print of a response, on a server with `maxPawn`. -/
def render (maxPawn : UInt8) (echo : Bytes) : Service.Response UInt32 UInt32 ℕ → Display
  | .game id g => .gameState id g.playerA (g.playerB.getD 0) (statusOf g.session.phase) maxPawn
      ((List.range (maxPawn.toNat + 1)).map fun i =>
        if i ∈ g.session.standing then pawnStanding else pawnKnockedDown)
  | .noGame => .wrongMessage echo errorIdxGame
  | .stranger => .wrongMessage echo errorIdxPlayer

/-- A client prints `D` for the first of the replies, whatever else its buffer holds. -/
def FirstDisplays (sent : List Bytes) (D : Display) : Prop :=
  ∃ reply rest, sent = reply :: rest ∧ ∀ recvBuffer : Bytes, recvBuffer.length = bufferSize →
    reply <+: recvBuffer → receiveAndDisplayMessage recvBuffer (.received reply.length) = .ok D

/-- What a step of the server is to the service, from the state `s` on: a sweep closes sessions, and
    a datagram is answered as the request that it is. It is no step if it is malformed, and reported
    as such, or if it is a JOIN that finds neither a game to wait in nor room for another one. -/
inductive Realises (srv : Server) (s : ServerState) :
    Label → Option (Service.Label UInt32 UInt32 ℕ) → Prop
  | close (now : UInt64) (out : Output) : Realises srv s ⟨.sweep now, out⟩ (some .close)
  | malformed (now : UInt64) (alloc : Allocation) (d : Datagram) (out : Output)
      (hwf : ¬ d.WellFormed) (hsent : out.sent = [d.wrongMessage d.errorIndex]) :
      Realises srv s ⟨.datagram now alloc d, out⟩ none
  | full (now : UInt64) (alloc : Allocation) (d : Datagram) (out : Output) (hj : d.IsJoin)
      (hnone : s.NoneWaiting) (hfull : ¬ s.HasRoom) (hsent : out.sent = []) :
      Realises srv s ⟨.datagram now alloc d, out⟩ none
  | answer (now : UInt64) (alloc : Allocation) (d : Datagram) (out : Output)
      (response : Service.Response UInt32 UInt32 ℕ) (hwf : d.WellFormed)
      (hdisplays : FirstDisplays out.sent (render srv.template.maxPawn d.echo response)) :
      Realises srv s ⟨.datagram now alloc d, out⟩ (some (.answer d.request response))

/-! ## One game -/

section Game

variable {srv : Server} {s : ServerState} {id p : UInt32} {g g' : GameState} {d : Datagram}
  {now : UInt64}

theorem service_of_lookup (hg : s.activeGames.lookup id = some g) :
    s.service id = some g.toGame := by
  rw [ServerState.service, hg]
  rfl

theorem service_of_none (hg : s.activeGames.lookup id = none) : s.service id = none := by
  rw [ServerState.service, hg]
  rfl

theorem service_eq_some {a : Service.Game UInt32 ℕ} (h : s.service id = some a) :
    ∃ g, s.activeGames.lookup id = some g ∧ g.toGame = a :=
  Option.map_eq_some_iff.1 h

theorem service_insert (m : ActiveGames) (next next' id : UInt32) (g : GameState) :
    (ServerState.mk (m.insert id g) next').service =
      Function.update (ServerState.mk m next).service id (some g.toGame) := by
  funext k
  by_cases hk : k = id
  · subst hk
    rw [Function.update_self]
    exact service_of_lookup (Finmap.lookup_insert _)
  · rw [Function.update_of_ne hk, ServerState.service, Finmap.lookup_insert_of_ne _ hk]
    rfl

theorem phaseOf_eq_waiting {status : UInt8} (h : status ∈ statuses) :
    phaseOf status = .waiting ↔ status = waitingForOpponent := by
  constructor
  · intro hphase
    exact eq_of_phaseOf h (by decide) hphase
  · rintro rfl
    rfl

theorem noneWaiting_service (hs : Reachable srv s) :
    Service.NoneWaiting s.service ↔ s.NoneWaiting := by
  constructor
  · intro h id g hg hw
    exact h id _ (service_of_lookup hg) ((phaseOf_eq_waiting (hs.entryInv hg).status).2 hw)
  · intro h id a ha hphase
    obtain ⟨g, hg, rfl⟩ := service_eq_some ha
    exact h id g hg ((phaseOf_eq_waiting (hs.entryInv hg).status).1 hphase)

theorem EntryInv.secondPlayer_getD (h : EntryInv srv.template id g) :
    g.secondPlayer.getD 0 = g.playerBId := by
  by_cases hw : g.status = waitingForOpponent
  · rw [GameState.secondPlayer_of_waiting hw, h.playerB.2 hw]
    rfl
  · rw [GameState.secondPlayer_of_not hw]
    rfl

/-- The players of a game are the players of the session, since no message is from player 0. -/
theorem plays_iff (h : EntryInv srv.template id g) (hp : p ≠ 0) :
    g.toGame.Plays p ↔ g.Registered p := by
  have hb : g.secondPlayer = some p ↔ g.playerBId = p := by
    by_cases hw : g.status = waitingForOpponent
    · rw [GameState.secondPlayer_of_waiting hw, h.playerB.2 hw]
      exact ⟨fun hno => absurd hno (by simp), fun hz => absurd hz.symm hp⟩
    · rw [GameState.secondPlayer_of_not hw, Option.some_inj]
  constructor
  · intro hplays
    obtain ⟨side, hside⟩ := hplays
    cases side with
    | a => exact .inl (Option.some.inj hside)
    | b => exact .inr (hb.1 hside)
  · intro hreg
    rcases hreg with ha | hb'
    · exact ⟨.a, congrArg some ha⟩
    · exact ⟨.b, hb.2 hb'⟩

theorem onTurn_toGame (h : g.OnTurn p) : g.toGame.OnTurn p := by
  rcases GameState.onTurn_iff.1 h with ⟨hp, hstatus⟩ | ⟨hp, hstatus⟩
  · refine ⟨.a, ?_, congrArg some hp.symm⟩
    show phaseOf g.status = .turn .a
    rw [hstatus]
    rfl
  · refine ⟨.b, ?_, ?_⟩
    · show phaseOf g.status = .turn .b
      rw [hstatus]
      rfl
    · show g.secondPlayer = some p
      rw [GameState.secondPlayer_of_not h.not_waiting, hp]

theorem onTurn_of_toGame (hstatus : g.status ∈ statuses) (h : g.toGame.OnTurn p) : g.OnTurn p := by
  obtain ⟨side, hphase, hplayer⟩ := h
  have hphase' : phaseOf g.status = .turn side := hphase
  have hstatus' : g.status = statusOf (.turn side) := by rw [← hphase', statusOf_phaseOf hstatus]
  rw [GameState.onTurn_iff]
  cases side with
  | a => exact .inl ⟨(Option.some.inj hplayer).symm, hstatus'⟩
  | b =>
      have hw : g.status ≠ waitingForOpponent := by
        rw [hstatus']
        decide
      have hb : g.secondPlayer = some p := hplayer
      rw [GameState.secondPlayer_of_not hw] at hb
      exact .inr ⟨(Option.some.inj hb).symm, hstatus'⟩

/-- A move changes nothing of a game but its session. -/
theorem toGame_afterMove (h : g.OnTurn p) (pawns : List UInt8) (now : UInt64) :
    (g.afterMove pawns now).toGame =
      { g.toGame with session := (g.afterMove pawns now).session } := by
  rw [GameState.toGame, GameState.secondPlayer_afterMove h.not_waiting pawns now]
  rfl

theorem toGame_afterGiveUp (h : g.OnTurn p) (now : UInt64) :
    (g.afterGiveUp p now).toGame = { g.toGame with session := (g.afterGiveUp p now).session } := by
  rw [GameState.toGame, GameState.secondPlayer_afterGiveUp h.not_waiting p now]
  rfl

/-- On fewer than 256 pawns the pawns that stand are below 255. -/
theorem EntryInv.le_maxPawn (h : EntryInv srv.template id g) (hrow : srv.pawnRow.length ≠ 256) {i : ℕ}
    (hi : i ∈ g.session.standing) : i ≤ g.maxPawn.toNat ∧ g.maxPawn.toNat < 255 := by
  have hlen := (isValidPawnRow_iff.1 srv.valid).2.1
  have hmax := srv.isBoardOf.maxPawn_eq
  rw [h.maxPawn]
  exact ⟨srv.standing_le (h.standing i (GameState.mem_standing.1 hi)), by omega⟩

/-- Where a board has fewer than 256 pawns, the handler's moves are the requested ones. -/
theorem EntryInv.legal_iff (h : EntryInv srv.template id g) (hrow : srv.pawnRow.length ≠ 256)
    (hmove : d.IsMove) : g.Legal d.movePawns ↔ d.namedPawns.toFinset ⊆ g.session.standing := by
  have hrules : g.Legal d.movePawns ↔ g.LegalByRules d := by
    rw [Kayles.legal_iff hmove]
    refine or_iff_left fun hwraps => ?_
    obtain ⟨hle, hlt⟩ := h.le_maxPawn hrow (GameState.mem_standing.2 hwraps.last)
    omega
  rw [hrules]
  constructor
  · intro hlegal i hi
    exact GameState.mem_standing.2 (hlegal i (List.mem_toFinset.1 hi)).2
  · intro hsub i hi
    have hstand := GameState.mem_standing.1 (hsub (List.mem_toFinset.2 hi))
    exact ⟨(h.le_maxPawn hrow (GameState.mem_standing.2 hstand)).1, hstand⟩

theorem GameState.Legal.pawnSet_subset {pawns : List UInt8} (h : g.Legal pawns) :
    pawnSet pawns ⊆ g.session.standing := by
  intro i hi
  obtain ⟨j, hj, rfl⟩ := List.mem_map.1 (mem_pawnSet.1 hi)
  exact GameState.mem_standing.2 (h j hj).2

theorem EntryInv.pawnSet_movePawns (h : EntryInv srv.template id g)
    (hrow : srv.pawnRow.length ≠ 256) (hsub : pawnSet d.movePawns ⊆ g.session.standing) :
    pawnSet d.movePawns = d.namedPawns.toFinset := by
  have hmem : d.pawnIdx.toNat ∈ pawnSet d.movePawns := by
    rw [mem_pawnSet]
    unfold Datagram.movePawns
    split <;> simp
  obtain ⟨hle, hlt⟩ := h.le_maxPawn hrow (hsub hmem)
  have hpawn : d.pawnIdx ≠ 255 := by
    intro hpawn
    rw [hpawn] at hle
    exact absurd (Nat.lt_of_le_of_lt hle hlt) (by decide)
  rw [pawnSet, map_movePawns (.inr hpawn)]

end Game

/-! ## One message -/

section Request

variable {d : Datagram}

theorem request_of_join (h : d.IsJoin) : d.request = .join d.playerId := by
  rw [Datagram.request, h.2]
  rfl

theorem request_of_move (h : d.IsMove) :
    d.request = .move d.playerId d.gameId d.namedPawns.toFinset := by
  unfold Datagram.request Datagram.namedPawns
  rcases h.2 with ht | ht
  · rw [ht]
    rfl
  · rw [ht, if_neg (by decide), List.toFinset_cons, List.toFinset_cons]
    rfl

theorem request_of_keepAlive (h : d.IsKeepAlive) : d.request = .keepAlive d.playerId d.gameId := by
  rw [Datagram.request, h.2]
  rfl

theorem request_of_giveUp (h : d.IsGiveUp) : d.request = .giveUp d.playerId d.gameId := by
  rw [Datagram.request, h.2]
  rfl

theorem about_request (hwf : d.WellFormed) (ht : d.msgType ≠ 0) :
    d.request.about = some (d.playerId, d.gameId) := by
  rcases hwf.named ht with hmove | hgive | hkeep
  · rw [request_of_move hmove]
    rfl
  · rw [request_of_giveUp hgive]
    rfl
  · rw [request_of_keepAlive hkeep]
    rfl

end Request

section Displays

variable {srv : Server} {id : UInt32} {g : GameState} {d : Datagram}

theorem GameInv.render_toGame (h : GameInv srv.template id g) (echo : Bytes) :
    render srv.template.maxPawn echo (.game id g.toGame) = g.display id := by
  have hboard : ((List.range (g.maxPawn.toNat + 1)).map fun i =>
      if i ∈ g.session.standing then pawnStanding else pawnKnockedDown) = g.boardString :=
    List.map_congr_left fun i _ => if_congr GameState.mem_standing rfl rfl
  have hb : g.toGame.playerB.getD 0 = g.playerBId := h.secondPlayer_getD
  have hstatus : statusOf g.toGame.session.phase = g.status := statusOf_phaseOf h.status
  rw [render, ← h.maxPawn, hb, hstatus]
  exact congrArg (Display.gameState id g.playerAId g.playerBId g.status g.maxPawn) hboard

theorem GameInv.firstDisplays (h : GameInv srv.template id g) (echo : Bytes) :
    FirstDisplays [gameStateMessage g id] (render srv.template.maxPawn echo (.game id g.toGame)) := by
  refine ⟨_, [], rfl, fun recvBuffer hbuffer hbegins => ?_⟩
  have hsent : GameDisplayed id g := gameDisplayed_of_fits h.status h.fits
  obtain ⟨m, hm, -, hdisplayed⟩ := hsent
  obtain rfl : gameStateMessage g id = m := Except.ok.inj ((sendGameState_eq g id).symm.trans hm)
  obtain ⟨board, hboard, -⟩ := hdisplayed recvBuffer hbuffer hbegins
  rw [h.render_toGame, ← display_of_gameState h hbuffer hbegins hboard]
  exact hboard

theorem firstDisplays_wrongMessage (d : Datagram) (e : UInt8) (rest : List Bytes) :
    FirstDisplays (d.wrongMessage e :: rest) (.wrongMessage d.echo e) := by
  refine ⟨_, rest, rfl, fun recvBuffer hbuffer hbegins => ?_⟩
  obtain ⟨m, hm, -, hdisplayed⟩ := wrongDisplayed d e
  obtain rfl : d.wrongMessage e = m := Except.ok.inj ((handleWrongMessage_eq d e).symm.trans hm)
  exact hdisplayed recvBuffer hbuffer hbegins

end Displays

/-! ## One step -/

section Step

variable {srv : Server} {s s' : ServerState} {l : Label} {now : UInt64} {alloc : Allocation}
  {d : Datagram} {out : Output} {id : UInt32} {g : GameState}

/-- A sweep closes the sessions of the games that it erases. -/
theorem Sweeps.closes (h : Sweeps srv now s s' out) :
    Service.Step srv.board s.service .close s'.service := by
  refine .close fun id => ?_
  cases hg : s'.activeGames.lookup id with
  | none => exact .inr (service_of_none hg)
  | some g =>
      obtain ⟨hold, -⟩ := h.lookup_eq_some.1 hg
      exact .inl ((service_of_lookup hg).trans (service_of_lookup hold).symm)

/-! ## The answers

Each kind of handling as an answer of the service. -/

theorem answer_notFound (hs : Reachable srv s) (hwf : d.WellFormed) (ht : d.msgType ≠ 0)
    (hfails : s.LookupFails d) :
    ∃ response, Service.Answer srv.board s.service d.request s.service response ∧
      render srv.template.maxPawn d.echo response = .wrongMessage d.echo (s.lookupErrorIndex d) := by
  have habout := about_request hwf ht
  cases hg : s.activeGames.lookup d.gameId with
  | none =>
      have hindex : s.lookupErrorIndex d = errorIdxGame := if_neg (Finmap.lookup_eq_none.1 hg)
      exact ⟨.noGame, .noGame habout (service_of_none hg), by rw [hindex, render]⟩
  | some g =>
      have hindex : s.lookupErrorIndex d = errorIdxPlayer :=
        if_pos (Finmap.mem_of_lookup_eq_some hg)
      have hno : ¬ g.toGame.Plays d.playerId :=
        fun hplays => hfails g hg ((plays_iff (hs.entryInv hg) hwf.player).1 hplays)
      exact ⟨.stranger, .stranger habout (service_of_lookup hg) hno, by rw [hindex, render]⟩

theorem answer_seated (hs : Reachable srv s) (hj : d.IsJoin) (hg : s.activeGames.lookup id = some g)
    (hw : g.status = waitingForOpponent) (now : UInt64) :
    Service.Answer srv.board s.service d.request
      (ServerState.mk (s.activeGames.insert id (g.seat d.playerId now)) s.nextGameId).service
      (.game id (g.seat d.playerId now).toGame) := by
  have hphase : g.toGame.session.phase = .waiting :=
    (phaseOf_eq_waiting (hs.entryInv hg).status).2 hw
  rw [request_of_join hj, service_insert s.activeGames s.nextGameId]
  exact .seated (service_of_lookup hg) (.seat hphase) rfl rfl

theorem answer_created (hs : Reachable srv s) (hj : d.IsJoin) (hnone : s.NoneWaiting)
    (hid : s.FreeId id) (now : UInt64) (next : UInt32) :
    Service.Answer srv.board s.service d.request
      (ServerState.mk (s.activeGames.insert id (srv.template.open d.playerId now)) next).service
      (.game id (srv.template.open d.playerId now).toGame) := by
  have hfree : s.service id = none := service_of_none (Finmap.lookup_eq_none.2 hid.notMem)
  rw [request_of_join hj, service_insert s.activeGames s.nextGameId]
  exact .opened ((noneWaiting_service hs).2 hnone) hfree

theorem answer_refused (hs : ReachableCompleted srv s) (hrow : srv.pawnRow.length ≠ 256)
    (hty : d.IsMove ∨ d.IsGiveUp) (hg : s.activeGames.lookup d.gameId = some g)
    (hreg : g.Registered d.playerId)
    (hno : ¬ (g.OnTurn d.playerId ∧ (d.IsMove → g.Legal d.movePawns))) :
    Service.Answer srv.board s.service d.request s.service (.game d.gameId g.toGame) := by
  have hinv := hs.gameInv hg
  have hp : d.playerId ≠ 0 := hty.elim (fun h => h.1.player) fun h => h.1.player
  have hplays := (plays_iff hinv.toEntryInv hp).2 hreg
  rcases hty with hmove | hgive
  · rw [request_of_move hmove]
    refine .refusedMove (service_of_lookup hg) hplays ?_
    rintro ⟨hturn, a, hstep⟩
    refine hno ⟨onTurn_of_toGame hinv.status hturn, fun _ => ?_⟩
    cases hstep with
    | move _ _ hsub => exact (hinv.legal_iff hrow hmove).2 hsub
  · rw [request_of_giveUp hgive]
    refine .refusedGiveUp (service_of_lookup hg) hplays fun hturn => ?_
    exact hno ⟨onTurn_of_toGame hinv.status hturn, fun hmove => absurd hmove hgive.not_move⟩

theorem answer_moved (hs : ReachableCompleted srv s) (hrow : srv.pawnRow.length ≠ 256)
    (hmove : d.IsMove) (hg : s.activeGames.lookup d.gameId = some g) (hturn : g.OnTurn d.playerId)
    (hlegal : g.Legal d.movePawns) (now : UInt64) :
    Service.Answer srv.board s.service d.request
      (ServerState.mk (s.activeGames.insert d.gameId (g.afterMove d.movePawns now))
        s.nextGameId).service
      (.game d.gameId (g.afterMove d.movePawns now).toGame) := by
  have hinv := hs.gameInv hg
  have hstep : Session.Step g.session (.move (pawnSet d.movePawns))
      (g.afterMove d.movePawns now).session :=
    hinv.session_afterMove hturn d.movePawns_ne_nil hlegal
  rw [hinv.pawnSet_movePawns hrow hlegal.pawnSet_subset] at hstep
  rw [request_of_move hmove, service_insert s.activeGames s.nextGameId,
    toGame_afterMove hturn d.movePawns now]
  exact .moved (service_of_lookup hg) (onTurn_toGame hturn) hstep

theorem answer_gaveUp (hgive : d.IsGiveUp) (hg : s.activeGames.lookup d.gameId = some g)
    (hturn : g.OnTurn d.playerId) (now : UInt64) :
    Service.Answer srv.board s.service d.request
      (ServerState.mk (s.activeGames.insert d.gameId (g.afterGiveUp d.playerId now))
        s.nextGameId).service
      (.game d.gameId (g.afterGiveUp d.playerId now).toGame) := by
  rw [request_of_giveUp hgive, service_insert s.activeGames s.nextGameId,
    toGame_afterGiveUp hturn now]
  refine .gaveUp (service_of_lookup hg) (onTurn_toGame hturn) ?_ (session_afterGiveUp hturn)
  by_cases ha : g.playerAId = d.playerId
  · rw [if_pos ha]
    exact congrArg some ha
  · rw [if_neg ha]
    have hb : g.playerBId = d.playerId := hturn.registered.resolve_left ha
    exact (GameState.secondPlayer_of_not hturn.not_waiting).trans (congrArg some hb)

theorem answer_keptAlive (hs : Reachable srv s) (hkeep : d.IsKeepAlive)
    (hg : s.activeGames.lookup d.gameId = some g) (hreg : g.Registered d.playerId) (now : UInt64) :
    Service.Answer srv.board s.service d.request
      (ServerState.mk (s.activeGames.insert d.gameId (g.touch now)) s.nextGameId).service
      (.game d.gameId (g.touch now).toGame) := by
  have hplays := (plays_iff (hs.entryInv hg) hkeep.1.player).2 hreg
  have hsame : (g.touch now).toGame = g.toGame := rfl
  rw [request_of_keepAlive hkeep, service_insert s.activeGames s.nextGameId, hsame,
    ← service_of_lookup hg, Function.update_eq_self]
  exact .kept (service_of_lookup hg) hplays

/-- The step from `s` to `s'` is the answer of the service to the request that `d` is, and a client
    displays the first reply as the response. -/
def AnswersRequest (srv : Server) (d : Datagram) (s s' : ServerState) (sent : List Bytes) : Prop :=
  ∃ response, Service.Answer srv.board s.service d.request s'.service response ∧
    FirstDisplays sent (render srv.template.maxPawn d.echo response)

/-- An answer with a game is displayed as that game. -/
theorem answersRequest_of_game (hs' : ReachableCompleted srv s')
    (hg : s'.activeGames.lookup id = some g)
    (h : Service.Answer srv.board s.service d.request s'.service (.game id g.toGame)) :
    AnswersRequest srv d s s' [gameStateMessage g id] :=
  ⟨_, h, (hs'.gameInv hg).firstDisplays d.echo⟩

/-- **The handling of a well-formed message** answers its request, unless it is a JOIN that finds no
    game to wait in, and the server is full. -/
theorem Handling.answers (hs : ReachableCompleted srv s) (hrow : srv.pawnRow.length ≠ 256)
    (halloc : alloc.Succeeds) (hwf : d.WellFormed) (h : Handling srv.template now alloc d s s' out) :
    (d.IsJoin ∧ s.NoneWaiting ∧ ¬ s.HasRoom ∧ out.sent = [] ∧ s' = s) ∨
      AnswersRequest srv d s s' out.sent := by
  have hs' : ReachableCompleted srv s' := hs.handling halloc h
  cases h with
  | malformed hbad => exact absurd hwf hbad
  | notFound _ ht hfails =>
      obtain ⟨response, hanswer, hrender⟩ := answer_notFound hs.reachable hwf ht hfails
      exact .inr ⟨response, hanswer, hrender ▸ firstDisplays_wrongMessage d _ _⟩
  | seated id g hj hg hw =>
      exact .inr (answersRequest_of_game hs' (Finmap.lookup_insert _)
        (answer_seated hs.reachable hj hg hw now))
  | full hj hnone hfull => exact .inl ⟨hj, hnone, hfull, rfl, rfl⟩
  | unallocated id _ _ _ _ hfail => simp [halloc.1, halloc.2.1] at hfail
  | unfinished id _ _ _ _ hfail => simp [halloc.2.2] at hfail
  | created id hj hnone _ hid _ =>
      exact .inr (answersRequest_of_game hs' (Finmap.lookup_insert _)
        (answer_created hs.reachable hj hnone hid now _))
  | refused g hty hg hreg hno =>
      exact .inr (answersRequest_of_game hs' hg (answer_refused hs hrow hty hg hreg hno))
  | moved g hmove hg hturn hlegal _ =>
      exact .inr (answersRequest_of_game hs' (Finmap.lookup_insert _)
        (answer_moved hs hrow hmove hg hturn hlegal now))
  | gaveUp g hgive hg hturn =>
      exact .inr (answersRequest_of_game hs' (Finmap.lookup_insert _)
        (answer_gaveUp hgive hg hturn now))
  | keptAlive g hkeep hg hreg =>
      exact .inr (answersRequest_of_game hs' (Finmap.lookup_insert _)
        (answer_keptAlive hs.reachable hkeep hg hreg now))

/-- What is malformed is reported, and does nothing. -/
theorem Handling.of_malformed {tmpl : GameState} (h : Handling tmpl now alloc d s s' out)
    (hwf : ¬ d.WellFormed) : s' = s ∧ out.sent = [d.wrongMessage d.errorIndex] := by
  cases h with
  | malformed _ => exact ⟨rfl, rfl⟩
  | notFound h' _ _ => exact absurd h' hwf
  | seated _ _ hj _ _ => exact absurd hj.1 hwf
  | full hj _ _ => exact absurd hj.1 hwf
  | unallocated _ hj _ _ _ _ => exact absurd hj.1 hwf
  | unfinished _ hj _ _ _ _ => exact absurd hj.1 hwf
  | created _ hj _ _ _ _ => exact absurd hj.1 hwf
  | refused _ hty _ _ _ => exact absurd (hty.elim (fun h => h.1) fun h => h.1) hwf
  | moved _ hm _ _ _ _ => exact absurd hm.1 hwf
  | gaveUp _ hu _ _ => exact absurd hu.1 hwf
  | keptAlive _ hk _ _ => exact absurd hk.1 hwf

/-- **One step** of the server is a step of the service, or none. -/
theorem CompletedStep.realises (hs : ReachableCompleted srv s) (hrow : srv.pawnRow.length ≠ 256)
    (h : CompletedStep srv s l s') :
    ∃ o, LTS.Stutters (Service.Step srv.board) s.service o s'.service ∧ Realises srv s l o := by
  obtain ⟨event, out⟩ := l
  obtain ⟨halloc, hstep⟩ := h
  cases event with
  | sweep now => exact ⟨some .close, Sweeps.closes hstep, .close now out⟩
  | datagram now alloc d =>
      have hhandling := Handles.handling hstep
      by_cases hwf : d.WellFormed
      · rcases hhandling.answers hs hrow halloc hwf with
          ⟨hj, hnone, hfull, hsent, rfl⟩ | ⟨response, hanswer, hdisplays⟩
        · exact ⟨none, rfl, .full now alloc d out hj hnone hfull hsent⟩
        · exact ⟨some _, .answer hanswer, .answer now alloc d out response hwf hdisplays⟩
      · obtain ⟨rfl, hsent⟩ := hhandling.of_malformed hwf
        exact ⟨none, rfl, .malformed now alloc d out hwf hsent⟩

end Step

/-- **The server refines the service.** On fewer than 256 pawns, every run of the server in which no
    allocation fails is a run of the service of sessions on its row: message by message it answers
    the requests as the service does, and what a client displays of its first reply is the response.
    Only a malformed message, which is reported, and a JOIN without a game to wait in and without
    room for one are no step. -/
theorem server_refines_service (srv : Server) (hrow : srv.pawnRow.length ≠ 256)
    {tr : List Transition} {s : ServerState}
    (hrun : LTS.Run (CompletedStep srv) .initial tr s) :
    ∃ atr acts, LTS.Run (Service.Step srv.board) (fun _ => none) atr s.service ∧
      atr.map LTS.Transition.label = acts.reduceOption ∧
      List.Forall₂ (fun t o => Realises srv t.pre t.label o) tr acts := by
  let R (s : ServerState) (a : Service.State UInt32 UInt32 ℕ) : Prop :=
    ReachableCompleted srv s ∧ a = s.service
  have hsim : ∀ s l s' a, R s a → CompletedStep srv s l s' → ∃ o a', R s' a' ∧
      LTS.Stutters (Service.Step srv.board) a o a' ∧ Realises srv s l o := by
    rintro s l s' a ⟨hs, rfl⟩ hstep
    obtain ⟨o, hmatched, hreal⟩ := hstep.realises hs hrow
    exact ⟨o, _, ⟨hs.snoc hstep, rfl⟩, hmatched, hreal⟩
  obtain ⟨atr, a, acts, hatr, ⟨-, rfl⟩, hlabels, hall⟩ :=
    hrun.simulate_matched (M := fun t o => Realises srv t.pre t.label o) hsim
      ⟨LTS.Reachable.refl, rfl⟩
  exact ⟨atr, acts, hatr, hlabels, hall⟩

/-- Two players join on a server that has just started. -/
theorem server_refines_service_started : ∃ tr atr acts, joins tr = [7, 9] ∧
    LTS.Run (Service.Step threePawns.board) (fun _ => none) atr (started threePawns 7 9 0).service ∧
    atr.map LTS.Transition.label = acts.reduceOption ∧
    List.Forall₂ (fun t o => Realises threePawns t.pre t.label o) tr acts := by
  obtain ⟨tr, hrun, hjoins, -⟩ := exists_run_joins threePawns (show (7 : UInt32) ≠ 0 by decide)
    (show (9 : UInt32) ≠ 0 by decide) 0
  obtain ⟨atr, acts, hatr, hlabels, hall⟩ := server_refines_service threePawns (by decide) hrun
  exact ⟨tr, atr, acts, hjoins, hatr, hlabels, hall⟩

end Kayles
