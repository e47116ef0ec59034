import Kayles.Proofs.Messages

set_option autoImplicit false

/-! # What a handling can do

`decodeAndVerifyMessage` reduced, check by check, to the result of the branch the datagram takes, and
from it `Handling`: one constructor for each way a handling completes, with everything that branch
has checked. The proofs about the server are case analyses over `Handling`; none of them unfolds a
handler again. -/

namespace Kayles

/-! ## The actions on a game -/

/-- The legality of a move by the source's own test of each pawn. -/
def GameState.Legal (g : GameState) (pawns : List UInt8) : Prop :=
  ∀ i ∈ pawns, i.toNat ≤ g.maxPawn.toNat ∧ g.Standing i.toNat

instance (g : GameState) (pawns : List UInt8) : Decidable (g.Legal pawns) :=
  inferInstanceAs (Decidable (∀ i ∈ pawns, i.toNat ≤ g.maxPawn.toNat ∧ g.Standing i.toNat))

theorem GameState.legal_singleton {g : GameState} {i : UInt8} :
    g.Legal [i] ↔ i.toNat ≤ g.maxPawn.toNat ∧ g.Standing i.toNat :=
  List.forall_mem_singleton

theorem GameState.Legal.lt_length {g : GameState} {pawns : List UInt8} (h : g.Legal pawns) :
    ∀ i ∈ pawns, i.toNat / 8 < g.pawnRow.length :=
  fun i hi => PackedBits.lt_of_bitAt (h i hi).2

/-- `p` is the player whose turn it is. -/
def GameState.OnTurn (g : GameState) (p : UInt32) : Prop := isValidTurn g p = true

instance (g : GameState) (p : UInt32) : Decidable (g.OnTurn p) :=
  inferInstanceAs (Decidable (isValidTurn g p = true))

theorem GameState.onTurn_iff {g : GameState} {p : UInt32} :
    g.OnTurn p ↔ (p = g.playerAId ∧ g.status = turnA) ∨ (p = g.playerBId ∧ g.status = turnB) := by
  unfold GameState.OnTurn isValidTurn
  rw [Bool.or_eq_true, Bool.and_eq_true, Bool.and_eq_true, beq_iff_eq, beq_iff_eq, beq_iff_eq,
    beq_iff_eq, eq_comm (a := p), eq_comm (a := p)]

theorem areLegalMoves_eq_ok {g : GameState} {pawns : List UInt8} {b : Bool}
    (h : areLegalMoves g pawns = .ok b) : b = true ↔ g.Legal pawns := by
  induction pawns generalizing b with
  | nil =>
      obtain rfl : true = b := by simpa [areLegalMoves] using h
      simp [GameState.Legal]
  | cons i rest ih =>
      have hiff : isLegalMove g i.toUInt32 = .ok true ↔
          i.toNat ≤ g.maxPawn.toNat ∧ g.Standing i.toNat := by
        rw [isLegalMove_eq_true, UInt8.toNat_toUInt32]
      have hcons : g.Legal (i :: rest) ↔
          (i.toNat ≤ g.maxPawn.toNat ∧ g.Standing i.toNat) ∧ g.Legal rest := by
        simp [GameState.Legal]
      rw [hcons, ← hiff]
      cases hi : isLegalMove g i.toUInt32 with
      | error e => simp [areLegalMoves, hi, bind, Except.bind] at h
      | ok legal =>
          cases legal with
          | false =>
              obtain rfl : false = b := by
                simpa [areLegalMoves, hi, bind, Except.bind, pure, Except.pure] using h
              simp
          | true =>
              have hrest : areLegalMoves g rest = .ok b := by
                simpa [areLegalMoves, hi, bind, Except.bind] using h
              simpa using ih hrest

theorem areLegalMoves_of_legal {g : GameState} {pawns : List UInt8} (h : g.Legal pawns) :
    areLegalMoves g pawns = .ok true := by
  induction pawns with
  | nil => rfl
  | cons i rest ih =>
      have hi : isLegalMove g i.toUInt32 = .ok true := by
        rw [isLegalMove_eq_true, UInt8.toNat_toUInt32]
        exact h i List.mem_cons_self
      have hrest := ih fun j hj => h j (List.mem_cons_of_mem _ hj)
      simp [areLegalMoves, hi, hrest, bind, Except.bind]

theorem areLegalMoves_of_fits {g : GameState} (hfit : g.RowFits) (pawns : List UInt8) :
    ∃ b, areLegalMoves g pawns = .ok b := by
  induction pawns with
  | nil => exact ⟨true, rfl⟩
  | cons i rest ih =>
      obtain ⟨b, hb⟩ := ih
      rw [areLegalMoves, isLegalMove_of_fits hfit]
      simp only [bind, Except.bind, hb]
      split
      · exact ⟨_, rfl⟩
      · exact ⟨_, rfl⟩

/-- The game a move leaves when it is carried out and the handler returns. -/
def GameState.afterMove (g : GameState) (pawns : List UInt8) (now : UInt64) : GameState :=
  { g.knock pawns with status := (g.knock pawns).statusAfterMove, lastActivity := now }

/-- `verify_game_state_after_move` returns on `g`. -/
def GameState.MoveEnds (g : GameState) : Prop :=
  ∃ fuel status, verifyGameStateAfterMove fuel g = .ok status

theorem GameState.RowFits.moveEnds {g : GameState} (h : g.RowFits)
    (hends : g.AnyStanding ∨ g.maxPawn ≠ 255) : g.MoveEnds :=
  ⟨257, _, verify_of_fits h hends (Nat.le_refl _)⟩

/-- Out of turn or illegal: the game is left as it is. -/
theorem makeMove_eq_none {env : Env} {pawns : List UInt8} {p : UInt32} {g : GameState}
    (h : makeMove env pawns p g = .ok none) : ¬ (g.OnTurn p ∧ g.Legal pawns) := by
  intro h
  obtain ⟨hturn, hlegal⟩ := h
  rw [makeMove, hturn, areLegalMoves_of_legal hlegal, knockPawnsDown_of_lt hlegal.lt_length] at h
  cases hv : verifyGameStateAfterMove env.fuel (g.knock pawns) <;>
    simp [hv, bind, Except.bind, pure, Except.pure] at h

/-- Carried out: on turn, legal, and the game is the one the move leaves. -/
theorem makeMove_eq_some {env : Env} {pawns : List UInt8} {p : UInt32} {g g' : GameState}
    (h : makeMove env pawns p g = .ok (some g')) :
    g.OnTurn p ∧ g.Legal pawns ∧ (g.knock pawns).MoveEnds ∧ g' = g.afterMove pawns env.now := by
  rw [makeMove] at h
  by_cases hturn : isValidTurn g p = true
  · simp only [hturn, Bool.not_true, Bool.false_eq_true, if_false] at h
    cases hlegal : areLegalMoves g pawns with
    | error e => simp [hlegal, bind, Except.bind] at h
    | ok b =>
        cases b with
        | false => simp [hlegal, bind, Except.bind, pure, Except.pure] at h
        | true =>
            have hl := (areLegalMoves_eq_ok hlegal).1 rfl
            rw [hlegal, knockPawnsDown_of_lt hl.lt_length] at h
            cases hv : verifyGameStateAfterMove env.fuel (g.knock pawns) with
            | error e => simp [hv, bind, Except.bind] at h
            | ok status =>
                simp only [hv, bind, Except.bind, pure, Except.pure, Bool.not_true,
                  Bool.false_eq_true, if_false, Except.ok.injEq, Option.some.injEq] at h
                exact ⟨hturn, hl, ⟨_, _, hv⟩, by rw [← h, verify_eq_ok hv]; rfl⟩
  · simp [hturn] at h

theorem makeMove_of_not {env : Env} {pawns : List UInt8} {p : UInt32} {g : GameState}
    (hfit : g.RowFits) (h : ¬ (g.OnTurn p ∧ g.Legal pawns)) :
    makeMove env pawns p g = .ok none := by
  rw [makeMove]
  by_cases hturn : isValidTurn g p = true
  · obtain ⟨b, hb⟩ := areLegalMoves_of_fits hfit pawns
    have hiff := areLegalMoves_eq_ok hb
    obtain rfl : b = false := Bool.eq_false_of_not_eq_true fun ht => h ⟨hturn, hiff.1 ht⟩
    simp [hturn, hb, bind, Except.bind, pure, Except.pure]
  · simp [hturn]

/-- An accepted move is as good as its last step. -/
theorem makeMove_of_accepted {env : Env} {pawns : List UInt8} {p : UInt32} {g : GameState}
    (hturn : g.OnTurn p) (hlegal : g.Legal pawns) :
    makeMove env pawns p g = (verifyGameStateAfterMove env.fuel (g.knock pawns)).map fun status =>
      some { g.knock pawns with status := status, lastActivity := env.now } := by
  rw [makeMove, hturn, areLegalMoves_of_legal hlegal, knockPawnsDown_of_lt hlegal.lt_length]
  rfl

/-- The game a GIVE_UP of `p` leaves. -/
def GameState.afterGiveUp (g : GameState) (p : UInt32) (now : UInt64) : GameState :=
  { g with status := if g.playerAId = p then winB else winA, lastActivity := now }

/-- The game a KEEP_ALIVE leaves. -/
def GameState.touch (g : GameState) (now : UInt64) : GameState := { g with lastActivity := now }

/-- What the handler of a message that names a game does with it. -/
def gameAction (env : Env) (d : Datagram) (g : GameState) : Except Fault (Option GameState) :=
  if d.msgType = 1 ∨ d.msgType = 2 then makeMove env d.movePawns d.playerId g
  else if d.msgType = 3 then .ok (some (g.touch env.now))
  else if g.OnTurn d.playerId then .ok (some (g.afterGiveUp d.playerId env.now))
  else .ok none

/-! ## The branches of the dispatcher -/

/-- `p` is one of the players of `g`. -/
def GameState.Registered (g : GameState) (p : UInt32) : Prop := g.playerAId = p ∨ g.playerBId = p

instance (g : GameState) (p : UInt32) : Decidable (g.Registered p) :=
  inferInstanceAs (Decidable (_ ∨ _))

theorem GameState.OnTurn.registered {g : GameState} {p : UInt32} (h : g.OnTurn p) :
    g.Registered p := by
  rcases GameState.onTurn_iff.1 h with ⟨rfl, _⟩ | ⟨rfl, _⟩
  · exact .inl rfl
  · exact .inr rfl

theorem checkLengthAndPlayer_eq (d : Datagram) (size : ℕ) (s : ServerState)
    (handle : UInt32 → Except Fault (ServerState × Output)) :
    checkLengthAndPlayer size d.buf d.len s handle =
      if d.len ≠ size then .ok (s, { sent := [d.wrongMessage (UInt8.ofNat (min d.len size))] })
      else if d.playerId = 0 then .ok (s, { sent := [d.wrongMessage 1] })
      else handle d.playerId := by
  have hmin : (if d.len < size then d.len else size) = min d.len size := by
    rw [Nat.min_def]
    split <;> split <;> omega
  have hplayer : readU32 d.buf offPlayerId = .ok d.playerId := d.readU32_buf (by decide)
  unfold checkLengthAndPlayer
  rw [hmin, hplayer]
  simp only [handleWrongMessage_eq, bind, Except.bind, pure, Except.pure]
  rfl

theorem findGameAndVerifyPlayers_eq (d : Datagram) (gameId p : UInt32) (m : ActiveGames) :
    findGameAndVerifyPlayers gameId p d.buf d.len m =
      match m.lookup gameId with
      | none => .ok (none, [d.wrongMessage 5])
      | some g => if g.Registered p then .ok (some g, []) else .ok (none, [d.wrongMessage 1]) := by
  unfold findGameAndVerifyPlayers
  rw [handleWrongMessage_eq, handleWrongMessage_eq]
  cases m.lookup gameId with
  | none => rfl
  | some g =>
      by_cases hreg : g.Registered p
      · have hne : ¬ (g.playerAId ≠ p ∧ g.playerBId ≠ p) := fun h => hreg.elim h.1 h.2
        simp [hreg, hne]
      · have hne : g.playerAId ≠ p ∧ g.playerBId ≠ p :=
          ⟨fun h => hreg (.inl h), fun h => hreg (.inr h)⟩
        simp [hreg, hne, bind, Except.bind, pure, Except.pure]

/-- The end of a handler of an existing game: the map and the reply for what the action answered. -/
def gameReply (s : ServerState) (d : Datagram) (g : GameState) :
    Option GameState → ServerState × Output
  | none => (s, { sent := [gameStateMessage g d.gameId] })
  | some g' => ({ s with activeGames := s.activeGames.insert d.gameId g' },
      { sent := [gameStateMessage g' d.gameId] })

/-- What a well-formed message that names a game leads to. -/
def handleNamed (d : Datagram) (s : ServerState)
    (act : GameState → Except Fault (Option GameState)) : Except Fault (ServerState × Output) :=
  match s.activeGames.lookup d.gameId with
  | none => .ok (s, { sent := [d.wrongMessage 5, d.wrongMessage 5] })
  | some g =>
    if g.Registered d.playerId then (act g).map (gameReply s d g)
    else .ok (s, { sent := [d.wrongMessage 1, d.wrongMessage 5] })

theorem handleGameMessage_eq {φ : Type} (d : Datagram) (size : ℕ) (s : ServerState)
    {fields : Bytes → Except Fault φ} {message : φ}
    {act : φ → UInt32 → GameState → Except Fault (Option GameState)}
    (hfields : fields d.buf = .ok message) (hlen : d.len = size) (hp : d.playerId ≠ 0) :
    handleGameMessage size fields act d.buf d.len s = handleNamed d s (act message d.playerId) := by
  have hgame : readU32 d.buf offGameId = .ok d.gameId := d.readU32_buf (by decide)
  rw [handleGameMessage, checkLengthAndPlayer_eq, if_neg (not_not.2 hlen), if_neg hp, hgame, hfields]
  simp only [bind, Except.bind]
  rw [findGameAndVerifyPlayers_eq, handleWrongMessage_eq, handleNamed]
  cases s.activeGames.lookup d.gameId with
  | none => rfl
  | some g =>
      by_cases hreg : g.Registered d.playerId
      · simp only [hreg, if_true]
        cases act message d.playerId g with
        | error e => rfl
        | ok r =>
            cases r with
            | none => simp only [sendGameState_eq]; rfl
            | some g' => simp only [sendGameState_eq]; rfl
      · simp only [hreg, if_false]
        rfl

theorem toNat_of_le_four {t : UInt8} (h : t ≤ 4) : t = 0 ∨ t = 1 ∨ t = 2 ∨ t = 3 ∨ t = 4 := by
  have hle : t.toNat ≤ 4 := UInt8.le_iff_toNat_le.1 h
  have hcases : t.toNat = 0 ∨ t.toNat = 1 ∨ t.toNat = 2 ∨ t.toNat = 3 ∨ t.toNat = 4 := by omega
  simpa only [← UInt8.toNat_inj, UInt8.reduceToNat] using hcases

section Decode

variable (env : Env) (tmpl : GameState) (s : ServerState) {d : Datagram}

theorem decode_of_unknown (h : ¬ d.Known) :
    decodeAndVerifyMessage env tmpl d.buf d.len s = .ok (s, { sent := [d.wrongMessage 0] }) := by
  rw [decodeAndVerifyMessage, handleWrongMessage_eq]
  by_cases hlen : d.len = 0
  · simp [hlen, bind, Except.bind, pure, Except.pure]
  · have htype : ¬ d.msgType ≤ 4 := fun ht => h ⟨hlen, ht⟩
    have hnone : handlers d.msgType = none := by
      have hlt : 4 < d.msgType.toNat := by
        rw [UInt8.le_iff_toNat_le] at htype
        exact Nat.lt_of_not_le htype
      unfold handlers
      split <;> first | rfl | omega
    have hload : loadByte d.buf 0 = .ok d.msgType := d.loadByte_buf (by decide)
    simp [hlen, hload, hnone, bind, Except.bind, pure, Except.pure]

theorem decode_of_known (h : d.Known) :
    ∃ handler, handlers d.msgType = some handler ∧
      decodeAndVerifyMessage env tmpl d.buf d.len s = handler env tmpl d.buf d.len s := by
  have hload : loadByte d.buf 0 = .ok d.msgType := d.loadByte_buf (by decide)
  have hsome : ∃ handler, handlers d.msgType = some handler := by
    rcases toNat_of_le_four h.2 with ht | ht | ht | ht | ht <;> rw [ht] <;> exact ⟨_, rfl⟩
  obtain ⟨handler, hhandler⟩ := hsome
  refine ⟨handler, hhandler, ?_⟩
  simp [decodeAndVerifyMessage, h.1, hload, hhandler, bind, Except.bind]

/-- Every handler begins with the same two checks, each with the size of its own type. -/
theorem handlers_check (h : d.Known) : ∃ handle,
    decodeAndVerifyMessage env tmpl d.buf d.len s =
      checkLengthAndPlayer (Datagram.messageSize d.msgType) d.buf d.len s handle := by
  obtain ⟨handler, hhandler, hdecode⟩ := decode_of_known env tmpl s h
  rw [hdecode]
  rcases toNat_of_le_four h.2 with ht | ht | ht | ht | ht <;> rw [ht] at hhandler ⊢ <;>
    obtain rfl := Option.some.inj hhandler <;> exact ⟨_, rfl⟩

theorem decode_of_length (h : d.Known) (hlen : d.len ≠ Datagram.messageSize d.msgType) :
    decodeAndVerifyMessage env tmpl d.buf d.len s =
      .ok (s, { sent :=
        [d.wrongMessage (UInt8.ofNat (min d.len (Datagram.messageSize d.msgType)))] }) := by
  obtain ⟨handle, hdecode⟩ := handlers_check env tmpl s h
  rw [hdecode, checkLengthAndPlayer_eq, if_pos hlen]

theorem decode_of_player (h : d.Known) (hlen : d.len = Datagram.messageSize d.msgType)
    (hp : d.playerId = 0) :
    decodeAndVerifyMessage env tmpl d.buf d.len s = .ok (s, { sent := [d.wrongMessage 1] }) := by
  obtain ⟨handle, hdecode⟩ := handlers_check env tmpl s h
  rw [hdecode, checkLengthAndPlayer_eq, if_neg (not_not.2 hlen), if_pos hp]

theorem decode_of_malformed (h : ¬ d.WellFormed) :
    decodeAndVerifyMessage env tmpl d.buf d.len s =
      .ok (s, { sent := [d.wrongMessage d.errorIndex] }) := by
  unfold Datagram.errorIndex
  by_cases hknown : d.Known
  · rw [if_neg (not_not.2 hknown)]
    by_cases hlen : d.len = Datagram.messageSize d.msgType
    · have hp : d.playerId = 0 := by_contra fun hp => h ⟨hknown, hlen, hp⟩
      rw [if_neg (not_not.2 hlen)]
      exact decode_of_player env tmpl s hknown hlen hp
    · rw [if_pos hlen]
      exact decode_of_length env tmpl s hknown hlen
  · rw [if_pos hknown]
    exact decode_of_unknown env tmpl s hknown

/-- **A message that names a game**, of any of the four types. -/
theorem decode_of_named (h : d.WellFormed) (ht : d.msgType ≠ 0) :
    decodeAndVerifyMessage env tmpl d.buf d.len s = handleNamed d s (gameAction env d) := by
  obtain ⟨handler, hhandler, hdecode⟩ := decode_of_known env tmpl s h.known
  have hlen := h.len_eq
  have hpawn : loadByte d.buf offPawnIdx = .ok d.pawnIdx := d.loadByte_buf (by decide)
  have hunit : (fun _ => .ok () : Bytes → Except Fault Unit) d.buf = .ok () := rfl
  rw [hdecode]
  rcases toNat_of_le_four h.known.2 with h0 | h1 | h2 | h3 | h4
  · exact absurd h0 ht
  · rw [h1] at hhandler hlen
    obtain rfl := Option.some.inj hhandler
    refine (handleGameMessage_eq d _ s hpawn hlen h.player).trans ?_
    congr 1
    funext g
    simp [gameAction, h1, Datagram.movePawns]
  · rw [h2] at hhandler hlen
    obtain rfl := Option.some.inj hhandler
    refine (handleGameMessage_eq d _ s hpawn hlen h.player).trans ?_
    congr 1
    funext g
    simp [gameAction, h2, Datagram.movePawns]
  · rw [h3] at hhandler hlen
    obtain rfl := Option.some.inj hhandler
    refine (handleGameMessage_eq d _ s hunit hlen h.player).trans ?_
    congr 1
    funext g
    simp [gameAction, h3, GameState.touch]
  · rw [h4] at hhandler hlen
    obtain rfl := Option.some.inj hhandler
    refine (handleGameMessage_eq d _ s hunit hlen h.player).trans ?_
    congr 1
    funext g
    by_cases hturn : isValidTurn g d.playerId = true <;>
      simp [gameAction, h4, GameState.OnTurn, GameState.afterGiveUp, hturn]

/-! ## Joining -/

/-- The game as its second player finds it. -/
def GameState.seat (g : GameState) (p : UInt32) (now : UInt64) : GameState :=
  { g with playerBId := p, status := turnB, lastActivity := now }

/-- The game a JOIN of `p` creates. -/
def GameState.open (tmpl : GameState) (p : UInt32) (now : UInt64) : GameState :=
  { tmpl with playerAId := p, playerBId := 0, status := waitingForOpponent, lastActivity := now }

/-- The entry that stays behind when copying the row of the new game fails. -/
def GameState.unfinished (tmpl : GameState) (p : UInt32) : GameState :=
  { valueInitialised with
    playerAId := p, playerBId := 0, status := waitingForOpponent, maxPawn := tmpl.maxPawn }

/-- The creation branch once the id is found. -/
def createReply (env : Env) (tmpl : GameState) (d : Datagram) (s : ServerState) (id : UInt32) :
    ServerState × Output :=
  if env.alloc.templateCopy = false ∨ env.alloc.mapNode = false then
    ({ s with nextGameId := advanceGameId id }, {})
  else if env.alloc.rowCopy = false then
    ({ activeGames := s.activeGames.insert id (tmpl.unfinished d.playerId),
       nextGameId := advanceGameId id }, {})
  else
    ({ activeGames := s.activeGames.insert id (tmpl.open d.playerId env.now),
       nextGameId := advanceGameId id },
      { sent := [gameStateMessage (tmpl.open d.playerId env.now) id],
        log := [.created id d.playerId] })

/-- What a well-formed JOIN leads to. -/
def joinReply (env : Env) (tmpl : GameState) (d : Datagram) (s : ServerState) :
    Except Fault (ServerState × Output) :=
  match findWaitingGame env.order with
  | some ⟨id, g⟩ =>
    .ok ({ s with activeGames := s.activeGames.insert id (g.seat d.playerId env.now) },
      { sent := [gameStateMessage (g.seat d.playerId env.now) id],
        log := [.joined d.playerId id] })
  | none =>
    if s.activeGames.keys.card ≥ uint32Max.toNat - 1 then .ok (s, {})
    else (findFreeId env.fuel s.activeGames s.nextGameId).map (createReply env tmpl d s)

theorem createGame_eq (p : UInt32) :
    createGame env tmpl p s = (findFreeId env.fuel s.activeGames s.nextGameId).map fun id =>
      if env.alloc.templateCopy = false ∨ env.alloc.mapNode = false then
        ({ s with nextGameId := advanceGameId id }, none)
      else if env.alloc.rowCopy = false then
        ({ activeGames := s.activeGames.insert id (tmpl.unfinished p),
           nextGameId := advanceGameId id }, none)
      else
        ({ activeGames := s.activeGames.insert id (tmpl.open p env.now),
           nextGameId := advanceGameId id }, some id) := by
  unfold createGame
  cases findFreeId env.fuel s.activeGames s.nextGameId with
  | error e => rfl
  | ok id =>
      cases ht : env.alloc.templateCopy <;> cases hm : env.alloc.mapNode <;>
        cases hr : env.alloc.rowCopy <;> rfl

/-- **A JOIN**, seated in the waiting game found or in a new one. -/
theorem decode_of_join (h : d.IsJoin) :
    decodeAndVerifyMessage env tmpl d.buf d.len s = joinReply env tmpl d s := by
  obtain ⟨handler, hhandler, hdecode⟩ :=
    decode_of_known env tmpl s h.1.known
  have hlen : d.len = joinSize := by
    rw [h.1.len_eq, h.2]
    rfl
  rw [h.2] at hhandler
  obtain rfl := Option.some.inj hhandler
  rw [hdecode, handleJoinGame, checkLengthAndPlayer_eq, if_neg (not_not.2 hlen),
    if_neg h.1.player, joinReply]
  cases findWaitingGame env.order with
  | some e =>
      simp only [sendGameState_eq]
      rfl
  | none =>
      simp only
      split
      · rfl
      · rw [createGame_eq]
        cases findFreeId env.fuel s.activeGames s.nextGameId with
        | error e => rfl
        | ok id =>
            simp only [Except.map, bind, Except.bind, createReply]
            split_ifs
            · rfl
            · rfl
            · simp only [Finmap.lookup_insert, sendGameState_eq]
              rfl

theorem findFreeIdTurn_eq (m : ActiveGames) (id : UInt32) :
    findFreeIdTurn m id = .ok (if id ∈ m then .inl (advanceGameId id) else .inr id) := by
  unfold findFreeIdTurn
  split <;> rfl

theorem advanceGameId_ne_zero (id : UInt32) : advanceGameId id ≠ 0 := by
  unfold advanceGameId
  by_cases h : id = uint32Max
  · rw [if_pos h]
    decide
  · rw [if_neg h]
    intro hzero
    apply h
    have hlt := id.toNat_lt
    rw [← UInt32.toNat_inj, UInt32.toNat_add, UInt32.toNat_one, UInt32.toNat_zero] at hzero
    rw [← UInt32.toNat_inj]
    show id.toNat = 4294967295
    omega

/-- The search of a new JOIN can return `id`. -/
def ServerState.FreeId (s : ServerState) (id : UInt32) : Prop :=
  ∃ fuel, findFreeId fuel s.activeGames s.nextGameId = .ok id

theorem ServerState.FreeId.notMem {s : ServerState} {id : UInt32} (h : s.FreeId id) :
    id ∉ s.activeGames := by
  obtain ⟨fuel, hfree⟩ := h
  refine Loop.run_post (fun _ => True) (fun id => id ∉ s.activeGames) (fun _ _ _ _ => trivial) ?_
    fuel s.nextGameId id trivial hfree
  intro id id' _ hturn
  rw [findFreeIdTurn_eq] at hturn
  split at hturn
  · simp at hturn
  · next hout =>
      obtain rfl : id = id' := by simpa using hturn
      exact hout

theorem ServerState.FreeId.ne_zero {s : ServerState} {id : UInt32} (h : s.FreeId id)
    (hs : s.nextGameId ≠ 0) : id ≠ 0 := by
  obtain ⟨fuel, hfree⟩ := h
  refine Loop.run_post (fun id => id ≠ 0) (fun id => id ≠ 0) ?_ ?_ fuel s.nextGameId id hs hfree
  · intro id id' _ hturn
    rw [findFreeIdTurn_eq] at hturn
    split at hturn
    · obtain rfl : advanceGameId id = id' := by simpa using hturn
      exact advanceGameId_ne_zero id
    · simp at hturn
  · intro id id' hid hturn
    rw [findFreeIdTurn_eq] at hturn
    split at hturn
    · simp at hturn
    · obtain rfl : id = id' := by simpa using hturn
      exact hid

end Decode

/-! ## The ways a handling completes -/

/-- No game waits for its second player. -/
def ServerState.NoneWaiting (s : ServerState) : Prop :=
  ∀ id g, s.activeGames.lookup id = some g → g.status ≠ waitingForOpponent

/-- The lookup of a message that names a game fails: no such game, or a stranger to it. -/
def ServerState.LookupFails (s : ServerState) (d : Datagram) : Prop :=
  ∀ g, s.activeGames.lookup d.gameId = some g → ¬ g.Registered d.playerId

/-- The size of the map leaves room for another game. -/
def ServerState.HasRoom (s : ServerState) : Prop :=
  s.activeGames.keys.card < uint32Max.toNat - 1

instance (s : ServerState) : Decidable s.HasRoom := inferInstanceAs (Decidable (_ < _))

/-- The index in the reply of `find_game_and_verify_players`. -/
def ServerState.lookupErrorIndex (s : ServerState) (d : Datagram) : UInt8 :=
  if d.gameId ∈ s.activeGames then errorIdxPlayer else errorIdxGame

/-- A completed handling, by the branch it took. -/
inductive Handling (tmpl : GameState) (now : UInt64) (alloc : Allocation) (d : Datagram)
    (s : ServerState) : ServerState → Output → Prop
  | malformed (h : ¬ d.WellFormed) :
      Handling tmpl now alloc d s s { sent := [d.wrongMessage d.errorIndex] }
  | notFound (h : d.WellFormed) (ht : d.msgType ≠ 0) (hs : s.LookupFails d) :
      Handling tmpl now alloc d s s
        { sent := [d.wrongMessage (s.lookupErrorIndex d), d.wrongMessage 5] }
  | seated (id : UInt32) (g : GameState) (h : d.IsJoin) (hg : s.activeGames.lookup id = some g)
      (hw : g.status = waitingForOpponent) :
      Handling tmpl now alloc d s
        { s with activeGames := s.activeGames.insert id (g.seat d.playerId now) }
        { sent := [gameStateMessage (g.seat d.playerId now) id], log := [.joined d.playerId id] }
  | full (h : d.IsJoin) (hw : s.NoneWaiting) (hfull : ¬ s.HasRoom) :
      Handling tmpl now alloc d s s {}
  | unallocated (id : UInt32) (h : d.IsJoin) (hw : s.NoneWaiting) (hroom : s.HasRoom)
      (hid : s.FreeId id) (halloc : alloc.templateCopy = false ∨ alloc.mapNode = false) :
      Handling tmpl now alloc d s { s with nextGameId := advanceGameId id } {}
  | unfinished (id : UInt32) (h : d.IsJoin) (hw : s.NoneWaiting) (hroom : s.HasRoom)
      (hid : s.FreeId id)
      (halloc : alloc.templateCopy = true ∧ alloc.mapNode = true ∧ alloc.rowCopy = false) :
      Handling tmpl now alloc d s
        { activeGames := s.activeGames.insert id (tmpl.unfinished d.playerId),
          nextGameId := advanceGameId id } {}
  | created (id : UInt32) (h : d.IsJoin) (hw : s.NoneWaiting) (hroom : s.HasRoom)
      (hid : s.FreeId id) (halloc : alloc.Succeeds) :
      Handling tmpl now alloc d s
        { activeGames := s.activeGames.insert id (tmpl.open d.playerId now),
          nextGameId := advanceGameId id }
        { sent := [gameStateMessage (tmpl.open d.playerId now) id],
          log := [.created id d.playerId] }
  | refused (g : GameState) (h : d.IsMove ∨ d.IsGiveUp)
      (hg : s.activeGames.lookup d.gameId = some g) (hreg : g.Registered d.playerId)
      (hno : ¬ (g.OnTurn d.playerId ∧ (d.IsMove → g.Legal d.movePawns))) :
      Handling tmpl now alloc d s s { sent := [gameStateMessage g d.gameId] }
  | moved (g : GameState) (h : d.IsMove) (hg : s.activeGames.lookup d.gameId = some g)
      (hturn : g.OnTurn d.playerId) (hlegal : g.Legal d.movePawns)
      (hends : (g.knock d.movePawns).MoveEnds) :
      Handling tmpl now alloc d s
        { s with activeGames := s.activeGames.insert d.gameId (g.afterMove d.movePawns now) }
        { sent := [gameStateMessage (g.afterMove d.movePawns now) d.gameId] }
  | gaveUp (g : GameState) (h : d.IsGiveUp) (hg : s.activeGames.lookup d.gameId = some g)
      (hturn : g.OnTurn d.playerId) :
      Handling tmpl now alloc d s
        { s with activeGames := s.activeGames.insert d.gameId (g.afterGiveUp d.playerId now) }
        { sent := [gameStateMessage (g.afterGiveUp d.playerId now) d.gameId] }
  | keptAlive (g : GameState) (h : d.IsKeepAlive) (hg : s.activeGames.lookup d.gameId = some g)
      (hreg : g.Registered d.playerId) :
      Handling tmpl now alloc d s
        { s with activeGames := s.activeGames.insert d.gameId (g.touch now) }
        { sent := [gameStateMessage (g.touch now) d.gameId] }

/-- Nobody waits before the first JOIN. -/
theorem noneWaiting_initial : ServerState.initial.NoneWaiting := by
  intro id g hg
  simp [ServerState.initial] at hg

section Join

variable {env : Env} {tmpl : GameState} {s : ServerState} {d : Datagram} {id : UInt32}
  {order : List Entry}

theorem findWaitingGame_of_noneWaiting (hw : s.NoneWaiting)
    (horder : Finmap.IsTraversal order s.activeGames) : findWaitingGame order = none :=
  horder.find?_eq_none.2 fun id g hg => by simpa using hw id g hg

/-- A JOIN that finds neither a waiting game nor room. -/
theorem joinReply_of_full (hw : s.NoneWaiting) (hfull : ¬ s.HasRoom)
    (horder : Finmap.IsTraversal env.order s.activeGames) :
    joinReply env tmpl d s = .ok (s, {}) := by
  simp only [joinReply, findWaitingGame_of_noneWaiting hw horder]
  exact if_pos (Nat.not_lt.1 hfull)

/-- A JOIN that reaches the search for an id. -/
theorem joinReply_of_search (hw : s.NoneWaiting) (hroom : s.HasRoom)
    (horder : Finmap.IsTraversal env.order s.activeGames)
    (hid : findFreeId env.fuel s.activeGames s.nextGameId = .ok id) :
    joinReply env tmpl d s = .ok (createReply env tmpl d s id) := by
  simp only [joinReply, findWaitingGame_of_noneWaiting hw horder, hid]
  rw [if_neg (Nat.not_le.2 hroom)]
  rfl

theorem createReply_of_succeeds (halloc : env.alloc.Succeeds) : createReply env tmpl d s id =
      ({ activeGames := s.activeGames.insert id (tmpl.open d.playerId env.now),
         nextGameId := advanceGameId id },
        { sent := [gameStateMessage (tmpl.open d.playerId env.now) id],
          log := [.created id d.playerId] }) := by
  obtain ⟨htempl, hnode, hrow⟩ := halloc
  simp [createReply, htempl, hnode, hrow]

/-- Where an allocation fails before the map is touched, the map is not touched. -/
theorem createReply_of_unallocated
    (halloc : env.alloc.templateCopy = false ∨ env.alloc.mapNode = false) :
    createReply env tmpl d s id = ({ s with nextGameId := advanceGameId id }, {}) := by
  rw [createReply, if_pos halloc]

/-- Where only the copy of the row fails, the entry it was meant for is in the map. -/
theorem createReply_of_unfinished (htempl : env.alloc.templateCopy = true)
    (hnode : env.alloc.mapNode = true) (hrow : env.alloc.rowCopy = false) :
    createReply env tmpl d s id =
      ({ activeGames := s.activeGames.insert id (tmpl.unfinished d.playerId),
         nextGameId := advanceGameId id }, {}) := by
  simp [createReply, htempl, hnode, hrow]

end Join

section Handling

theorem exists_of_not_lookupFails {s : ServerState} {d : Datagram} (h : ¬ s.LookupFails d) :
    ∃ g, s.activeGames.lookup d.gameId = some g ∧ g.Registered d.playerId := by
  unfold ServerState.LookupFails at h
  push Not at h
  exact h

theorem handleNamed_of_fails {s : ServerState} {d : Datagram}
    {act : GameState → Except Fault (Option GameState)} (h : s.LookupFails d) :
    handleNamed d s act =
      .ok (s, { sent := [d.wrongMessage (s.lookupErrorIndex d), d.wrongMessage 5] }) := by
  unfold handleNamed ServerState.lookupErrorIndex
  cases hg : s.activeGames.lookup d.gameId with
  | none => rw [if_neg (Finmap.lookup_eq_none.1 hg)]
  | some g =>
      rw [if_pos (Finmap.mem_of_lookup_eq_some hg)]
      exact if_neg (h g hg)

theorem handleNamed_of_lookup {s : ServerState} {d : Datagram} {g : GameState}
    {act : GameState → Except Fault (Option GameState)}
    (hg : s.activeGames.lookup d.gameId = some g) (hreg : g.Registered d.playerId) :
    handleNamed d s act = (act g).map (gameReply s d g) := by
  simp only [handleNamed, hg]
  exact if_pos hreg

/-- The types of a message that names a game. -/
theorem Datagram.WellFormed.named {d : Datagram} (h : d.WellFormed) (ht : d.msgType ≠ 0) :
    d.IsMove ∨ d.IsGiveUp ∨ d.IsKeepAlive := by
  rcases toNat_of_le_four h.known.2 with h0 | h1 | h2 | h3 | h4
  · exact absurd h0 ht
  · exact .inl ⟨h, .inl h1⟩
  · exact .inl ⟨h, .inr h2⟩
  · exact .inr (.inr ⟨h, h3⟩)
  · exact .inr (.inl ⟨h, h4⟩)

theorem gameAction_of_move {env : Env} {d : Datagram} {g : GameState} (h : d.IsMove) :
    gameAction env d g = makeMove env d.movePawns d.playerId g := if_pos h.2

theorem gameAction_of_giveUp {env : Env} {d : Datagram} {g : GameState} (h : d.IsGiveUp) :
    gameAction env d g =
      if g.OnTurn d.playerId then .ok (some (g.afterGiveUp d.playerId env.now)) else .ok none := by
  simp [gameAction, h.2]

theorem gameAction_of_keepAlive {env : Env} {d : Datagram} {g : GameState} (h : d.IsKeepAlive) :
    gameAction env d g = .ok (some (g.touch env.now)) := by
  simp [gameAction, h.2]

theorem Datagram.IsMove.type_ne {d : Datagram} (h : d.IsMove) : d.msgType ≠ 0 := by
  rcases h.2 with ht | ht <;> rw [ht] <;> decide

theorem Datagram.IsGiveUp.type_ne {d : Datagram} (h : d.IsGiveUp) : d.msgType ≠ 0 := by
  rw [h.2]
  decide

theorem Datagram.IsKeepAlive.type_ne {d : Datagram} (h : d.IsKeepAlive) : d.msgType ≠ 0 := by
  rw [h.2]
  decide

theorem Datagram.IsGiveUp.not_move {d : Datagram} (h : d.IsGiveUp) : ¬ d.IsMove := by
  rintro ⟨-, ht | ht⟩ <;> rw [h.2] at ht <;> exact absurd ht (by decide)

theorem Datagram.IsKeepAlive.not_move {d : Datagram} (h : d.IsKeepAlive) : ¬ d.IsMove := by
  rintro ⟨-, ht | ht⟩ <;> rw [h.2] at ht <;> exact absurd ht (by decide)

theorem Datagram.IsKeepAlive.not_giveUp {d : Datagram} (h : d.IsKeepAlive) : ¬ d.IsGiveUp := by
  intro h
  obtain ⟨-, ht⟩ := h
  rw [h.2] at ht
  exact absurd ht (by decide)

variable {env : Env} {tmpl : GameState} {s s' : ServerState} {d : Datagram} {out : Output}

theorem handling_of_join (h : d.IsJoin) (horder : Finmap.IsTraversal env.order s.activeGames)
    (hjoin : joinReply env tmpl d s = .ok (s', out)) :
    Handling tmpl env.now env.alloc d s s' out := by
  unfold joinReply findWaitingGame at hjoin
  cases hfind : env.order.find? fun e => e.2.status == waitingForOpponent with
  | some e =>
      obtain ⟨id, g⟩ := e
      obtain ⟨hg, hw⟩ := horder.of_find?_eq_some hfind
      simp only [hfind, Except.ok.injEq, Prod.mk.injEq] at hjoin
      obtain ⟨rfl, rfl⟩ := hjoin
      exact .seated id g h hg (beq_iff_eq.1 hw)
  | none =>
      have hw : s.NoneWaiting := by
        intro id g hg
        simpa using horder.find?_eq_none.1 hfind id g hg
      simp only [hfind] at hjoin
      split at hjoin
      · next hfull =>
          simp only [Except.ok.injEq, Prod.mk.injEq] at hjoin
          obtain ⟨rfl, rfl⟩ := hjoin
          exact .full h hw (Nat.not_lt.2 hfull)
      · next hroom =>
          have hroom : s.HasRoom := Nat.lt_of_not_le hroom
          cases hfree : findFreeId env.fuel s.activeGames s.nextGameId with
          | error e => simp [hfree, Except.map] at hjoin
          | ok id =>
              have hid : s.FreeId id := ⟨env.fuel, hfree⟩
              simp only [hfree, Except.map, Except.ok.injEq, createReply] at hjoin
              split_ifs at hjoin with hnode hrow
              · obtain ⟨rfl, rfl⟩ := Prod.mk.injEq _ _ _ _ ▸ hjoin
                exact .unallocated id h hw hroom hid hnode
              · obtain ⟨rfl, rfl⟩ := Prod.mk.injEq _ _ _ _ ▸ hjoin
                simp only [not_or, Bool.not_eq_false] at hnode
                exact .unfinished id h hw hroom hid ⟨hnode.1, hnode.2, hrow⟩
              · obtain ⟨rfl, rfl⟩ := Prod.mk.injEq _ _ _ _ ▸ hjoin
                simp only [not_or, Bool.not_eq_false] at hnode hrow
                exact .created id h hw hroom hid ⟨hnode.1, hnode.2, hrow⟩

theorem handling_of_named (h : d.WellFormed) (ht : d.msgType ≠ 0)
    (hnamed : handleNamed d s (gameAction env d) = .ok (s', out)) :
    Handling tmpl env.now env.alloc d s s' out := by
  by_cases hs : s.LookupFails d
  · rw [handleNamed_of_fails hs] at hnamed
    obtain ⟨rfl, rfl⟩ := Prod.mk.injEq _ _ _ _ ▸ Except.ok.inj hnamed
    exact .notFound h ht hs
  · obtain ⟨g, hg, hreg⟩ := exists_of_not_lookupFails hs
    rw [handleNamed_of_lookup hg hreg] at hnamed
    cases hact : gameAction env d g with
    | error e => simp [hact, Except.map] at hnamed
    | ok r =>
        simp only [hact, Except.map, Except.ok.injEq] at hnamed
        rcases h.named ht with hmove | hgive | hkeep
        · rw [gameAction_of_move hmove] at hact
          cases r with
          | none =>
              obtain ⟨rfl, rfl⟩ := Prod.mk.injEq _ _ _ _ ▸ hnamed
              have hno := makeMove_eq_none hact
              exact .refused g (.inl hmove) hg hreg fun hyes => hno ⟨hyes.1, hyes.2 hmove⟩
          | some g' =>
              obtain ⟨rfl, rfl⟩ := Prod.mk.injEq _ _ _ _ ▸ hnamed
              obtain ⟨hturn, hlegal, hends, rfl⟩ := makeMove_eq_some hact
              exact .moved g hmove hg hturn hlegal hends
        · rw [gameAction_of_giveUp hgive] at hact
          by_cases hturn : g.OnTurn d.playerId
          · obtain rfl : some (g.afterGiveUp d.playerId env.now) = r := by
              simpa [hturn] using hact
            obtain ⟨rfl, rfl⟩ := Prod.mk.injEq _ _ _ _ ▸ hnamed
            exact .gaveUp g hgive hg hturn
          · obtain rfl : none = r := by simpa [hturn] using hact
            obtain ⟨rfl, rfl⟩ := Prod.mk.injEq _ _ _ _ ▸ hnamed
            exact .refused g (.inr hgive) hg hreg fun hyes => hturn hyes.1
        · rw [gameAction_of_keepAlive hkeep] at hact
          obtain rfl : some (g.touch env.now) = r := by simpa using hact
          obtain ⟨rfl, rfl⟩ := Prod.mk.injEq _ _ _ _ ▸ hnamed
          exact .keptAlive g hkeep hg hreg

/-- **Inversion of a handling.** -/
theorem Handles.handling {srv : Server} {now : UInt64} {alloc : Allocation}
    (h : Handles srv now alloc d s s' out) : Handling srv.template now alloc d s s' out := by
  obtain ⟨order, fuel, horder, hdecode⟩ := h
  by_cases hwf : d.WellFormed
  · by_cases ht : d.msgType = 0
    · rw [decode_of_join _ _ _ ⟨hwf, ht⟩] at hdecode
      exact handling_of_join ⟨hwf, ht⟩ horder hdecode
    · rw [decode_of_named _ _ _ hwf ht] at hdecode
      exact handling_of_named hwf ht hdecode
  · rw [decode_of_malformed _ _ _ hwf] at hdecode
    obtain ⟨rfl, rfl⟩ := Prod.mk.injEq _ _ _ _ ▸ Except.ok.inj hdecode
    exact .malformed hwf

/-- **Completeness.** Each way of completing is taken by some handling: for a move, on a row that
    fits. -/
theorem Handling.handles {srv : Server} {now : UInt64} {alloc : Allocation}
    (hfit : d.IsMove → ∀ g, s.activeGames.lookup d.gameId = some g → g.Registered d.playerId →
      g.RowFits)
    (h : Handling srv.template now alloc d s s' out) : Handles srv now alloc d s s' out := by
  obtain ⟨order, horder⟩ := Finmap.exists_isTraversal s.activeGames
  have hnamed : ∀ fuel, d.WellFormed → d.msgType ≠ 0 →
      handleNamed d s (gameAction ⟨now, alloc, order, fuel⟩ d) = .ok (s', out) →
      Handles srv now alloc d s s' out := by
    intro fuel hwf ht hres
    exact ⟨order, fuel, horder, by rw [decode_of_named _ _ _ hwf ht, hres]⟩
  have hjoin : ∀ fuel, d.IsJoin → joinReply ⟨now, alloc, order, fuel⟩ srv.template d s =
      .ok (s', out) → Handles srv now alloc d s s' out := by
    intro fuel hj hres
    exact ⟨order, fuel, horder, by rw [decode_of_join _ _ _ hj, hres]⟩
  cases h with
  | malformed h => exact ⟨order, 0, horder, decode_of_malformed _ _ _ h⟩
  | notFound h ht hs =>
      refine hnamed 0 h ht ?_
      rw [handleNamed_of_fails hs]
  | seated id g h hg hw =>
      -- a traversal that meets the waiting game first
      obtain ⟨rest, hrest⟩ := Finmap.IsTraversal.exists_cons hg
      refine ⟨⟨id, g⟩ :: rest, 0, hrest, ?_⟩
      rw [decode_of_join _ _ _ h]
      simp [joinReply, findWaitingGame, hw]
  | full h hw hfull =>
      exact hjoin 0 h (joinReply_of_full hw hfull horder)
  | unallocated id h hw hroom hid halloc =>
      obtain ⟨fuel, hfree⟩ := hid
      refine hjoin fuel h ?_
      rw [joinReply_of_search hw hroom horder hfree, createReply_of_unallocated halloc]
  | unfinished id h hw hroom hid halloc =>
      obtain ⟨fuel, hfree⟩ := hid
      obtain ⟨htempl, hnode, hrow⟩ := halloc
      refine hjoin fuel h ?_
      rw [joinReply_of_search hw hroom horder hfree, createReply_of_unfinished htempl hnode hrow]
  | created id h hw hroom hid halloc =>
      obtain ⟨fuel, hfree⟩ := hid
      refine hjoin fuel h ?_
      rw [joinReply_of_search hw hroom horder hfree, createReply_of_succeeds halloc]
  | refused g h hg hreg hno =>
      rcases h with h | h
      · refine hnamed 0 h.1 h.type_ne ?_
        have hrefuse : ¬ (g.OnTurn d.playerId ∧ g.Legal d.movePawns) :=
          fun hyes => hno ⟨hyes.1, fun _ => hyes.2⟩
        rw [handleNamed_of_lookup hg hreg, gameAction_of_move h,
          makeMove_of_not (hfit h g hg hreg) hrefuse]
        rfl
      · refine hnamed 0 h.1 h.type_ne ?_
        have hturn : ¬ g.OnTurn d.playerId := by
          intro hturn
          exact hno ⟨hturn, fun hmove => (h.not_move hmove).elim⟩
        rw [handleNamed_of_lookup hg hreg, gameAction_of_giveUp h, if_neg hturn]
        rfl
  | moved g h hg hturn hlegal hends =>
      obtain ⟨fuel, status, hstatus⟩ := hends
      refine hnamed fuel h.1 h.type_ne ?_
      rw [handleNamed_of_lookup hg hturn.registered, gameAction_of_move h,
        makeMove_of_accepted hturn hlegal, hstatus, verify_eq_ok hstatus]
      rfl
  | gaveUp g h hg hturn =>
      refine hnamed 0 h.1 h.type_ne ?_
      rw [handleNamed_of_lookup hg hturn.registered, gameAction_of_giveUp h, if_pos hturn]
      rfl
  | keptAlive g h hg hreg =>
      refine hnamed 0 h.1 h.type_ne ?_
      rw [handleNamed_of_lookup hg hreg, gameAction_of_keepAlive h]
      rfl

end Handling

end Kayles
