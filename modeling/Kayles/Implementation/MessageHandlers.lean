import Kayles.Implementation.GameLogic
import Kayles.Lib.Traversal

set_option autoImplicit false

/-! # Message handlers (`message_handlers.h`, `message_handlers.cpp`)

A handler reads the receive buffer and the server state and returns the new state with its output:
the datagrams handed to `sendto`, in order, and the lines printed. What it takes from its environment
is a parameter (`Env`): the reading of the clock, which allocations succeed, the order in which the
hash map is traversed, and the turns its loops may take. -/

namespace Kayles

/-- The hash map of sessions, indexed by game id. -/
abbrev ActiveGames := Finmap fun _ : UInt32 => GameState

/-- An element `(first, second)` of the map. -/
abbrev Entry := Sigma fun _ : UInt32 => GameState

/-- The server's memory between two datagrams. -/
structure ServerState where
  activeGames : ActiveGames
  nextGameId : UInt32

/-- A line of the server's log about a session. -/
inductive LogLine where
  | joined (playerId gameId : UInt32)
  | created (gameId playerId : UInt32)
  | timedOut (gameId : UInt32)
  deriving DecidableEq, Repr

/-- What one handling or one sweep sends and prints, in order. -/
structure Output where
  sent : List Bytes := []
  log : List LogLine := []
  deriving DecidableEq, Repr

/-- Which allocations of the creation branch of `handle_join_game` succeed. -/
structure Allocation where
  /-- copying the template into `new_game` -/
  templateCopy : Bool
  /-- inserting the node in `operator[]` -/
  mapNode : Bool
  /-- copy-assigning `pawn_row` into the node -/
  rowCopy : Bool
  deriving DecidableEq, Repr

/-- No allocation throws `bad_alloc`. -/
def Allocation.Succeeds (alloc : Allocation) : Prop :=
  alloc.templateCopy = true ∧ alloc.mapNode = true ∧ alloc.rowCopy = true

/-- What one handling takes from its environment. -/
structure Env where
  now : UInt64
  alloc : Allocation
  order : List Entry
  fuel : ℕ

/-! ## Constants -/

/-- Lengths of the messages. Both moves have the same one. -/
abbrev joinSize : ℕ := 5
abbrev moveSize : ℕ := 10
abbrev keepAliveSize : ℕ := 9
abbrev giveUpSize : ℕ := 9

/-- Offsets of the fields in a message. -/
abbrev offPlayerId : ℕ := 1
abbrev offGameId : ℕ := 5
abbrev offPawnIdx : ℕ := 9

/-- Error indices of a lookup that fails: where the game id begins, and where the player id does. -/
abbrev errorIdxGame : UInt8 := 5
abbrev errorIdxPlayer : UInt8 := 1

/-- game_id, player_a_id, player_b_id, status and max_pawn. -/
abbrev basicMsgSize : ℕ := 14
/-- The id that no player may have. -/
abbrev invalidPlayerId : UInt32 := 0

abbrev uint32Max : UInt32 := 4294967295

/-! ## Replies -/

/-- `handle_wrong_message`: the datagram sent. -/
def handleWrongMessage (buf : Bytes) (len : ℕ) (errorIndex : UInt8) : Except Fault Bytes := do
  let response := List.replicate wrongMsgLen 0
  let copyLen := min len messageLen
  let response ← memcpy response 0 buf copyLen
  let response ← storeByte response messageLen errorStatus
  storeByte response (messageLen + 1) errorIndex

/-- `send_game_state`: the datagram sent. -/
def sendGameState (gameState : GameState) (gameId : UInt32) : Except Fault Bytes := do
  let pawnBytes := gameState.pawnRow.length
  let msgSize := basicMsgSize + pawnBytes
  let response := List.replicate msgSize 0
  let (response, off) ← writeU32 response 0 gameId
  let (response, off) ← writeU32 response off gameState.playerAId
  let (response, off) ← writeU32 response off gameState.playerBId
  let response ← storeByte response off gameState.status
  let response ← storeByte response (off + 1) gameState.maxPawn
  memcpy response (off + 2) gameState.pawnRow pawnBytes

/-- `find_game_and_verify_players`: the game found, if any, and the replies sent on failure. -/
def findGameAndVerifyPlayers (gameId playerId : UInt32) (buf : Bytes) (len : ℕ)
    (activeGames : ActiveGames) : Except Fault (Option GameState × List Bytes) :=
  match activeGames.lookup gameId with
  | none => do
    let msg ← handleWrongMessage buf len errorIdxGame
    return (none, [msg])
  | some game =>
    if game.playerAId ≠ playerId ∧ game.playerBId ≠ playerId then do
      let msg ← handleWrongMessage buf len errorIdxPlayer
      return (none, [msg])
    else .ok (some game, [])

/-- The checks every handler begins with: the length of the message, then the player id. -/
def checkLengthAndPlayer (size : ℕ) (buf : Bytes) (len : ℕ) (s : ServerState)
    (handle : UInt32 → Except Fault (ServerState × Output)) : Except Fault (ServerState × Output) :=
  if len ≠ size then do
    let errIdx := UInt8.ofNat (if len < size then len else size)
    let msg ← handleWrongMessage buf len errIdx
    return (s, { sent := [msg] })
  else do
    let playerId ← readU32 buf offPlayerId
    if playerId = invalidPlayerId then
      let msg ← handleWrongMessage buf len (UInt8.ofNat offPlayerId)
      return (s, { sent := [msg] })
    else handle playerId

/-! ## Joining -/

/-- The value-initialised element `operator[]` inserts for a new key. -/
def valueInitialised : GameState :=
  { playerAId := 0, playerBId := 0, status := 0, maxPawn := 0, pawnRow := [], lastActivity := 0 }

/-- The loop over `active_games` for the first game with only one player registered. -/
def findWaitingGame (order : List Entry) : Option Entry :=
  order.find? fun game => game.2.status == waitingForOpponent

/-- The successor of a game id in `1..UINT32_MAX`. -/
def advanceGameId (id : UInt32) : UInt32 := if id = uint32Max then 1 else id + 1

/-- One turn of the loop that looks for a unique game id. -/
def findFreeIdTurn (activeGames : ActiveGames) (id : UInt32) : Except Fault (UInt32 ⊕ UInt32) :=
  if id ∈ activeGames then .ok (.inl (advanceGameId id)) else .ok (.inr id)

/-- The loop that looks for a unique game id, from the counter on. -/
def findFreeId (fuel : ℕ) (activeGames : ActiveGames) (nextGameId : UInt32) :
    Except Fault UInt32 :=
  Loop.run .outOfFuel (findFreeIdTurn activeGames) fuel nextGameId

/-- The creation branch of `handle_join_game`: the new state, and the id of the game created unless
    an allocation failed. The members of the inserted element are copy-assigned in declaration
    order, so a failing copy of `pawn_row` leaves the ones before it assigned. -/
def createGame (env : Env) (templateGame : GameState) (assignedPlayerId : UInt32)
    (s : ServerState) : Except Fault (ServerState × Option UInt32) := do
  let currentGameId ← findFreeId env.fuel s.activeGames s.nextGameId
  let s := { s with nextGameId := advanceGameId currentGameId }
  let newGame := { templateGame with
    playerAId := assignedPlayerId, playerBId := waitingForOpponent.toUInt32,
    status := waitingForOpponent, lastActivity := env.now }
  if !env.alloc.templateCopy || !env.alloc.mapNode then return (s, none)
  else if !env.alloc.rowCopy then
    -- `operator[]` has inserted the element before its row is copied
    let partly := { valueInitialised with
      playerAId := newGame.playerAId, playerBId := newGame.playerBId,
      status := newGame.status, maxPawn := newGame.maxPawn }
    return ({ s with activeGames := s.activeGames.insert currentGameId partly }, none)
  else
    return ({ s with activeGames := s.activeGames.insert currentGameId newGame },
      some currentGameId)

/-- `handle_join_game`: the player joins the first waiting game, or a new one is created if there is
    room for it. -/
def handleJoinGame (env : Env) (templateGame : GameState) (buf : Bytes) (len : ℕ)
    (s : ServerState) : Except Fault (ServerState × Output) :=
  checkLengthAndPlayer joinSize buf len s fun assignedPlayerId =>
    match findWaitingGame env.order with
    | some ⟨currentGameId, game⟩ => do
      let game := { game with
        playerBId := assignedPlayerId, status := turnB, lastActivity := env.now }
      let s := { s with activeGames := s.activeGames.insert currentGameId game }
      let msg ← sendGameState game currentGameId
      return (s, { sent := [msg], log := [.joined assignedPlayerId currentGameId] })
    | none =>
      if s.activeGames.keys.card ≥ uint32Max.toNat - 1 then .ok (s, {})
      else do
        match ← createGame env templateGame assignedPlayerId s with
        -- `bad_alloc` is caught, and nothing is sent
        | (s, none) => return (s, {})
        | (s, some currentGameId) =>
          let currentGame := (s.activeGames.lookup currentGameId).getD valueInitialised
          let msg ← sendGameState currentGame currentGameId
          return (s, { sent := [msg], log := [.created currentGameId assignedPlayerId] })

/-! ## Messages that name a game -/

/-- The turn check of both moves and of giving up. -/
def isValidTurn (game : GameState) (playerId : UInt32) : Bool :=
  (game.playerAId == playerId && game.status == turnA) ||
    (game.playerBId == playerId && game.status == turnB)

/-- What the handlers of an existing game share: the checks, the lookup, and the reply with the
    state of the game. `fields` reads what the message has beyond its ids; `act` answers `none` to
    leave the game as it is, or the game as modified in place. A failed lookup has already replied
    when the caller replies again. -/
def handleGameMessage {φ : Type} (size : ℕ) (fields : Bytes → Except Fault φ)
    (act : φ → UInt32 → GameState → Except Fault (Option GameState))
    (buf : Bytes) (len : ℕ) (s : ServerState) : Except Fault (ServerState × Output) :=
  checkLengthAndPlayer size buf len s fun playerId => do
    let gameId ← readU32 buf offGameId
    let message ← fields buf
    match ← findGameAndVerifyPlayers gameId playerId buf len s.activeGames with
    | (none, sent) =>
      -- whatever the lookup has replied, the caller replies once more
      let msg ← handleWrongMessage buf len errorIdxGame
      return (s, { sent := sent ++ [msg] })
    | (some game, sent) =>
      match ← act message playerId game with
      | none =>
        let msg ← sendGameState game gameId
        return (s, { sent := sent ++ [msg] })
      | some game =>
        let msg ← sendGameState game gameId
        return ({ s with activeGames := s.activeGames.insert gameId game },
          { sent := sent ++ [msg] })

/-- The legality checks of a move, in order, up to the first that fails. -/
def areLegalMoves (game : GameState) : List UInt8 → Except Fault Bool
  | [] => .ok true
  | pawnIdx :: rest => do
    if !(← isLegalMove game pawnIdx.toUInt32) then return false
    else areLegalMoves game rest

/-- The pawns of a move knocked down one after the other. -/
def knockPawnsDown (game : GameState) : List UInt8 → Except Fault GameState
  | [] => .ok game
  | pawnIdx :: rest => do
    let game ← knockPawnDown game pawnIdx.toUInt32
    knockPawnsDown game rest

/-- What both moves do with the game they name: the turn check, the legality of every pawn, then the
    move and the new status. -/
def makeMove (env : Env) (pawns : List UInt8) (playerId : UInt32) (game : GameState) :
    Except Fault (Option GameState) :=
  if !isValidTurn game playerId then .ok none
  else do
    if !(← areLegalMoves game pawns) then return none
    else
      let game ← knockPawnsDown game pawns
      let status ← verifyGameStateAfterMove env.fuel game
      return some { game with status := status, lastActivity := env.now }

/-- `handle_make_move_one`: a move on the pawn named. -/
def handleMakeMoveOne (env : Env) (_templateGame : GameState) :
    Bytes → ℕ → ServerState → Except Fault (ServerState × Output) :=
  handleGameMessage moveSize (fun buf => loadByte buf offPawnIdx)
    fun pawnIdx playerId game => makeMove env [pawnIdx] playerId game

/-- `handle_make_move_two`: a move on the pawn named and the next. -/
def handleMakeMoveTwo (env : Env) (_templateGame : GameState) :
    Bytes → ℕ → ServerState → Except Fault (ServerState × Output) :=
  handleGameMessage moveSize (fun buf => loadByte buf offPawnIdx)
    fun firstPawnIdx playerId game =>
      -- a `uint8_t`: after 255 comes 0
      let secondPawnIdx : UInt8 := firstPawnIdx + 1
      makeMove env [firstPawnIdx, secondPawnIdx] playerId game

/-- `handle_give_up`: the player on turn ends the game. -/
def handleGiveUp (env : Env) (_templateGame : GameState) :
    Bytes → ℕ → ServerState → Except Fault (ServerState × Output) :=
  handleGameMessage giveUpSize (fun _ => .ok ()) fun _ playerId game =>
    if !isValidTurn game playerId then .ok none
    -- the winner is chosen by the id of the sender, not by the turn
    else .ok (some { game with
      status := if game.playerAId = playerId then winB else winA, lastActivity := env.now })

/-- `handle_keep_alive`: either player refreshes the game, on turn or not. -/
def handleKeepAlive (env : Env) (_templateGame : GameState) :
    Bytes → ℕ → ServerState → Except Fault (ServerState × Output) :=
  handleGameMessage keepAliveSize (fun _ => .ok ()) fun _ _ game =>
    .ok (some { game with lastActivity := env.now })

end Kayles
