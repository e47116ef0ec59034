import Kayles.Implementation.Arguments
import Kayles.Implementation.MessageHandlers
import Kayles.Lib.Run

set_option autoImplicit false

/-! # The server (`kayles_server.cpp`)

The sweep, the dispatcher and the event loop. The loop is a transition system: an event is a sweep or
the handling of a datagram, and every run of `run_server` is a sequence of such events. A handling
that never returns is no step: the server is single-threaded and hangs in it. -/

namespace Kayles

/-! ## The sweep -/

/-- `timeout_ms`, where the product is one of `double`. It is `none` where the cast to `uint64_t` is
    undefined. -/
def timeoutMs (timeoutSeconds : Double) : Option UInt64 :=
  (timeoutSeconds.mul (.finite 1000)).toUInt64

/-- The loop of `remove_timed_out_games`: the subtraction is one of `uint64_t`. -/
def removeTimedOutGames (currentTime timeoutMs : UInt64) :
    List Entry → ActiveGames → ActiveGames × List LogLine
  | [], activeGames => (activeGames, [])
  | ⟨id, game⟩ :: rest, activeGames =>
    if currentTime - game.lastActivity > timeoutMs then
      let (activeGames, log) :=
        removeTimedOutGames currentTime timeoutMs rest (activeGames.erase id)
      (activeGames, .timedOut id :: log)
    else removeTimedOutGames currentTime timeoutMs rest activeGames

/-! ## The dispatcher -/

/-- Error index of a message whose type is not recognised. -/
abbrev errorIdxType : UInt8 := 0

/-- A handler gets the whole message, with its length and its type. -/
abbrev MessageHandler :=
  Env → GameState → Bytes → ℕ → ServerState → Except Fault (ServerState × Output)

/-- The static map from message types to handlers. -/
def handlers (msgType : UInt8) : Option MessageHandler :=
  match msgType.toNat with
  | 0 => some handleJoinGame
  | 1 => some handleMakeMoveOne
  | 2 => some handleMakeMoveTwo
  | 3 => some handleKeepAlive
  | 4 => some handleGiveUp
  | _ => none

/-- `decode_and_verify_message`: the first byte selects the handler. -/
def decodeAndVerifyMessage (env : Env) (templateGame : GameState) (buf : Bytes) (len : ℕ)
    (s : ServerState) : Except Fault (ServerState × Output) :=
  if len = 0 then do
    let msg ← handleWrongMessage buf len errorIdxType
    return (s, { sent := [msg] })
  else do
    let msgType ← loadByte buf 0
    match handlers msgType with
    | some handler => handler env templateGame buf len s
    | none =>
      let msg ← handleWrongMessage buf len errorIdxType
      return (s, { sent := [msg] })

/-! ## The event loop -/

/-- What `recvfrom` leaves: the reused receive buffer and the length of the datagram, which is its
    first `len` bytes. The bytes after them are what earlier datagrams left. -/
structure Datagram where
  buf : Bytes
  len : ℕ
  buf_length : buf.length = bufferSize
  len_le : len ≤ bufferSize - 1

/-- What the server reacts to. A sweep reads the clock once, a handling at most once. -/
inductive Event where
  | sweep (now : UInt64)
  | datagram (now : UInt64) (alloc : Allocation) (d : Datagram)

/-- An event with the output it caused. -/
structure Label where
  event : Event
  output : Output

/-- A server as `main` starts it: a valid `-r` row, and the template made from it. The other members
    of the template are not initialised. -/
structure Server where
  pawnRow : List Char
  uninitialised : GameState
  template : GameState
  timeoutMs : UInt64
  valid : isValidPawnRow pawnRow = true
  init : initializePawnRow pawnRow uninitialised = .ok template

/-- `static uint32_t next_game_id = 1` and an empty map. -/
def ServerState.initial : ServerState := { activeGames := ∅, nextGameId := 1 }

/-- A completed handling of a datagram: `decode_and_verify_message` returns, for some number of loop
    turns and some order of the hash map. -/
def Handles (srv : Server) (now : UInt64) (alloc : Allocation) (d : Datagram) (s : ServerState)
    (s' : ServerState) (out : Output) : Prop :=
  ∃ order fuel, Finmap.IsTraversal order s.activeGames ∧
    decodeAndVerifyMessage ⟨now, alloc, order, fuel⟩ srv.template d.buf d.len s = .ok (s', out)

/-- A completed sweep. -/
def Sweeps (srv : Server) (now : UInt64) (s : ServerState) (s' : ServerState) (out : Output) :
    Prop :=
  ∃ order, Finmap.IsTraversal order s.activeGames ∧
    s' = { s with
      activeGames := (removeTimedOutGames now srv.timeoutMs order s.activeGames).1 } ∧
    out = { log := (removeTimedOutGames now srv.timeoutMs order s.activeGames).2 }

/-- The transitions of the server. -/
def Step (srv : Server) (s : ServerState) (l : Label) (s' : ServerState) : Prop :=
  match l.event with
  | .sweep now => Sweeps srv now s s' l.output
  | .datagram now alloc d => Handles srv now alloc d s s' l.output

/-- An event during which no allocation fails. -/
def Event.AllocationsSucceed : Event → Prop
  | .sweep _ => True
  | .datagram _ alloc _ => alloc.Succeeds

/-- The transitions in which allocations succeed. -/
def CompletedStep (srv : Server) (s : ServerState) (l : Label) (s' : ServerState) : Prop :=
  l.event.AllocationsSucceed ∧ Step srv s l s'

/-- The states some sequence of datagrams and sweeps leads to. -/
def Reachable (srv : Server) : ServerState → Prop := LTS.Reachable (Step srv) .initial

/-- The states some sequence of completed steps leads to. -/
def ReachableCompleted (srv : Server) : ServerState → Prop :=
  LTS.Reachable (CompletedStep srv) .initial

/-- A datagram as the loop of `run_server` receives it, with the two readings of the clock: one for
    the sweep, one for the handler. -/
structure Arrival where
  sweptAt : UInt64
  handledAt : UInt64
  d : Datagram

/-- An arrival with the outputs of its sweep and of its handling. -/
structure Served where
  arrival : Arrival
  swept : Output
  answered : Output

/-- A completed turn of the loop of `run_server` that receives a datagram: the sweep, then the
    handling. -/
def Turn (srv : Server) (s : ServerState) (l : Served) (s' : ServerState) : Prop :=
  ∃ mid alloc, CompletedStep srv s ⟨.sweep l.arrival.sweptAt, l.swept⟩ mid ∧
    CompletedStep srv mid ⟨.datagram l.arrival.handledAt alloc l.arrival.d, l.answered⟩ s'

/-- What `recvfrom` gives a turn of the loop of `run_server`: its timeout, with the reading of the
    clock for the sweep, or a datagram. -/
inductive Received where
  | timedOut (sweptAt : UInt64)
  | arrived (arrival : Arrival)

/-- Every turn sweeps, whatever it receives. -/
def Received.sweptAt : Received → UInt64
  | .timedOut sweptAt => sweptAt
  | .arrived arrival => arrival.sweptAt

/-- A turn of the loop with the outputs of its sweep and of its handling. -/
structure Round where
  received : Received
  swept : Output
  answered : Output

/-- A completed turn of the loop: the sweep, then the handling of the datagram if there is one. -/
def LoopStep (srv : Server) (s : ServerState) (l : Round) (s' : ServerState) : Prop :=
  ∃ mid, Sweeps srv l.received.sweptAt s mid l.swept ∧
    match l.received with
    | .timedOut _ => s' = mid ∧ l.answered = {}
    | .arrived arrival => ∃ alloc, Handles srv arrival.handledAt alloc arrival.d mid s' l.answered

end Kayles
