import Kayles.Implementation.Client
import Kayles.Implementation.ClientMessages
import Kayles.Implementation.Server
import Kayles.Implementation.Sockets
import Kayles.Lib.Driver

set_option autoImplicit false

/-! # The two programs (`kayles_server.cpp`, `kayles_client.cpp`)

`main` of either program, on what the system answers to its calls. The server takes a turn of its
loop for each call of `recvfrom`; the client sends one datagram and waits for one. Memory for the
options and for the template is taken for granted, so that what can fail is what the loop asks
for. -/

namespace Kayles

/-! ## The server -/

/-- The receive buffer of `run_server`, which is never cleared. -/
structure RecvBuffer where
  bytes : Bytes
  length_eq : bytes.length = bufferSize

/-- Where a datagram comes from. -/
structure SocketAddress where
  ip : UInt32
  port : UInt16
  deriving DecidableEq, Repr

/-- What `recvfrom` returns: a datagram, or -1 with `errno`. -/
inductive RecvResult where
  | received (datagram : Bytes) (sender : SocketAddress)
  /-- `EAGAIN`, `EWOULDBLOCK` or `ECONNREFUSED` -/
  | timedOut
  | failed
  deriving DecidableEq, Repr

/-- `recvfrom` with room for `BUFFER_SIZE - 1` bytes: what is too long is cut off. -/
def Datagram.receive (buffer : RecvBuffer) (datagram : Bytes) : Datagram where
  buf := datagram.take (bufferSize - 1) ++ buffer.bytes.drop (min datagram.length (bufferSize - 1))
  len := min datagram.length (bufferSize - 1)
  buf_length := by
    rw [List.length_append, List.length_take, List.length_drop, buffer.length_eq]
    omega
  len_le := Nat.min_le_right _ _

/-- The order in which a loop visits the hash map, whatever it holds. -/
structure HashOrder where
  list : ActiveGames → List Entry
  isTraversal : ∀ m, Finmap.IsTraversal (list m) m

/-- What one turn of the loop of `run_server` takes from its environment. The loops of the handlers
    may take as many turns as there are game ids. -/
structure TurnCalls where
  recvfrom : RecvResult
  sweptAt : UInt64
  sweepOrder : HashOrder
  /-- whether the static map of handlers can be allocated, in the turn that first needs it -/
  handlersMap : Bool
  handledAt : UInt64
  alloc : Allocation
  handleOrder : HashOrder
  fuel : ℕ
  fuel_le : uint32Max.toNat ≤ fuel
  /-- whether the vector of a reply of this size can be allocated -/
  response : ℕ → Bool
  /-- whether `sendto` takes the datagram -/
  sendto : Bytes → Bool

/-- A line of the server's output. -/
inductive Line where
  | runningOn (port : UInt16)
  | received (len : ℕ) (sender : SocketAddress)
  | game (line : LogLine)
  deriving DecidableEq, Repr

/-- An address as `inet_ntop` writes it. -/
def dotted (ip : UInt32) : List Char :=
  ['.'].intercalate ((htonl ip).map fun b => decimal b.toNat)

/-- The text of a line about a session. -/
def LogLine.text : LogLine → List Char
  | .created gameId playerId =>
    "game no ".toList ++ (decimal gameId.toNat ++ (" created. player no ".toList ++
      (decimal playerId.toNat ++ " joined it.".toList)))
  | .joined playerId gameId =>
    "player no ".toList ++ (decimal playerId.toNat ++ (" joined game no ".toList ++
      decimal gameId.toNat))
  | .timedOut gameId => "game no ".toList ++ (decimal gameId.toNat ++ " timed out".toList)

/-- The text of a line, without its line break. -/
def Line.text : Line → List Char
  | .runningOn port => "running server on port ".toList ++ decimal port.toNat
  | .received len sender =>
    "received ".toList ++ (decimal len ++ (" bytes from ".toList ++
      (dotted sender.ip ++ ':' :: decimal sender.port.toNat)))
  | .game line => line.text

/-- What one turn prints and sends. -/
structure TurnOutput where
  lines : List Line := []
  sent : List (SocketAddress × Bytes) := []
  deriving DecidableEq, Repr

/-- The memory of `run_server` between two turns. -/
structure ServerMemory where
  buffer : RecvBuffer
  /-- whether the static map of handlers has been initialised -/
  handlersReady : Bool
  state : ServerState

/-- `remove_timed_out_games`, which converts the timeout on every call. -/
def sweep (config : AppConfig) (calls : TurnCalls) (s : ServerState) :
    Except ProgramEnd (ServerState × List LogLine) :=
  match timeoutMs config.timeout with
  | none => .error .undefined
  | some timeoutMs =>
    let (activeGames, log) :=
      removeTimedOutGames calls.sweptAt timeoutMs (calls.sweepOrder.list s.activeGames) s.activeGames
    .ok ({ s with activeGames := activeGames }, log)

/-- An error report is an array on the stack, and the state of a game is written into a vector. -/
def isReport (message : Bytes) : Bool :=
  message.length == wrongMsgLen && message[messageLen]? == some errorStatus

/-- The replies of a handling, sent one after the other, up to the first for which there is no
    memory or which `send_raw` cannot send. -/
def sendReplies (calls : TurnCalls) : List Bytes → List Bytes × Except ProgramEnd Unit
  | [] => ([], .ok ())
  | message :: rest =>
    if !isReport message && !calls.response message.length then ([], .error .badAlloc)
    else if !calls.sendto message then
      ([], .error (.exit (.syserr "failed to send response to client")))
    else (message :: (sendReplies calls rest).1, (sendReplies calls rest).2)

/-- `decode_and_verify_message`, with what it has printed and sent when it returns or ends the
    program. A handler sends its replies last, so one that faults has printed and sent nothing. -/
def handle (template : GameState) (calls : TurnCalls) (handlersReady : Bool) (d : Datagram)
    (s : ServerState) : Output × Except ProgramEnd ServerState :=
  let env : Env := ⟨calls.handledAt, calls.alloc, calls.handleOrder.list s.activeGames, calls.fuel⟩
  if d.len ≠ 0 ∧ handlersReady = false ∧ calls.handlersMap = false then ({}, .error .badAlloc)
  else
    match decodeAndVerifyMessage env template d.buf d.len s with
    | .error f => ({}, .error (.exit (.fault f)))
    | .ok (s', out) =>
      let (sent, result) := sendReplies calls out.sent
      ({ out with sent := sent }, result.map fun _ => s')

/-- One turn of the loop of `run_server`: what it prints and sends, and the memory after it or what
    has ended the program. -/
def serverTurn (config : AppConfig) (template : GameState) (calls : TurnCalls) (m : ServerMemory) :
    TurnOutput × Except ProgramEnd ServerMemory :=
  match calls.recvfrom with
  | .failed => ({}, .error (.exit (.syserr "recvfrom failed")))
  | .timedOut =>
    match sweep config calls m.state with
    | .error e => ({}, .error e)
    | .ok (state, log) => ({ lines := log.map .game }, .ok { m with state := state })
  | .received datagram sender =>
    let d := Datagram.receive m.buffer datagram
    let received := Line.received d.len sender
    match sweep config calls m.state with
    | .error e => ({ lines := [received] }, .error e)
    | .ok (state, log) =>
      let (out, result) := handle template calls m.handlersReady d state
      ({ lines := received :: (log ++ out.log).map .game,
         sent := out.sent.map fun message => (sender, message) },
        result.map fun state =>
          { buffer := ⟨d.buf, d.buf_length⟩
            handlersReady := m.handlersReady || d.len != 0
            state := state })

/-- What the system answers to the calls of the server. -/
structure ServerCalls where
  socket : SocketCalls
  turns : List TurnCalls

/-- What the server has done: its first lines, the turns, that in which the program ends included,
    and the memory after them or what has ended the program. -/
structure ServerRun where
  lines : List Line := []
  turns : List TurnOutput := []
  result : Except ProgramEnd ServerMemory

/-- The standard output: every line ends with `std::endl`. -/
def ServerRun.stdout (run : ServerRun) : List Char :=
  (run.lines ++ run.turns.flatMap TurnOutput.lines).flatMap fun line => line.text ++ ['\n']

/-- `run_server`. The buffer is not initialised. -/
def runServer (config : AppConfig) (template : GameState) (buffer : RecvBuffer)
    (calls : ServerCalls) : ServerRun :=
  match createSeverSocket calls.socket config with
  | .error e => { result := .error e }
  | .ok port =>
    let (turns, result) := Driver.run (serverTurn config template) calls.turns
      { buffer := buffer, handlersReady := false, state := .initial }
    { lines := (port.map Line.runningOn).toList, turns := turns, result := result }

/-- `main` of the server. -/
def serverMain (opts : List Opt) (uninitialised : GameState) (buffer : RecvBuffer)
    (calls : ServerCalls) : ServerRun :=
  match Program.server.parse opts with
  | .error e => { result := .error (.exit e) }
  | .ok config =>
    match initializePawnRow config.pawnRow uninitialised with
    | .error f => { result := .error (.exit (.fault f)) }
    | .ok template => runServer config template buffer calls

/-! ## The client -/

/-- What the system answers to the calls of the client. -/
structure ClientCalls where
  socket : SocketCalls
  /-- whether `write` takes the datagram -/
  write : Bytes → Bool
  /-- the buffer as `read` leaves it -/
  recvBuffer : Bytes
  read : ReadResult

/-- What the client has done: the datagram written, and what it has displayed or what has ended the
    program. -/
structure ClientRun where
  written : Option Bytes := none
  result : Except ProgramEnd Display

/-- `main` of the client. -/
def clientMain (opts : List Opt) (calls : ClientCalls) : ClientRun :=
  match Program.client.parse opts with
  | .error e => { result := .error (.exit e) }
  | .ok config =>
    match Client.serializeMessage config.message with
    | .error e => { result := .error (.exit e) }
    | .ok msgBytes =>
      match createClientSocket calls.socket config with
      | .error e => { result := .error e }
      | .ok () =>
        if !calls.write msgBytes then { result := .error (.exit (.syserr "write failed")) }
        else
          { written := some msgBytes,
            result := (receiveAndDisplayMessage calls.recvBuffer calls.read).mapError .exit }

end Kayles
