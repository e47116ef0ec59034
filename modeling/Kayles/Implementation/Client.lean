import Kayles.Implementation.GameLogic

set_option autoImplicit false

/-! # The client's reply decoder (`kayles_client.cpp`)

The client reads one datagram into a buffer that it does not clear and prints what it decodes. What it
prints is a value (`Display`), and `Display.text` is what `printf` makes of it. -/

namespace Kayles

/-- Offsets of the fields in the state of a game. -/
abbrev offStateGameId : ℕ := 0
abbrev offStatePlayerA : ℕ := 4
abbrev offStatePlayerB : ℕ := 8
abbrev offStateStatus : ℕ := 12
abbrev offStateMaxPawn : ℕ := 13
abbrev offStatePawns : ℕ := 14

/-- What `read` on the socket returns: a length, or -1 with `errno`. -/
inductive ReadResult where
  | received (len : ℕ)
  /-- `EAGAIN`, `EWOULDBLOCK` or `ECONNREFUSED` -/
  | timedOut
  | failed
  deriving DecidableEq, Repr

/-- What the client prints. -/
inductive Display where
  | timeout
  | wrongMessage (echoed : Bytes) (errIdx : UInt8)
  | gameState (gameId playerA playerB : UInt32) (status maxPawn : UInt8) (pawns : List Char)
  deriving DecidableEq, Repr

/-- `pawn_row.assign(buf + off, buf + off + n)`. -/
def assign (buf : Bytes) (off n : ℕ) : Except Fault Bytes :=
  if off + n ≤ buf.length then .ok ((buf.drop off).take n) else .error .outOfBounds

/-- The branch for an error report: its echoed bytes and its error index. -/
def displayWrongMessage (recvBuffer : Bytes) : Except Fault Display := do
  let errIdx ← loadByte recvBuffer (messageLen + 1)
  let echoed ← (List.range messageLen).mapM (loadByte recvBuffer)
  return .wrongMessage echoed errIdx

/-- The branch for the state of a game. Only the board depends on how much has been received. -/
def displayGameState (recvBuffer : Bytes) (receivedLen : ℕ) : Except Fault Display := do
  let gameId ← readU32 recvBuffer offStateGameId
  let playerA ← readU32 recvBuffer offStatePlayerA
  let playerB ← readU32 recvBuffer offStatePlayerB
  let status ← loadByte recvBuffer offStateStatus
  let maxPawn ← loadByte recvBuffer offStateMaxPawn
  -- a `size_t`, which wraps for a datagram shorter than the header
  let pawnsBytes := UInt64.ofNat receivedLen - 14
  if 0 < pawnsBytes then
    let pawnRow ← assign recvBuffer offStatePawns pawnsBytes.toNat
    -- the other members are not initialised, and not read
    let pawns ← serializePawnRow { playerAId := 0, playerBId := 0, status := 0, maxPawn := maxPawn,
                                   pawnRow := pawnRow, lastActivity := 0 }
    return .gameState gameId playerA playerB status maxPawn pawns
  else return .gameState gameId playerA playerB status maxPawn []

/-- The test that tells the two kinds of reply apart. -/
def isWrongMessage (recvBuffer : Bytes) (receivedLen : ℕ) : Except Fault Bool :=
  if receivedLen = wrongMsgLen then do
    let status ← loadByte recvBuffer messageLen
    return status == errorStatus
  else .ok false

/-- The decoding of a datagram of the given length. -/
def displayMessage (recvBuffer : Bytes) (receivedLen : ℕ) : Except Fault Display := do
  if ← isWrongMessage recvBuffer receivedLen then displayWrongMessage recvBuffer
  else displayGameState recvBuffer receivedLen

/-- `receive_and_display_message`, on the buffer as `read` leaves it. -/
def receiveAndDisplayMessage (recvBuffer : Bytes) (result : ReadResult) : Except Exit Display :=
  match result with
  | .failed => .error (.syserr "read failed")
  | .timedOut => .ok .timeout
  | .received receivedLen => (displayMessage recvBuffer receivedLen).mapError .fault

/-! ## The printed text -/

/-- A number as `%u` and `%d` print it. -/
def decimal (n : ℕ) : List Char := Nat.toDigits 10 n

/-- A string as `%s` prints its `c_str()`: up to the first NUL. -/
def cString (s : List Char) : List Char := s.takeWhile fun c => c ≠ Char.ofNat 0

/-- What is printed, character by character. -/
def Display.text : Display → List Char
  | .timeout => "[TIMEOUT] no response from server\n".toList
  | .wrongMessage echoed errIdx =>
    "WRONG_MESSAGE received \n".toList ++ ("echoed message bytes: ".toList ++
      (echoed.map Char.ofUInt8 ++ ("\nerror status: ".toList ++ decimal errorStatus.toNat ++
        ", error index: ".toList ++ (decimal errIdx.toNat ++ ['\n']))))
  | .gameState gameId playerA playerB status maxPawn pawns =>
    "GAME_STATE received \n".toList ++ (['/'].intercalate [decimal gameId.toNat,
      decimal playerA.toNat, decimal playerB.toNat, decimal status.toNat, decimal maxPawn.toNat,
      cString pawns] ++ ['\n'])

end Kayles
