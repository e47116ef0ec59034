import Kayles.Implementation.Common
import Kayles.Lib.Loop

set_option autoImplicit false

/-! # Board operations and game-state transitions (`game_logic.h`, `game_logic.cpp`)

The pawn row is a packed bit vector, most significant bit first; a set bit is a standing pawn. Bit
operations are carried out as the source does them: on a byte promoted to `int`, with the result
narrowed back to `uint8_t`. -/

namespace Kayles

/-! ## Constants -/

/-- Status of a session that has only its first player. The other statuses follow it. -/
abbrev waitingForOpponent : UInt8 := 0
abbrev turnA : UInt8 := 1
abbrev turnB : UInt8 := 2
abbrev winA : UInt8 := 3
abbrev winB : UInt8 := 4

/-- A standing pawn in the text of a row. -/
abbrev pawnStanding : Char := '1'
/-- A pawn that has been knocked down, or was never there. -/
abbrev pawnKnockedDown : Char := '0'

/-- Number of pawns packed into a single byte of `pawn_row`. -/
abbrev bitsPerByte : ℕ := 8

/-- Converts a within-byte pawn position into a bit index. -/
abbrev bitIndexOffset : ℕ := bitsPerByte - 1

/-- The current state of a single game session. -/
structure GameState where
  playerAId : UInt32
  playerBId : UInt32
  status : UInt8
  maxPawn : UInt8
  pawnRow : Bytes
  lastActivity : UInt64
  deriving DecidableEq, Repr

/-! ## Integer promotion -/

/-- A `uint8_t` operand promoted to `int`. -/
def promote (b : UInt8) : BitVec 32 := b.toBitVec.setWidth 32

/-- An `int` stored into a `uint8_t`. -/
def narrow (x : BitVec 32) : UInt8 := .ofBitVec (x.setWidth 8)

/-- `1 << bit_index`. -/
def bitMask (bitIndex : ℕ) : BitVec 32 := 1#32 <<< bitIndex

/-! ## The board -/

/-- The loop of `initialize_pawn_row` from character `i` on. -/
def setPawns : List Char → ℕ → GameState → Except Fault GameState
  | [], _, game => .ok game
  | c :: rest, i, game =>
    if c = pawnStanding then do
      let byteIndex := i / bitsPerByte
      let bitIndex := bitIndexOffset - i % bitsPerByte
      let byte ← loadByte game.pawnRow byteIndex
      let pawnRow ← storeByte game.pawnRow byteIndex (narrow (promote byte ||| bitMask bitIndex))
      setPawns rest (i + 1) { game with pawnRow := pawnRow }
    else setPawns rest (i + 1) game

/-- `initialize_pawn_row`. The length is a `size_t`, so the empty string wraps before it is
    narrowed. -/
def initializePawnRow (strPawns : List Char) (game : GameState) : Except Fault GameState :=
  let maxPawn := (UInt64.ofNat strPawns.length - 1).toUInt8
  let numBytes := maxPawn.toNat / bitsPerByte + 1
  setPawns strPawns 0 { game with maxPawn := maxPawn, pawnRow := List.replicate numBytes 0 }

/-- `serialize_pawn_row`: one character for each pawn up to `max_pawn`, whatever the length of the
    row. -/
def serializePawnRow (game : GameState) : Except Fault (List Char) :=
  (List.range (game.maxPawn.toNat + 1)).mapM fun i => do
    let byteIndex := i / bitsPerByte
    let bitIndex := bitIndexOffset - i % bitsPerByte
    let byte ← loadByte game.pawnRow byteIndex
    return if promote byte &&& bitMask bitIndex ≠ 0 then pawnStanding else pawnKnockedDown

/-- `knock_pawn_down` clears one bit of the row. The index is not checked. -/
def knockPawnDown (gameState : GameState) (pawnIdx : UInt32) : Except Fault GameState := do
  let byteIdx := pawnIdx.toNat / bitsPerByte
  let bitIdx := bitIndexOffset - pawnIdx.toNat % bitsPerByte
  let byte ← loadByte gameState.pawnRow byteIdx
  let pawnRow ← storeByte gameState.pawnRow byteIdx (narrow (promote byte &&& ~~~bitMask bitIdx))
  return { gameState with pawnRow := pawnRow }

/-- `is_pawn_standing`: one bit of the row, in which the index is not checked either. -/
def isPawnStanding (gameState : GameState) (pawnIdx : UInt32) : Except Fault Bool := do
  let byteIdx := pawnIdx.toNat / bitsPerByte
  let bitIdx := bitIndexOffset - pawnIdx.toNat % bitsPerByte
  let byte ← loadByte gameState.pawnRow byteIdx
  if promote byte &&& bitMask bitIdx = 0 then return false
  else return true

/-- `is_legal_move`: the row is looked at only for an index up to `max_pawn`. -/
def isLegalMove (gameState : GameState) (pawnIdx : UInt32) : Except Fault Bool :=
  if gameState.maxPawn.toUInt32 < pawnIdx then .ok false
  else do
    if !(← isPawnStanding gameState pawnIdx) then return false
    else return true

/-! ## The end of a move -/

/-- One turn of the loop of `any_pawn_left`. The counter is a `uint8_t`, like its bound. -/
def anyPawnLeftTurn (game : GameState) (i : UInt8) : Except Fault (UInt8 ⊕ Bool) :=
  if i ≤ game.maxPawn then do
    if ← isPawnStanding game i.toUInt32 then return .inr true
    -- wraps to 0 after 255, where a bound of 255 lets the loop go on
    else return .inl (i + 1)
  else .ok (.inr false)

/-- `any_pawn_left`: whether the loop, from the first pawn on, finds one that stands. -/
def anyPawnLeft (fuel : ℕ) (game : GameState) : Except Fault Bool :=
  Loop.run .outOfFuel (anyPawnLeftTurn game) fuel 0

/-- `verify_game_state_after_move`: the turn passes to the other player, or the one who has moved
    wins. -/
def verifyGameStateAfterMove (fuel : ℕ) (game : GameState) : Except Fault UInt8 := do
  let pawnsLeft ← anyPawnLeft fuel game
  if !pawnsLeft then
    if game.status = turnA then return winA else return winB
  else
    if game.status = turnA then return turnB else return turnA

end Kayles
