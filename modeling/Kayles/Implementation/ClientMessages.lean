import Kayles.Implementation.Common
import Kayles.Implementation.Conversions

set_option autoImplicit false

/-! # The client's messages (`client_messages.h`, `client_messages.cpp`)

The text of the `-m` option is split, its first part is the type, and the serializer of the type
writes the other parts into a payload. The sizes and the types are the client's own: nothing is
shared with the server but the byte order. -/

namespace Kayles.Client

/-! ## Constants -/

/-- Lengths of the messages. -/
abbrev joinSize : ℕ := 5
abbrev moveSize : ℕ := 10
abbrev keepAliveSize : ℕ := 9
abbrev giveUpSize : ℕ := 9

/-- Range of the message types. -/
abbrev minMessageType : Int := 0
abbrev maxMessageType : Int := 4

/-- The character between two parts of a message. -/
abbrev delimiter : Char := '/'

/-- Numbers of parts of the messages, and places of the fields among them. -/
abbrev joinParts : ℕ := 2
abbrev moveParts : ℕ := 4
abbrev keepAliveParts : ℕ := 3
abbrev giveUpParts : ℕ := 3
abbrev playerPart : ℕ := 1
abbrev gamePart : ℕ := 2
abbrev pawnPart : ℕ := 3

/-! ## Fields -/

/-- A part with the name its errors give it. -/
structure Field where
  idx : ℕ
  fieldName : String

/-- `extract_u32_field`: `stoul` has 64 bits, of which the low 32 are kept. -/
def extractU32Field (parts : List (List Char)) (field : Field) : Except Exit UInt32 :=
  match parts[field.idx]? with
  | none => .error (.fatal ("missing field '" ++ field.fieldName ++ "' in message"))
  | some text =>
    match stoul text with
    | .ok val => .ok val.toUInt32
    | .error _ =>
      .error (.fatal ("invalid or non-numeric value for field '" ++ field.fieldName ++ "'"))

/-- `buf.resize(n)`. -/
def resize (buf : Bytes) (n : ℕ) : Bytes := buf.take n ++ List.replicate (n - buf.length) 0

/-- Consecutive calls of `write_u32` on fields. -/
def writeFields (p : List (List Char)) : List Field → Bytes → ℕ → Except Exit (Bytes × ℕ)
  | [], buf, off => .ok (buf, off)
  | field :: rest, buf, off => do
    let val ← extractU32Field p field
    let (buf, off) ← (writeU32 buf off val).mapError .fault
    writeFields p rest buf off

/-! ## Serializers -/

/-- A serializer extends a payload that begins with the type. -/
abbrev SerializerFunction := List (List Char) → Bytes → Except Exit Bytes

/-- What the serializers share: the check of the number of parts, the fields of four bytes after the
    type byte, and for a move the byte of the pawn. -/
def serializeFields (expectedParts size : ℕ) (usage : String) (fields : List Field)
    (pawn : Option Field) : SerializerFunction := fun p buf =>
  if p.length ≠ expectedParts then .error (.fatal usage)
  else do
    let (buf, off) ← writeFields p fields (resize buf size) 1
    match pawn with
    | none => return buf
    | some field =>
      let val ← extractU32Field p field
      (storeByte buf off val.toUInt8).mapError .fault

/-- The serializer of MSG_JOIN. -/
def handleJoinGameClient : SerializerFunction :=
  serializeFields joinParts joinSize "MSG_JOIN expects: 0/<player_id>"
    [⟨playerPart, "player_id"⟩] none

/-- The serializer of MSG_MOVE_1. -/
def handleMakeMoveOneClient : SerializerFunction :=
  serializeFields moveParts moveSize "MSG_MOVE_1 expects: 1/<player_id>/<game_id>/<pawn_idx>"
    [⟨playerPart, "player_id"⟩, ⟨gamePart, "game_id"⟩] (some ⟨pawnPart, "pawn_idx"⟩)

/-- The serializer of MSG_MOVE_2. -/
def handleMakeMoveTwoClient : SerializerFunction :=
  serializeFields moveParts moveSize "MSG_MOVE_2 expects: 2/<player_id>/<game_id>/<pawn_idx>"
    [⟨playerPart, "player_id"⟩, ⟨gamePart, "game_id"⟩] (some ⟨pawnPart, "pawn_idx"⟩)

/-- The serializer of MSG_KEEP_ALIVE. -/
def handleKeepAliveClient : SerializerFunction :=
  serializeFields keepAliveParts keepAliveSize "MSG_KEEP_ALIVE expects: 3/<player_id>/<game_id>"
    [⟨playerPart, "player_id"⟩, ⟨gamePart, "game_id"⟩] none

/-- The serializer of MSG_GIVE_UP. -/
def handleGiveUpClient : SerializerFunction :=
  serializeFields giveUpParts giveUpSize "MSG_GIVE_UP expects: 4/<player_id>/<game_id>"
    [⟨playerPart, "player_id"⟩, ⟨gamePart, "game_id"⟩] none

/-- The static map from message types to serializers. -/
def serializers (type : UInt8) : Option SerializerFunction :=
  match type.toNat with
  | 0 => some handleJoinGameClient
  | 1 => some handleMakeMoveOneClient
  | 2 => some handleMakeMoveTwoClient
  | 3 => some handleKeepAliveClient
  | 4 => some handleGiveUpClient
  | _ => none

/-- `serialize_message`: the datagram that the text of the `-m` option spells out. -/
def serializeMessage (humanReadable : List Char) : Except Exit Bytes :=
  let parts := splitMessage humanReadable delimiter
  match parts with
  | [] => .error (.fatal "empty message")
  | first :: _ =>
    match stoi first with
    | .error _ => .error (.fatal "invalid message type")
    | .ok typeRaw =>
      if typeRaw < minMessageType ∨ maxMessageType < typeRaw then
        .error (.fatal "invalid message type")
      else
        let type := UInt8.ofInt typeRaw
        let buffer : Bytes := [type]
        match serializers type with
        | some serializer => serializer parts buffer
        | none => .error (.fatal "unknown message type")

end Kayles.Client
