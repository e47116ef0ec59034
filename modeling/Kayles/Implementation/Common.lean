import Mathlib.Data.Nat.Notation

set_option autoImplicit false

/-! # Memory, network integers and tokens (`common.h`, `common.cpp`)

Byte buffers are lists of bytes, and strings are lists of characters, one for each byte. An access
outside the object it indexes is the fault `outOfBounds`, so that "stays in bounds" is a statement
about the model and not a convention of it. -/

namespace Kayles

/-- The ways a computation of the program can fail to return. -/
inductive Fault where
  /-- an access outside the object it indexes -/
  | outOfBounds
  /-- a loop still running when its turns are spent -/
  | outOfFuel
  deriving DecidableEq, Repr

/-- The ways a run of a program can end other than by returning. -/
inductive Exit where
  /-- `fatal`, with the text it prints -/
  | fatal (message : String)
  /-- `syserr`, with the text it prints -/
  | syserr (message : String)
  | fault (f : Fault)
  deriving DecidableEq, Repr

/-- A buffer of `char` or `uint8_t`. -/
abbrev Bytes := List UInt8

/-- Maximum size of a single UDP receive buffer. -/
abbrev bufferSize : ℕ := 1000

/-- Byte length of a WRONG_MESSAGE response. -/
abbrev wrongMsgLen : ℕ := 14

/-- Status code of a WRONG_MESSAGE response. -/
abbrev errorStatus : UInt8 := 255

/-- Offset of the status code within a WRONG_MESSAGE response. -/
abbrev messageLen : ℕ := 12

/-- `buf[i]`. -/
def loadByte (buf : Bytes) (i : ℕ) : Except Fault UInt8 :=
  match buf[i]? with
  | some b => .ok b
  | none => .error .outOfBounds

/-- `buf[i] = b`. -/
def storeByte (buf : Bytes) (i : ℕ) (b : UInt8) : Except Fault Bytes :=
  if i < buf.length then .ok (buf.set i b) else .error .outOfBounds

/-- `memcpy(dst + off, src, n)`: the destination afterwards. -/
def memcpy (dst : Bytes) (off : ℕ) (src : Bytes) (n : ℕ) : Except Fault Bytes :=
  if off + n ≤ dst.length ∧ n ≤ src.length then
    .ok (dst.take off ++ src.take n ++ dst.drop (off + n))
  else .error .outOfBounds

/-- The host value of the bytes of a `uint32_t` in network order. -/
def ntohl (net : Bytes) : UInt32 := net.foldl (fun val b => val <<< 8 ||| b.toUInt32) 0

/-- The bytes in network order of a host `uint32_t`. -/
def htonl (val : UInt32) : Bytes :=
  [(val >>> 24).toUInt8, (val >>> 16).toUInt8, (val >>> 8).toUInt8, val.toUInt8]

/-- `read_u32`: `memcpy` of four bytes at `buf + offset`, then `ntohl`. -/
def readU32 (buf : Bytes) (offset : ℕ) : Except Fault UInt32 := do
  let val ← memcpy [0, 0, 0, 0] 0 (buf.drop offset) 4
  return ntohl val

/-- `write_u32`: the vector and the advanced offset. -/
def writeU32 (out : Bytes) (off : ℕ) (val : UInt32) : Except Fault (Bytes × ℕ) := do
  let net := htonl val
  let out ← memcpy out off net net.length
  return (out, off + net.length)

/-- The loop of `split_message`, where `s` is what the current `getline` has extracted. At the end
    of the stream a `getline` that has extracted nothing fails, and the loop ends. -/
def extractChunks (delimiter : Char) : List Char → List Char → List (List Char)
  | [], s => if s = [] then [] else [s]
  | c :: tokenStream, s =>
    if c = delimiter then s :: extractChunks delimiter tokenStream []
    else extractChunks delimiter tokenStream (s ++ [c])

/-- `split_message`: the chunks between the delimiters, without an empty one at the end. -/
def splitMessage (message : List Char) (delimiter : Char) : List (List Char) :=
  extractChunks delimiter message []

/-- Returned by `validate_message_format` when no error is found. -/
abbrev noError : Int := -1

/-- `static_cast<int>` of a `size_t`. -/
def sizeToInt (n : ℕ) : Int := (BitVec.ofNat 32 n).toInt

/-- The loop of `validate_message_format` over the parts behind the first one. -/
def firstNonDigit : List (List Char) → ℕ → Int
  | [], _ => noError
  | part :: rest, currentIdx =>
    match part.findIdx? fun c => !c.isDigit with
    | some i => sizeToInt (currentIdx + i)
    -- one more for the separator
    | none => firstNonDigit rest (currentIdx + part.length + 1)

/-- `validate_message_format`: an offset into the buffer, or `NO_ERROR`. A wrong number of parts is
    reported with an offset narrowed to `uint8_t`. -/
def validateMessageFormat (buffer : List Char) (parts : List (List Char))
    (expectedPartsCount : ℕ) : Int :=
  if parts.length ≠ expectedPartsCount then
    if parts.length < expectedPartsCount then (UInt64.ofNat buffer.length).toUInt8.toNat
    else
      -- the offset of the first excess part
      let lengthSum := (parts.take expectedPartsCount).foldl (fun sum part => sum + part.length) 0
      (UInt64.ofNat lengthSum + (UInt64.ofNat expectedPartsCount - 1)).toUInt8.toNat
  else firstNonDigit (parts.drop 1) 0

end Kayles
