import Kayles.Implementation.Server
import Kayles.Proofs.Board

set_option autoImplicit false

/-! # Datagrams and replies

The bytes of a datagram as fields, the bytes of a reply as one list, and the reads and writes of the
handlers reduced to them. A datagram lies in a buffer of 1000 bytes, so no read of a header can leave
it; a reply buffer has the size its writes need, so no write can either. -/

namespace Kayles

/-! ## Fields of a datagram -/

namespace Datagram

/-- The bytes of a message at the offsets of its fields, whatever its length. -/
def msgType (d : Datagram) : UInt8 := d.buf.getD 0 0

/-- The integer in network order at offset `off`. -/
def u32 (d : Datagram) (off : ℕ) : UInt32 := ntohl ((d.buf.drop off).take 4)

def playerId (d : Datagram) : UInt32 := d.u32 offPlayerId

def gameId (d : Datagram) : UInt32 := d.u32 offGameId

def pawnIdx (d : Datagram) : UInt8 := d.buf.getD offPawnIdx 0

/-- The length of each message type. -/
def messageSize (msgType : UInt8) : ℕ :=
  match msgType.toNat with
  | 0 => joinSize
  | 1 => moveSize
  | 2 => moveSize
  | 3 => keepAliveSize
  | _ => giveUpSize

/-- The datagram has a type byte, and it is one of the five. -/
def Known (d : Datagram) : Prop := d.len ≠ 0 ∧ d.msgType ≤ 4

instance (d : Datagram) : Decidable d.Known := inferInstanceAs (Decidable (_ ∧ _))

/-- The datagram passes the checks that need no lookup. -/
structure WellFormed (d : Datagram) : Prop where
  known : d.Known
  len_eq : d.len = messageSize d.msgType
  player : d.playerId ≠ 0

instance (d : Datagram) : Decidable d.WellFormed :=
  decidable_of_iff (d.Known ∧ d.len = messageSize d.msgType ∧ d.playerId ≠ 0)
    ⟨fun ⟨h₁, h₂, h₃⟩ => ⟨h₁, h₂, h₃⟩, fun ⟨h₁, h₂, h₃⟩ => ⟨h₁, h₂, h₃⟩⟩

/-- The byte of a message that is not well-formed at which its check fails. -/
def errorIndex (d : Datagram) : UInt8 :=
  if ¬ d.Known then 0
  else if d.len ≠ messageSize d.msgType then UInt8.ofNat (min d.len (messageSize d.msgType))
  else 1

/-- A well-formed JOIN. -/
def IsJoin (d : Datagram) : Prop := d.WellFormed ∧ d.msgType = 0

/-- A well-formed MOVE_1 or MOVE_2. -/
def IsMove (d : Datagram) : Prop := d.WellFormed ∧ (d.msgType = 1 ∨ d.msgType = 2)

/-- A well-formed GIVE_UP. -/
def IsGiveUp (d : Datagram) : Prop := d.WellFormed ∧ d.msgType = 4

/-- A well-formed KEEP_ALIVE. -/
def IsKeepAlive (d : Datagram) : Prop := d.WellFormed ∧ d.msgType = 3

instance (d : Datagram) : Decidable d.IsJoin := inferInstanceAs (Decidable (_ ∧ _))
instance (d : Datagram) : Decidable d.IsMove := inferInstanceAs (Decidable (_ ∧ _))
instance (d : Datagram) : Decidable d.IsGiveUp := inferInstanceAs (Decidable (_ ∧ _))
instance (d : Datagram) : Decidable d.IsKeepAlive := inferInstanceAs (Decidable (_ ∧ _))

/-- The pawns a move handler computes from the message, in its own 8-bit arithmetic. -/
def movePawns (d : Datagram) : List UInt8 :=
  if d.msgType = 1 then [d.pawnIdx] else [d.pawnIdx, d.pawnIdx + 1]

theorem movePawns_ne_nil (d : Datagram) : d.movePawns ≠ [] := by
  unfold movePawns
  split <;> simp

/-- The datagram `bytes` received into a buffer that was all zero. -/
def ofBytes (bytes : Bytes) (h : bytes.length ≤ bufferSize - 1) : Datagram where
  buf := bytes ++ List.replicate (bufferSize - bytes.length) 0
  len := bytes.length
  buf_length := by
    rw [List.length_append, List.length_replicate]
    omega
  len_le := h

end Datagram

/-! ## Reading the buffer -/

theorem memcpy_of_le {dst src : Bytes} {off n : ℕ} (hdst : off + n ≤ dst.length)
    (hsrc : n ≤ src.length) :
    memcpy dst off src n = .ok (dst.take off ++ src.take n ++ dst.drop (off + n)) :=
  if_pos ⟨hdst, hsrc⟩

theorem Datagram.loadByte_buf (d : Datagram) {i : ℕ} (hi : i < bufferSize) :
    loadByte d.buf i = .ok (d.buf.getD i 0) := by
  have hlt : i < d.buf.length := by rwa [d.buf_length]
  rw [loadByte_of_lt hlt]
  simp [hlt]

theorem readU32_of_le {buf : Bytes} {off : ℕ} (h : off + 4 ≤ buf.length) :
    readU32 buf off = .ok (ntohl ((buf.drop off).take 4)) := by
  have hsrc : 4 ≤ (buf.drop off).length := by
    rw [List.length_drop]
    omega
  rw [readU32, memcpy_of_le (by simp) hsrc]
  simp [bind, Except.bind, pure, Except.pure]

theorem Datagram.readU32_buf (d : Datagram) {off : ℕ} (hoff : off + 4 ≤ bufferSize) :
    readU32 d.buf off = .ok (d.u32 off) :=
  readU32_of_le (by rwa [d.buf_length])

/-! ## Copies

The buffer is reused, so what lies behind the received bytes of two copies may differ. -/

/-- The same bytes were received. -/
structure Datagram.SameBytes (d d' : Datagram) : Prop where
  len : d'.len = d.len
  bytes : d'.buf.take d.len = d.buf.take d.len

namespace Datagram.SameBytes

variable {d d' : Datagram}

theorem getD (h : d.SameBytes d') {i : ℕ} (hi : i < d.len) : d'.buf.getD i 0 = d.buf.getD i 0 := by
  have hget := congrArg (fun l => l[i]?) h.bytes
  simp only [List.getElem?_take_of_lt hi] at hget
  rw [List.getD_eq_getElem?_getD, List.getD_eq_getElem?_getD, hget]

theorem u32 (h : d.SameBytes d') {off : ℕ} (hoff : off + 4 ≤ d.len) : d'.u32 off = d.u32 off := by
  have htake : ∀ buf : Bytes, (buf.drop off).take 4 = ((buf.take d.len).drop off).take 4 := by
    intro buf
    rw [List.drop_take, List.take_take, Nat.min_eq_left (by omega)]
  rw [Datagram.u32, Datagram.u32, htake, h.bytes, ← htake]

theorem msgType (h : d.SameBytes d') (hlen : d.len ≠ 0) : d'.msgType = d.msgType :=
  h.getD (Nat.pos_of_ne_zero hlen)

/-- A copy of a well-formed message is well-formed. -/
theorem wellFormed (h : d.SameBytes d') (hwf : d.WellFormed) : d'.WellFormed := by
  have htype := h.msgType hwf.known.1
  have hsize : 5 ≤ d.len := by
    rw [hwf.len_eq]
    unfold messageSize
    split <;> decide
  refine ⟨⟨?_, ?_⟩, ?_, ?_⟩
  · rw [h.len]
    exact hwf.known.1
  · rw [htype]
    exact hwf.known.2
  · rw [h.len, htype]
    exact hwf.len_eq
  · rw [Datagram.playerId, h.u32 hsize]
    exact hwf.player

theorem isMove (h : d.SameBytes d') (hmove : d.IsMove) : d'.IsMove :=
  ⟨h.wellFormed hmove.1, (h.msgType hmove.1.known.1).symm ▸ hmove.2⟩

theorem isGiveUp (h : d.SameBytes d') (hgive : d.IsGiveUp) : d'.IsGiveUp :=
  ⟨h.wellFormed hgive.1, (h.msgType hgive.1.known.1).trans hgive.2⟩

theorem movePawns (h : d.SameBytes d') (hmove : d.IsMove) : d'.movePawns = d.movePawns := by
  have hlen : offPawnIdx < d.len := by
    rw [hmove.1.len_eq]
    rcases hmove.2 with ht | ht <;> rw [ht] <;> decide
  have hpawn : d'.pawnIdx = d.pawnIdx := h.getD hlen
  rw [Datagram.movePawns, Datagram.movePawns, hpawn, h.msgType hmove.1.known.1]

theorem isKeepAlive (h : d.SameBytes d') (hkeep : d.IsKeepAlive) : d'.IsKeepAlive :=
  ⟨h.wellFormed hkeep.1, (h.msgType hkeep.1.known.1).trans hkeep.2⟩

theorem symm (h : d.SameBytes d') : d'.SameBytes d where
  len := h.len.symm
  bytes := by
    rw [h.len]
    exact h.bytes.symm

theorem errorIndex (h : d.SameBytes d') (hlen : d.len ≠ 0) : d'.errorIndex = d.errorIndex := by
  have hknown : d'.Known ↔ d.Known := by
    unfold Datagram.Known
    rw [h.len, h.msgType hlen]
  simp only [Datagram.errorIndex, hknown, h.len, h.msgType hlen]

end Datagram.SameBytes

/-! ## Network order -/

theorem shiftRight_or_toUInt8 (val : UInt32) : val >>> 8 <<< 8 ||| val.toUInt8.toUInt32 = val := by
  apply UInt32.toBitVec_inj.1
  ext i hi
  simp only [UInt32.toBitVec_or, UInt32.toBitVec_shiftLeft, UInt32.toBitVec_shiftRight,
    UInt8.toBitVec_toUInt32, UInt32.toBitVec_toUInt8]
  by_cases h : i < 8
  · simp [h, BitVec.getElem_setWidth, BitVec.getLsbD_eq_getElem hi]
  · have hshift : 8 + (i - 8) = i := by omega
    simp [h, hshift, BitVec.getElem_setWidth, BitVec.getLsbD_eq_getElem hi]

theorem shiftRight_eight (val : UInt32) :
    val >>> 8 >>> 8 = val >>> 16 ∧ val >>> 16 >>> 8 = val >>> 24 ∧ val >>> 24 >>> 8 = 0 := by
  refine ⟨?_, ?_, ?_⟩ <;>
  · apply UInt32.toBitVec_inj.1
    ext i hi
    simp

/-- `ntohl` is the inverse of `htonl`. -/
@[simp] theorem ntohl_htonl (val : UInt32) : ntohl (htonl val) = val := by
  obtain ⟨h16, h24, h32⟩ := shiftRight_eight val
  have htop : (0 : UInt32) <<< 8 ||| (val >>> 24).toUInt8.toUInt32 = val >>> 24 := by
    have hbyte := shiftRight_or_toUInt8 (val >>> 24)
    rwa [h32] at hbyte
  simp only [ntohl, htonl, List.foldl_cons, List.foldl_nil]
  rw [htop, ← h24, shiftRight_or_toUInt8, ← h16, shiftRight_or_toUInt8, shiftRight_or_toUInt8]

/-! ## Reading back

A field is read behind the fields before it. -/

theorem readU32_append (out rest : Bytes) (val : UInt32) (off : ℕ) (hoff : off = out.length) :
    readU32 (out ++ (htonl val ++ rest)) off = .ok val := by
  have hsrc : 4 ≤ (htonl val ++ rest).length := by
    rw [List.length_append]
    exact Nat.le_add_right 4 _
  rw [hoff, readU32, List.drop_left, memcpy_of_le (by decide) hsrc]
  have htake : (htonl val ++ rest).take 4 = htonl val := List.take_left' rfl
  rw [htake]
  exact congrArg Except.ok (ntohl_htonl val)

theorem loadByte_append (out rest : Bytes) (b : UInt8) (off : ℕ) (hoff : off = out.length) :
    loadByte (out ++ b :: rest) off = .ok b := by
  rw [loadByte_eq_ok, hoff, List.getElem?_append_right (Nat.le_refl _), Nat.sub_self]
  rfl

/-! ## Replies -/

/-- The bytes of a MSG_WRONG_MSG: up to twelve echoed bytes padded with zeros, the error status and
    the error index. -/
def Datagram.wrongMessage (d : Datagram) (errorIndex : UInt8) : Bytes :=
  d.buf.take (min d.len messageLen) ++ List.replicate (messageLen - min d.len messageLen) 0 ++
    [errorStatus, errorIndex]

/-- The bytes of a MSG_GAME_STATE. -/
def gameStateMessage (g : GameState) (gameId : UInt32) : Bytes :=
  htonl gameId ++ htonl g.playerAId ++ htonl g.playerBId ++ [g.status, g.maxPawn] ++ g.pawnRow

theorem storeByte_append (out : Bytes) (off : ℕ) (x b : UInt8) (rest : Bytes)
    (hoff : off = out.length) :
    storeByte (out ++ x :: rest) off b = .ok (out ++ b :: rest) := by
  subst hoff
  rw [storeByte_of_lt (by simp)]
  simp

theorem memcpy_append (out old src rest : Bytes) (off n : ℕ) (hoff : off = out.length)
    (hold : old.length = n) (hsrc : n ≤ src.length) :
    memcpy (out ++ (old ++ rest)) off src n = .ok (out ++ (src.take n ++ rest)) := by
  subst hoff hold
  rw [memcpy_of_le (by simp) hsrc]
  simp

theorem Datagram.echo_le (d : Datagram) : min d.len messageLen ≤ d.buf.length := by
  rw [d.buf_length]
  exact Nat.le_trans (Nat.min_le_right _ _) (by decide)

theorem Datagram.length_echo (d : Datagram) : (d.buf.take (min d.len messageLen) ++
    List.replicate (messageLen - min d.len messageLen) (0 : UInt8)).length = messageLen := by
  rw [List.length_append, List.length_take_of_le d.echo_le, List.length_replicate]
  exact Nat.add_sub_of_le (Nat.min_le_right _ _)

theorem handleWrongMessage_eq (d : Datagram) (errorIndex : UInt8) :
    handleWrongMessage d.buf d.len errorIndex = .ok (d.wrongMessage errorIndex) := by
  have hresponse : List.replicate wrongMsgLen (0 : UInt8) = [] ++
      (List.replicate (min d.len messageLen) 0 ++
        (List.replicate (messageLen - min d.len messageLen) 0 ++ [0, 0])) := by
    rw [show [(0 : UInt8), 0] = List.replicate 2 0 from rfl, List.replicate_append_replicate,
      List.replicate_append_replicate, List.nil_append]
    congr 1
    show 14 = min d.len 12 + (12 - min d.len 12 + 2)
    omega
  have hecho := d.length_echo.symm
  rw [handleWrongMessage, hresponse,
    memcpy_append [] _ d.buf _ 0 _ rfl List.length_replicate d.echo_le, List.nil_append,
    ← List.append_assoc]
  simp only [bind, Except.bind]
  rw [storeByte_append _ _ 0 errorStatus [0] hecho]
  simp only
  rw [List.append_cons, storeByte_append _ _ 0 errorIndex [] (by rw [List.length_append, ← hecho]; rfl)]
  simp [Datagram.wrongMessage]

theorem writeU32_append (out rest : Bytes) (off : ℕ) (val : UInt32) (hoff : off = out.length) :
    writeU32 (out ++ (0 :: 0 :: 0 :: 0 :: rest)) off val
      = .ok (out ++ (htonl val ++ rest), off + 4) := by
  have hcopy := memcpy_append out [0, 0, 0, 0] (htonl val) rest off 4 hoff rfl (Nat.le_refl 4)
  simp only [writeU32, bind, Except.bind]
  rw [show (htonl val).length = 4 from rfl,
    show out ++ 0 :: 0 :: 0 :: 0 :: rest = out ++ ([0, 0, 0, 0] ++ rest) from rfl, hcopy]
  rfl

theorem sendGameState_eq (g : GameState) (gameId : UInt32) :
    sendGameState g gameId = .ok (gameStateMessage g gameId) := by
  have hzero : List.replicate (basicMsgSize + g.pawnRow.length) (0 : UInt8)
      = [] ++ (0 :: 0 :: 0 :: 0 :: 0 :: 0 :: 0 :: 0 :: 0 :: 0 :: 0 :: 0 :: 0 :: 0 ::
          List.replicate g.pawnRow.length 0) := by
    rw [← List.replicate_append_replicate]
    rfl
  simp only [sendGameState, hzero, bind, Except.bind]
  rw [writeU32_append [] _ 0 gameId rfl]
  simp only
  rw [List.nil_append, writeU32_append (htonl gameId) _ (0 + 4) g.playerAId rfl]
  simp only
  rw [← List.append_assoc, writeU32_append (htonl gameId ++ htonl g.playerAId) _
    (0 + 4 + 4) g.playerBId rfl]
  simp only
  rw [← List.append_assoc, storeByte_append _ (0 + 4 + 4 + 4) 0 g.status _ rfl]
  simp only
  rw [List.append_cons, storeByte_append _ (0 + 4 + 4 + 4 + 1) 0 g.maxPawn _ rfl]
  simp only
  have hrow := memcpy_append (htonl gameId ++ htonl g.playerAId ++ htonl g.playerBId ++
    [g.status, g.maxPawn]) (List.replicate g.pawnRow.length 0) g.pawnRow [] 14 _ rfl
    List.length_replicate (Nat.le_refl _)
  simpa [gameStateMessage, List.append_assoc] using hrow

end Kayles
