import Kayles.Proofs.Display

set_option autoImplicit false

/-! # Decoding any datagram

The client decodes whatever it receives. The length of the datagram, the number of its board bytes and
the `max_pawn` it names are independent, and the decoder relates them by a subtraction of `size_t` and
a loop bound: it stays within the datagram only if they fit together. -/

namespace Kayles

/-- The bytes received. -/
def Datagram.received (d : Datagram) : Bytes := d.buf.take d.len

/-- The decoder reads the datagram and nothing else: no access leaves a memory that holds only the
    bytes received, and the number of board bytes is no result of a wrap. -/
structure ReadsOnlyDatagram (d : Datagram) : Prop where
  inBounds : ∃ display, receiveAndDisplayMessage d.received (.received d.len) = .ok display
  noWrap : isWrongMessage d.received d.len = .ok false → 14 ≤ d.len

/-! ## What lies behind the datagram -/

section Frame

variable {buf : Bytes} {n : ℕ}

theorem loadByte_take {i : ℕ} (hi : i < n) : loadByte (buf.take n) i = loadByte buf i := by
  rw [loadByte, loadByte, List.getElem?_take_of_lt hi]

theorem readU32_take {off : ℕ} (hoff : off + 4 ≤ n) (hn : n ≤ buf.length) :
    readU32 (buf.take n) off = readU32 buf off := by
  rw [readU32_of_le (by rw [List.length_take]; omega), readU32_of_le (by omega), List.drop_take,
    List.take_take, Nat.min_eq_left (by omega)]

theorem assign_take {off k : ℕ} (hoff : off + k ≤ n) (hn : n ≤ buf.length) :
    assign (buf.take n) off k = assign buf off k := by
  rw [assign, assign, if_pos (by rw [List.length_take]; omega), if_pos (by omega), List.drop_take,
    List.take_take, Nat.min_eq_left (by omega)]

/-- The decoder of a datagram that has a header does not depend on what lies behind it. -/
theorem displayMessage_take (hn : 14 ≤ n) (hmax : n ≤ 999) (hbuf : n ≤ buf.length) :
    displayMessage (buf.take n) n = displayMessage buf n := by
  have hload : ∀ {i : ℕ}, i < 14 → loadByte (buf.take n) i = loadByte buf i :=
    fun hi => loadByte_take (by omega)
  have hread : ∀ {off : ℕ}, off + 4 ≤ 14 → readU32 (buf.take n) off = readU32 buf off :=
    fun hoff => readU32_take (by omega) hbuf
  have hassign : assign (buf.take n) offStatePawns (UInt64.ofNat n - 14).toNat =
      assign buf offStatePawns (UInt64.ofNat n - 14).toNat := by
    rw [toNat_pawnsBytes hn hmax]
    exact assign_take (by show 14 + _ ≤ n; omega) hbuf
  have hecho : (List.range messageLen).mapM (loadByte (buf.take n)) =
      (List.range messageLen).mapM (loadByte buf) := by
    refine Fallible.mapM_congr fun i hi => hload ?_
    have hlt : i < 12 := List.mem_range.1 hi
    omega
  have hwrong : isWrongMessage (buf.take n) n = isWrongMessage buf n := by
    rw [isWrongMessage, isWrongMessage, hload (by decide)]
  have hreport : displayWrongMessage (buf.take n) = displayWrongMessage buf := by
    rw [displayWrongMessage, displayWrongMessage, hload (by decide), hecho]
  have hstate : displayGameState (buf.take n) n = displayGameState buf n := by
    unfold displayGameState
    simp only [hread (show offStateGameId + 4 ≤ 14 by decide),
      hread (show offStatePlayerA + 4 ≤ 14 by decide),
      hread (show offStatePlayerB + 4 ≤ 14 by decide), hload (show offStateStatus < 14 by decide),
      hload (show offStateMaxPawn < 14 by decide), hassign]
  rw [displayMessage, displayMessage, hwrong, hreport, hstate]

end Frame

/-! ## Well-formed datagrams -/

/-- The row of a game is expanded exactly if it reaches `max_pawn`. -/
theorem exists_serializePawnRow_iff {g : GameState} :
    (∃ board, serializePawnRow g = .ok board) ↔ g.maxPawn.toNat / 8 < g.pawnRow.length := by
  constructor
  · intro hok
    obtain ⟨c, hc⟩ := Fallible.exists_mapM_eq_ok_iff.1 hok g.maxPawn.toNat
      (List.mem_range.2 (Nat.lt_succ_self _))
    by_contra hout
    have hload : loadByte g.pawnRow (g.maxPawn.toNat / 8) = .error .outOfBounds := by
      simp [loadByte, hout]
    simp [bitsPerByte, hload, bind, Except.bind] at hc
  · intro hrow
    exact ⟨_, serializePawnRow_eq hrow⟩

section Received

variable {d : Datagram}

/-- Only a datagram of 14 bytes can be an error report. -/
theorem isWrongMessage_of_ne (h : d.len ≠ 14) : isWrongMessage d.received d.len = .ok false :=
  if_neg h

/-- The header is read, and the rest is the row. -/
theorem exists_displayGameState_iff (h : 14 ≤ d.len) :
    (∃ display, displayGameState d.buf d.len = .ok display) ↔
      d.len = 14 ∨ (d.buf.getD 13 0).toNat / 8 < d.len - 14 := by
  have hmax := d.len_le
  have hbytes := toNat_pawnsBytes h (show d.len ≤ 999 from hmax)
  have hpos := pawnsBytes_pos_iff h (show d.len ≤ 999 from hmax)
  obtain ⟨row, hassign, hlen⟩ : ∃ row, assign d.buf offStatePawns (d.len - 14) = .ok row ∧
      row.length = d.len - 14 := by
    have hbuf := d.buf_length
    refine ⟨_, if_pos ?_, ?_⟩
    · show 14 + (d.len - 14) ≤ d.buf.length
      omega
    · rw [List.length_take, List.length_drop]
      show min (d.len - 14) (d.buf.length - 14) = d.len - 14
      omega
  have hrow := exists_serializePawnRow_iff (g := ⟨0, 0, 0, d.buf.getD 13 0, row, 0⟩)
  unfold displayGameState
  simp only [d.readU32_buf (show offStateGameId + 4 ≤ bufferSize by decide),
    d.readU32_buf (show offStatePlayerA + 4 ≤ bufferSize by decide),
    d.readU32_buf (show offStatePlayerB + 4 ≤ bufferSize by decide),
    d.loadByte_buf (show offStateStatus < bufferSize by decide),
    d.loadByte_buf (show offStateMaxPawn < bufferSize by decide), bind, Except.bind, hpos, hbytes,
    hassign, pure, Except.pure]
  by_cases h14 : d.len = 14
  · rw [if_neg (not_not.2 h14)]
    exact ⟨fun _ => .inl h14, fun _ => ⟨_, rfl⟩⟩
  · simp only [if_pos h14, h14, false_or]
    rw [← hlen]
    refine Iff.trans ?_ hrow
    cases serializePawnRow ⟨0, 0, 0, d.buf.getD 13 0, row, 0⟩ with
    | error e => simp
    | ok board => simp

/-- An error report is displayed, whatever its bytes. -/
theorem exists_displayWrongMessage (d : Datagram) :
    ∃ display, displayWrongMessage d.buf = .ok display := by
  have hbytes : ∀ i ∈ List.range messageLen, ∃ b, loadByte d.buf i = .ok b := by
    intro i hi
    exact ⟨_, d.loadByte_buf (show i < bufferSize from (List.mem_range.1 hi).trans (by decide))⟩
  obtain ⟨echoed, hecho⟩ := Fallible.exists_mapM_eq_ok_iff.2 hbytes
  rw [displayWrongMessage, d.loadByte_buf (by decide), hecho]
  exact ⟨_, rfl⟩

theorem isWrongMessage_cases (d : Datagram) : isWrongMessage d.buf d.len = .ok false ∨
    d.len = 14 ∧ isWrongMessage d.buf d.len = .ok true := by
  by_cases hlen : d.len = wrongMsgLen
  · rw [isWrongMessage, if_pos hlen, d.loadByte_buf (by decide)]
    cases hreport : d.buf.getD messageLen 0 == errorStatus with
    | false => exact .inl (congrArg Except.ok hreport)
    | true => exact .inr ⟨hlen, congrArg Except.ok hreport⟩
  · exact .inl (if_neg hlen)

/-- On a datagram that has a header the decoder fails only in the row. -/
theorem exists_display_iff (h : 14 ≤ d.len) :
    (∃ display, receiveAndDisplayMessage d.received (.received d.len) = .ok display) ↔
      d.len = 14 ∨ (d.buf.getD 13 0).toNat / 8 < d.len - 14 := by
  have hmax := d.len_le
  have htake : displayMessage d.received d.len = displayMessage d.buf d.len :=
    displayMessage_take h hmax (by rw [d.buf_length]; omega)
  have hmap : (∃ display, receiveAndDisplayMessage d.received (.received d.len) = .ok display) ↔
      ∃ display, displayMessage d.buf d.len = .ok display := by
    rw [receiveAndDisplayMessage, htake]
    cases displayMessage d.buf d.len with
    | error e => simp [Except.mapError]
    | ok display => simp [Except.mapError]
  rw [hmap, ← exists_displayGameState_iff h, displayMessage]
  rcases isWrongMessage_cases d with hfalse | ⟨hlen, htrue⟩
  · rw [hfalse]
    exact Iff.rfl
  · rw [htrue]
    exact iff_of_true (exists_displayWrongMessage d) ((exists_displayGameState_iff h).2 (.inl hlen))

end Received

/-- **The decoder** stays within the datagram exactly if it has no board bytes behind its header of 14
bytes, or has enough of them for the `max_pawn` it names. -/
theorem reads_only_datagram_iff (d : Datagram) : ReadsOnlyDatagram d ↔
    d.len = 14 ∨ 14 < d.len ∧ (d.buf.getD 13 0).toNat / 8 < d.len - 14 := by
  constructor
  · intro h
    by_cases hlen : d.len = 14
    · exact .inl hlen
    · have h14 := h.noWrap (isWrongMessage_of_ne hlen)
      exact .inr ⟨by omega, ((exists_display_iff h14).1 h.inBounds).resolve_left hlen⟩
  · intro h
    have h14 : 14 ≤ d.len := by omega
    exact ⟨(exists_display_iff h14).2 (h.imp_right And.right), fun _ => h14⟩

/-- The empty datagram. -/
theorem not_all_read_only_datagram : ¬ ∀ d, ReadsOnlyDatagram d := by
  intro hall
  have h := (hall ⟨List.replicate 1000 0, 0, List.length_replicate, by decide⟩).noWrap rfl
  exact absurd h (by decide)

end Kayles
