import Kayles.Proofs.Isolation

set_option autoImplicit false

/-! # The reused receive buffer

`run_server` receives every datagram into one buffer and never clears it. A handling reads no byte
behind the ones received: on two buffers that agree on those it is the same, fault by fault and byte
by byte. -/

namespace Kayles

section Buffer

variable {env : Env} {tmpl : GameState} {s : ServerState} {d d' : Datagram}

/-- A message that is refused by its bytes alone. -/
theorem decode_copy_of_malformed (h : d.SameBytes d') (hbad : ¬ d.WellFormed) :
    decodeAndVerifyMessage env tmpl d'.buf d'.len s =
      decodeAndVerifyMessage env tmpl d.buf d.len s := by
  have hbad' : ¬ d'.WellFormed := fun h' => hbad (h.symm.wellFormed h')
  have hindex : d'.errorIndex = d.errorIndex := by
    by_cases hlen : d.len = 0
    · have hunknown : ¬ d.Known := fun hknown => hknown.1 hlen
      have hunknown' : ¬ d'.Known := fun hknown => hknown.1 (h.len.trans hlen)
      rw [Datagram.errorIndex, if_pos hunknown', Datagram.errorIndex, if_pos hunknown]
    · exact h.errorIndex hlen
  rw [decode_of_malformed _ _ _ hbad', decode_of_malformed _ _ _ hbad, hindex, h.wrongMessage]

/-- A JOIN is its player id. -/
theorem decode_copy_of_join (h : d.SameBytes d') (hjoin : d.IsJoin) :
    decodeAndVerifyMessage env tmpl d'.buf d'.len s =
      decodeAndVerifyMessage env tmpl d.buf d.len s := by
  have hlen : d.len = 5 := by
    rw [hjoin.1.len_eq, hjoin.2]
    rfl
  have hjoin' : d'.IsJoin :=
    ⟨h.wellFormed hjoin.1, (h.msgType hjoin.1.known.1).trans hjoin.2⟩
  have hp : d'.playerId = d.playerId := h.u32 (by rw [hlen])
  have hcreate : createReply env tmpl d' s = createReply env tmpl d s := by
    funext id
    simp only [createReply, hp]
  rw [decode_of_join _ _ _ hjoin', decode_of_join _ _ _ hjoin]
  simp only [joinReply, hcreate, hp]

/-- A message that names a game is its player, its game and, for a move, its pawn. -/
theorem decode_copy_of_named (h : d.SameBytes d') (hwf : d.WellFormed) (ht : d.msgType ≠ 0) :
    decodeAndVerifyMessage env tmpl d'.buf d'.len s =
      decodeAndVerifyMessage env tmpl d.buf d.len s := by
  have hn := hwf.names ht
  have haction : gameAction env d' = gameAction env d := by
    funext g
    exact gameAction_copy h hwf hn env.order env.order env.fuel g
  have hreply : ∀ g, gameReply s d' g = gameReply s d g := by
    intro g
    funext r
    cases r with
    | none => simp only [gameReply, h.gameId hn.1]
    | some g' => simp only [gameReply, h.gameId hn.1]
  rw [decode_of_named _ _ _ (h.wellFormed hwf) (hn.copy h).type_ne, decode_of_named _ _ _ hwf ht]
  rw [handleNamed, handleNamed, h.gameId hn.1]
  simp only [haction, hreply, h.playerId hn.1, h.wrongMessage]

theorem decode_copy (h : d.SameBytes d') : decodeAndVerifyMessage env tmpl d'.buf d'.len s =
    decodeAndVerifyMessage env tmpl d.buf d.len s := by
  by_cases hwf : d.WellFormed
  · by_cases ht : d.msgType = 0
    · exact decode_copy_of_join h ⟨hwf, ht⟩
    · exact decode_copy_of_named h hwf ht
  · exact decode_copy_of_malformed h hwf

/-- A copy is handled as the message is. -/
theorem Handles.of_copy {srv : Server} {now : UInt64} {alloc : Allocation} {s' : ServerState}
    {out : Output} (hcopy : d.SameBytes d') (h : Handles srv now alloc d' s s' out) :
    Handles srv now alloc d s s' out := by
  obtain ⟨order, fuel, horder, hdecode⟩ := h
  exact ⟨order, fuel, horder, decode_copy hcopy ▸ hdecode⟩

end Buffer

/-- **No leak.** Two contents of the receive buffer that agree on the bytes received are handled
    alike, in every state: the same next state and the same replies, or the same failure. -/
theorem no_leak (env : Env) (tmpl : GameState) (s : ServerState) {buf buf' : Bytes} {len : ℕ}
    (hbuf : buf.length = bufferSize) (hbuf' : buf'.length = bufferSize) (hlen : len ≤ bufferSize - 1)
    (hsame : buf'.take len = buf.take len) :
    decodeAndVerifyMessage env tmpl buf' len s = decodeAndVerifyMessage env tmpl buf len s := by
  have hcopy : Datagram.SameBytes ⟨buf, len, hbuf, hlen⟩ ⟨buf', len, hbuf', hlen⟩ := ⟨rfl, hsame⟩
  exact decode_copy hcopy

/-- A JOIN of player 7 received over bytes that are all ones, and over zeros. -/
theorem no_leak_join :
    decodeAndVerifyMessage ⟨0, .ok, [], 1⟩ threePawns.template
        (0 :: htonl 7 ++ List.replicate 995 255) 5 .initial =
      decodeAndVerifyMessage ⟨0, .ok, [], 1⟩ threePawns.template
        (0 :: htonl 7 ++ List.replicate 995 0) 5 .initial := by
  refine no_leak _ _ _ ?_ ?_ (by decide) rfl
  · rw [List.length_append, List.length_replicate]
    rfl
  · rw [List.length_append, List.length_replicate]
    rfl

end Kayles
