import Kayles.Implementation.Client
import Kayles.Proofs.Packing
import Kayles.Proofs.Replies

set_option autoImplicit false

/-! # What the client displays

The two kinds of reply share one format without a frame: the client tells them apart by the length
and one byte, and expands the bits that the server has packed. What the server sends is displayed as
it was meant, whatever the rest of the client's buffer holds, as long as the game has its row. -/

namespace Kayles

/-! ## The number of board bytes -/

section PawnsBytes

variable {n : ℕ}

/-- The subtraction does not wrap on a datagram that has a header. -/
theorem toNat_pawnsBytes (hn : 14 ≤ n) (hmax : n ≤ 999) :
    (UInt64.ofNat n - 14).toNat = n - 14 := by
  have hofNat : (UInt64.ofNat n).toNat = n :=
    UInt64.toNat_ofNat_of_lt' (by show n < 2 ^ 64; omega)
  have hle : (14 : UInt64) ≤ UInt64.ofNat n := by
    rw [UInt64.le_iff_toNat_le, hofNat]
    exact hn
  rw [UInt64.toNat_sub_of_le _ _ hle, hofNat]
  rfl

theorem pawnsBytes_pos_iff (hn : 14 ≤ n) (hmax : n ≤ 999) :
    0 < UInt64.ofNat n - 14 ↔ n ≠ 14 := by
  rw [UInt64.lt_iff_toNat_lt, toNat_pawnsBytes hn hmax, UInt64.toNat_zero]
  omega

end PawnsBytes

/-! ## The reply to a message that is accepted -/

/-- The datagram of `send_game_state` fits the client's buffer and is displayed as the game that was
    sent, whatever the bytes behind it. -/
def GameDisplayed (id : UInt32) (g : GameState) : Prop :=
  ∃ m, sendGameState g id = .ok m ∧ m.length ≤ bufferSize - 1 ∧
    ∀ recvBuffer : Bytes, recvBuffer.length = bufferSize → m <+: recvBuffer →
      ∃ board, receiveAndDisplayMessage recvBuffer (.received m.length) =
          .ok (.gameState id g.playerAId g.playerBId g.status g.maxPawn board) ∧
        board.length = g.maxPawn.toNat + 1 ∧
        ∀ i, i ≤ g.maxPawn.toNat →
          board[i]? = some (if g.Standing i then pawnStanding else pawnKnockedDown)

section Game

variable {g : GameState} {id : UInt32}

theorem length_gameStateMessage (g : GameState) (id : UInt32) :
    (gameStateMessage g id).length = 14 + g.pawnRow.length := by
  rw [gameStateMessage, List.length_append]
  rfl

/-- A game state is never taken for an error report. -/
theorem isWrongMessage_gameStateMessage (h : g.status ∈ statuses) (rest : Bytes) :
    isWrongMessage (gameStateMessage g id ++ rest) (gameStateMessage g id).length = .ok false := by
  unfold isWrongMessage
  by_cases hlen : (gameStateMessage g id).length = wrongMsgLen
  · have hload : loadByte (gameStateMessage g id ++ rest) messageLen = .ok g.status := rfl
    have hstatus : (g.status == errorStatus) = false := by
      rw [beq_eq_false_iff_ne]
      intro heq
      rw [heq] at h
      exact absurd h (by decide)
    rw [if_pos hlen, hload]
    simp [bind, Except.bind, pure, Except.pure, hstatus]
  · rw [if_neg hlen]

theorem gameStateMessage_append (g : GameState) (id : UInt32) (rest : Bytes) :
    gameStateMessage g id ++ rest = htonl id ++ (htonl g.playerAId ++ (htonl g.playerBId ++
      g.status :: g.maxPawn :: (g.pawnRow ++ rest))) := by
  simp only [gameStateMessage, List.append_assoc, List.cons_append, List.nil_append]

/-- The row is what lies behind the header. -/
theorem assign_gameStateMessage (g : GameState) (id : UInt32) (rest : Bytes) :
    assign (gameStateMessage g id ++ rest) offStatePawns g.pawnRow.length = .ok g.pawnRow := by
  have hle : offStatePawns + g.pawnRow.length ≤ (gameStateMessage g id ++ rest).length := by
    rw [List.length_append, length_gameStateMessage]
    exact Nat.le_add_right _ _
  have hdrop : (gameStateMessage g id ++ rest).drop offStatePawns = g.pawnRow ++ rest := by
    rw [gameStateMessage_append]
    rfl
  rw [assign, if_pos hle, hdrop, List.take_left' rfl]

/-- The header is read back field by field. -/
theorem displayGameState_eq (g : GameState) (id : UInt32) (rest : Bytes)
    (hlen : g.pawnRow.length < 986) :
    displayGameState (gameStateMessage g id ++ rest) (gameStateMessage g id).length =
      if g.pawnRow = [] then .ok (.gameState id g.playerAId g.playerBId g.status g.maxPawn [])
      else (serializePawnRow g).map
        (Display.gameState id g.playerAId g.playerBId g.status g.maxPawn) := by
  have hid : readU32 (gameStateMessage g id ++ rest) offStateGameId = .ok id := by
    rw [gameStateMessage_append]
    exact readU32_append [] _ id 0 rfl
  have ha : readU32 (gameStateMessage g id ++ rest) offStatePlayerA = .ok g.playerAId := by
    rw [gameStateMessage_append]
    exact readU32_append (htonl id) _ g.playerAId 4 rfl
  have hb : readU32 (gameStateMessage g id ++ rest) offStatePlayerB = .ok g.playerBId := by
    rw [gameStateMessage_append]
    exact readU32_append (htonl id ++ htonl g.playerAId) _ g.playerBId 8 rfl
  have hstatus : loadByte (gameStateMessage g id ++ rest) offStateStatus = .ok g.status := by
    rw [gameStateMessage_append]
    exact loadByte_append (htonl id ++ htonl g.playerAId ++ htonl g.playerBId) _ g.status 12 rfl
  have hmax : loadByte (gameStateMessage g id ++ rest) offStateMaxPawn = .ok g.maxPawn := by
    rw [gameStateMessage_append]
    exact loadByte_append (htonl id ++ htonl g.playerAId ++ htonl g.playerBId ++ [g.status]) _
      g.maxPawn 13 rfl
  have hmessage := length_gameStateMessage g id
  have hheader : 14 ≤ (gameStateMessage g id).length := by omega
  have hbuffer : (gameStateMessage g id).length ≤ 999 := by omega
  have hbytes : (UInt64.ofNat (gameStateMessage g id).length - 14).toNat = g.pawnRow.length := by
    rw [toNat_pawnsBytes hheader hbuffer]
    omega
  have hpos : 0 < UInt64.ofNat (gameStateMessage g id).length - 14 ↔ g.pawnRow ≠ [] := by
    rw [pawnsBytes_pos_iff hheader hbuffer, ← List.length_pos_iff]
    omega
  unfold displayGameState
  simp only [hid, ha, hb, hstatus, hmax, bind, Except.bind, hpos, hbytes,
    assign_gameStateMessage, pure, Except.pure]
  by_cases hrow : g.pawnRow = []
  · rw [if_neg (not_not.2 hrow), if_pos hrow]
  · rw [if_pos hrow, if_neg hrow]
    rfl

theorem gameDisplayed_of_fits (hstatus : g.status ∈ statuses) (hfits : g.RowFits) :
    GameDisplayed id g := by
  have hmax : g.maxPawn.toNat < 256 := g.maxPawn.toNat_lt
  have hlen : g.pawnRow.length = g.maxPawn.toNat / 8 + 1 := hfits
  have hne : g.pawnRow ≠ [] := by
    rw [← List.length_pos_iff, hlen]
    exact Nat.succ_pos _
  refine ⟨gameStateMessage g id, sendGameState_eq g id, ?_, ?_⟩
  · rw [length_gameStateMessage]
    show _ ≤ 999
    omega
  · intro recvBuffer _ hprefix
    obtain ⟨rest, rfl⟩ := hprefix
    refine ⟨g.boardString, ?_, g.length_boardString, fun i hi => GameState.getElem?_boardString hi⟩
    have hrow := serializePawnRow_eq (g := g) (by omega)
    have hdisplay := displayGameState_eq g id rest (by omega)
    rw [if_neg hne, hrow] at hdisplay
    simp [receiveAndDisplayMessage, displayMessage, isWrongMessage_gameStateMessage hstatus, bind,
      Except.bind, hdisplay, Except.map, Except.mapError]

/-- Without a row there is no board to display. -/
theorem not_gameDisplayed_of_nil (hstatus : g.status ∈ statuses) (hrow : g.pawnRow = []) :
    ¬ GameDisplayed id g := by
  intro hsent
  obtain ⟨m, hm, hlen, hdisplayed⟩ := hsent
  obtain rfl : gameStateMessage g id = m := Except.ok.inj ((sendGameState_eq g id).symm.trans hm)
  let rest : Bytes := List.replicate (bufferSize - (gameStateMessage g id).length) 0
  have hbuffer : (gameStateMessage g id ++ rest).length = bufferSize := by
    rw [List.length_append, List.length_replicate]
    exact Nat.add_sub_of_le (Nat.le_trans hlen (Nat.sub_le _ _))
  obtain ⟨board, hboard, hlength, -⟩ := hdisplayed _ hbuffer (List.prefix_append _ _)
  have hdisplay := displayGameState_eq g id rest (by rw [hrow]; decide)
  rw [if_pos hrow] at hdisplay
  have hnil : [] = board := by
    simpa [receiveAndDisplayMessage, displayMessage, isWrongMessage_gameStateMessage hstatus, bind,
      Except.bind, hdisplay, Except.mapError] using hboard
  rw [← hnil] at hlength
  exact absurd hlength (Nat.succ_ne_zero _).symm

end Game

/-! ## The reply to a message that is refused -/

/-- The datagram of `handle_wrong_message` fits the client's buffer and is displayed as an error
    report with the bytes and the index that were sent, whatever the bytes behind it. -/
def WrongDisplayed (d : Datagram) (e : UInt8) : Prop :=
  ∃ m, handleWrongMessage d.buf d.len e = .ok m ∧ m.length ≤ bufferSize - 1 ∧
    ∀ recvBuffer : Bytes, recvBuffer.length = bufferSize → m <+: recvBuffer →
      receiveAndDisplayMessage recvBuffer (.received m.length) =
        .ok (.wrongMessage
          (d.buf.take (min d.len 12) ++ List.replicate (12 - min d.len 12) 0) e)

/-- The bytes before the status are read back one by one. -/
theorem mapM_loadByte_append (out rest : Bytes) :
    (List.range out.length).mapM (loadByte (out ++ rest)) = .ok out := by
  have hread : ∀ i ∈ List.range out.length, loadByte (out ++ rest) i = .ok (out.getD i 0) := by
    intro i hi
    have hlt := List.mem_range.1 hi
    rw [loadByte_eq_ok, List.getElem?_append_left hlt, List.getD_eq_getElem?_getD,
      List.getElem?_eq_getElem hlt]
    rfl
  rw [Fallible.mapM_eq_ok hread]
  congr 1
  refine List.ext_getElem (by simp) fun i hi _ => ?_
  simp at hi
  simp [hi]

theorem wrongDisplayed (d : Datagram) (e : UInt8) : WrongDisplayed d e := by
  have hecho := d.length_echo
  refine ⟨d.wrongMessage e, handleWrongMessage_eq d e, ?_, ?_⟩
  · rw [(isWrongMsg_wrongMessage d e).1]
    decide
  · intro recvBuffer _ hprefix
    obtain ⟨rest, rfl⟩ := hprefix
    rw [(isWrongMsg_wrongMessage d e).1, Datagram.wrongMessage, List.append_assoc]
    generalize d.buf.take (min d.len messageLen) ++
      List.replicate (messageLen - min d.len messageLen) 0 = echo at hecho
    have hstatus := loadByte_append echo (e :: rest) errorStatus messageLen hecho.symm
    have hindex : loadByte (echo ++ ([errorStatus, e] ++ rest)) (messageLen + 1) = .ok e := by
      have happ := loadByte_append (echo ++ [errorStatus]) rest e (messageLen + 1)
        (by rw [List.length_append, hecho]; rfl)
      rwa [List.append_assoc] at happ
    have hread := mapM_loadByte_append echo ([errorStatus, e] ++ rest)
    rw [hecho] at hread
    simp only [List.cons_append, List.nil_append] at hindex hread ⊢
    simp [receiveAndDisplayMessage, displayMessage, isWrongMessage, displayWrongMessage, bind,
      Except.bind, hstatus, hindex, hread, pure, Except.pure, Except.mapError]

/-! ## Games that have their row -/

/-- The event is a JOIN for which an entry is inserted whose row then cannot be copied. -/
def RowCopyFails (s : ServerState) : Event → Prop
  | .sweep _ => False
  | .datagram _ alloc d => d.IsJoin ∧ s.NoneWaiting ∧ s.HasRoom ∧
      alloc.templateCopy = true ∧ alloc.mapNode = true ∧ alloc.rowCopy = false

/-- The transitions in which no copy of a row fails. -/
def RowStep (srv : Server) (s : ServerState) (l : Label) (s' : ServerState) : Prop :=
  ¬ RowCopyFails s l.event ∧ Step srv s l s'

/-- Every game has a row. -/
def HasRows (s : ServerState) : Prop :=
  ∀ id g, s.activeGames.lookup id = some g → g.pawnRow ≠ []

section Rows

variable {srv : Server} {tmpl : GameState} {now : UInt64} {alloc : Allocation} {d : Datagram}
  {s s' : ServerState} {l : Label} {out : Output}

theorem Handling.hasRows (h : Handling tmpl now alloc d s s' out) (htmpl : tmpl.pawnRow ≠ [])
    (hno : ¬ RowCopyFails s (.datagram now alloc d)) (hrows : HasRows s) : HasRows s' := by
  have hinsert : ∀ {k : UInt32} {g : GameState}, g.pawnRow ≠ [] →
      ∀ id g', (s.activeGames.insert k g).lookup id = some g' → g'.pawnRow ≠ [] := by
    intro k g hg id g' hg'
    rcases lookup_insert_cases hg' with ⟨-, rfl⟩ | ⟨-, hold⟩
    · exact hg
    · exact hrows id g' hold
  cases h with
  | seated id g _ hg _ =>
      have hrow : (g.seat d.playerId now).pawnRow ≠ [] := hrows id g hg
      exact hinsert hrow
  | unfinished id hj hw hroom _ halloc => exact absurd ⟨hj, hw, hroom, halloc⟩ hno
  | created id _ _ _ _ _ =>
      have hrow : (tmpl.open d.playerId now).pawnRow ≠ [] := htmpl
      exact hinsert hrow
  | moved g _ hg _ _ _ =>
      have hlen : (g.afterMove d.movePawns now).pawnRow.length = g.pawnRow.length :=
        length_clearPawns d.movePawns g.pawnRow
      refine hinsert (List.ne_nil_of_length_pos ?_)
      rw [hlen]
      exact List.length_pos_iff.2 (hrows _ g hg)
  | gaveUp g _ hg _ =>
      have hrow : (g.afterGiveUp d.playerId now).pawnRow ≠ [] := hrows _ g hg
      exact hinsert hrow
  | keptAlive g _ hg _ =>
      have hrow : (g.touch now).pawnRow ≠ [] := hrows _ g hg
      exact hinsert hrow
  | _ => exact hrows

theorem RowStep.hasRows (h : RowStep srv s l s') (hrows : HasRows s) : HasRows s' := by
  have htmpl : srv.template.pawnRow ≠ [] := by
    rw [← List.length_pos_iff, show srv.template.pawnRow.length = _ from srv.isBoardOf.fits]
    exact Nat.succ_pos _
  obtain ⟨hno, hstep⟩ := h
  obtain ⟨event, out⟩ := l
  cases event with
  | sweep now =>
      have hsweep : Sweeps srv now s s' out := hstep
      exact fun id g hg => hrows id g (hsweep.lookup_eq_some.1 hg).1
  | datagram now alloc d =>
      have hhandles : Handles srv now alloc d s s' out := hstep
      exact hhandles.handling.hasRows htmpl hno hrows

theorem CompletedStep.rowStep (h : CompletedStep srv s l s') : RowStep srv s l s' := by
  obtain ⟨halloc, hstep⟩ := h
  refine ⟨fun hfails => ?_, hstep⟩
  obtain ⟨event, out⟩ := l
  cases event with
  | sweep now => exact hfails
  | datagram now alloc d =>
      have hcopy : alloc.rowCopy = true := halloc.2.2
      rw [hfails.2.2.2.2.2] at hcopy
      exact Bool.noConfusion hcopy

end Rows

/-- What the client displays of a game, in terms of its row. -/
theorem Reachable.gameDisplayed_iff {srv : Server} {s : ServerState} (hs : Reachable srv s)
    {id : UInt32} {g : GameState} (hg : s.activeGames.lookup id = some g) :
    GameDisplayed id g ↔ g.pawnRow ≠ [] := by
  have hentry := hs.entryInv hg
  constructor
  · intro hdisplayed hrow
    exact not_gameDisplayed_of_nil hentry.status hrow hdisplayed
  · intro hrow
    exact gameDisplayed_of_fits hentry.status (hentry.row hrow)

/-- **The reply formats** of the server are read back by the client: every game of every run in
    which no copy of a row fails, and in any run every game that has its row; and every error
    report. -/
theorem reply_round_trip (srv : Server) :
    (∀ s, LTS.Reachable (RowStep srv) .initial s →
      ∀ id g, s.activeGames.lookup id = some g → GameDisplayed id g) ∧
    (∀ s, Reachable srv s →
      ∀ id g, s.activeGames.lookup id = some g → (GameDisplayed id g ↔ g.pawnRow ≠ [])) ∧
    ∀ d e, WrongDisplayed d e := by
  refine ⟨fun s hs id g hg => ?_, fun s hs id g hg => hs.gameDisplayed_iff hg, wrongDisplayed⟩
  have hrows : HasRows s := by
    refine hs.invariant (fun s l s' _ hrows hstep => hstep.hasRows hrows) ?_
    intro k g' hg'
    simp [ServerState.initial] at hg'
  have hreach : Reachable srv s := hs.mono fun _ _ _ hstep => hstep.2
  exact (hreach.gameDisplayed_iff hg).2 (hrows id g hg)

theorem reply_round_trip_started :
    GameDisplayed 1 ((threePawns.template.open 7 0).seat 9 0) ∧ WrongDisplayed (.join 7) 4 := by
  have hs := reachable_started threePawns (p := 7) (q := 9) (by decide) (by decide) 0
  obtain ⟨hgames, -, hwrong⟩ := reply_round_trip threePawns
  refine ⟨hgames _ (hs.mono fun _ _ _ hstep => hstep.rowStep) _ _ ?_, hwrong _ _⟩
  exact lookup_started threePawns 7 9 0

/-- Player 7 joins an empty server, and the copy of the row fails. -/
theorem not_all_replies_round_trip : ¬ ∀ (srv : Server) (s : ServerState), Reachable srv s →
    (∀ id g, s.activeGames.lookup id = some g → GameDisplayed id g) ∧
    ∀ d e, WrongDisplayed d e := by
  intro hall
  have hjoin : (Datagram.join 7).IsJoin := Datagram.isJoin_join (by decide)
  have hfree : ServerState.initial.FreeId 1 := freeId_nextGameId Finmap.notMem_empty
  have hhandling : Handling threePawns.template 0 ⟨true, true, false⟩ (.join 7) .initial _ _ :=
    .unfinished 1 hjoin noneWaiting_initial (by decide) hfree ⟨rfl, rfl, rfl⟩
  have hhandles := hhandling.handles fun hmove => absurd hjoin.2 hmove.type_ne
  have hs : Reachable threePawns .initial := LTS.Reachable.refl
  obtain ⟨hgames, -⟩ := hall threePawns _ (hs.handles hhandles)
  exact not_gameDisplayed_of_nil (by decide) rfl (hgames 1 _ (Finmap.lookup_insert _))

end Kayles
