import Kayles.Implementation.Programs
import Kayles.Proofs.Creation
import Kayles.Proofs.Replies

set_option autoImplicit false

/-! # What can become of a datagram

The server is single-threaded, so a datagram whose handling does not return takes every game with
it. For any datagram, in any reachable state, the handling returns with its replies sent, or the
system has no memory for a reply or cannot send it, or the handling never returns, or it accesses a
row outside its bounds: `availability` says which datagrams do which. -/

namespace Kayles

/-! ## The outcomes -/

/-- The system does its part: the map of handlers and the replies can be allocated, and the replies
    can be sent. -/
structure TurnCalls.Delivers (c : TurnCalls) : Prop where
  handlersMap : c.handlersMap = true
  response : ∀ size, c.response size = true
  sendto : ∀ message, c.sendto message = true

section Outcomes

variable (srv : Server) (s : ServerState) (d : Datagram)

end Outcomes

/-- A legal move of the player on turn that leaves no pawn of 256. -/
def EndlessMove (s : ServerState) (d : Datagram) : Prop :=
  ∃ g, s.activeGames.lookup d.gameId = some g ∧ d.IsMove ∧ g.OnTurn d.playerId ∧
    g.Legal d.movePawns ∧ g.maxPawn = 255 ∧ ¬ (g.knock d.movePawns).AnyStanding

/-- A move of the player on turn, on a pawn of the board, in a game whose row could not be copied. -/
def RowlessMove (s : ServerState) (d : Datagram) : Prop :=
  ∃ g, s.activeGames.lookup d.gameId = some g ∧ d.IsMove ∧ g.OnTurn d.playerId ∧
    g.pawnRow = [] ∧ d.pawnIdx ≤ g.maxPawn

/-- What can end the program in the handling of `d` in the state `s`, and what it has printed and sent
    until then. The map of handlers is allocated once, and then `ready`. -/
inductive HandlingEnds (srv : Server) (s : ServerState) (c : TurnCalls) (ready : Bool)
    (d : Datagram) : Output → ProgramEnd → Prop
  | handlersMap (hlen : d.len ≠ 0) (hready : ready = false) (hno : c.handlersMap = false) :
      HandlingEnds srv s c ready d {} .badAlloc
  /-- The only reply is the state of a game, and there is no memory for it. -/
  | response {s' : ServerState} {out : Output} {id : UInt32} {g : GameState}
      (h : Handles srv c.handledAt c.alloc d s s' out) (hg : s'.activeGames.lookup id = some g)
      (hsent : out.sent = [gameStateMessage g id])
      (hno : c.response (gameStateMessage g id).length = false) :
      HandlingEnds srv s c ready d { out with sent := [] } .badAlloc
  | sendto {s' : ServerState} {out : Output} {before after : List Bytes} {message : Bytes}
      (h : Handles srv c.handledAt c.alloc d s s' out) (hsent : out.sent = before ++ message :: after)
      (hno : c.sendto message = false) :
      HandlingEnds srv s c ready d { out with sent := before }
        (.exit (.syserr "failed to send response to client"))
  | hangs (h : EndlessMove s d) : HandlingEnds srv s c ready d {} (.exit (.fault .outOfFuel))
  | overruns (h : RowlessMove s d) : HandlingEnds srv s c ready d {} (.exit (.fault .outOfBounds))

/-! ## One message -/

section Message

variable {srv : Server} {tmpl : GameState} {env : Env} {s : ServerState} {d : Datagram}
  {g : GameState} {pawns : List UInt8} {p : UInt32}

theorem makeMove_of_not_onTurn (h : ¬ g.OnTurn p) : makeMove env pawns p g = .ok none := by
  have hno : isValidTurn g p = false := by simpa [GameState.OnTurn] using h
  simp [makeMove, hno]

/-- Without a row, the legality check faults at the first pawn that is on the board. -/
theorem isLegalMove_of_nil (hrow : g.pawnRow = []) (i : UInt8) : isLegalMove g i.toUInt32 =
    if i ≤ g.maxPawn then .error .outOfBounds else .ok false := by
  have hlt : g.maxPawn.toUInt32 < i.toUInt32 ↔ ¬ i ≤ g.maxPawn := by
    rw [UInt32.lt_iff_toNat_lt, UInt8.le_iff_toNat_le, UInt8.toNat_toUInt32, UInt8.toNat_toUInt32]
    omega
  unfold isLegalMove isPawnStanding
  by_cases hi : i ≤ g.maxPawn
  · rw [if_neg (by rwa [hlt, not_not]), if_pos hi, hrow]
    rfl
  · rw [if_pos (hlt.2 hi), if_neg hi]

theorem makeMove_of_nil (hturn : g.OnTurn p) (hrow : g.pawnRow = []) (i : UInt8)
    (rest : List UInt8) : makeMove env (i :: rest) p g =
      if i ≤ g.maxPawn then .error .outOfBounds else .ok none := by
  have hyes : isValidTurn g p = true := hturn
  unfold makeMove areLegalMoves
  rw [isLegalMove_of_nil hrow]
  by_cases hi : i ≤ g.maxPawn
  · simp [hyes, hi, bind, Except.bind]
  · simp [hyes, hi, bind, Except.bind, pure, Except.pure]

theorem movePawns_eq_cons (d : Datagram) : ∃ rest, d.movePawns = d.pawnIdx :: rest := by
  unfold Datagram.movePawns
  split
  · exact ⟨[], rfl⟩
  · exact ⟨_, rfl⟩

/-- A message of a registered player does what its action on the game does. -/
theorem decode_of_registered (hwf : d.WellFormed) (ht : d.msgType ≠ 0)
    (hg : s.activeGames.lookup d.gameId = some g) (hreg : g.Registered d.playerId) :
    decodeAndVerifyMessage env tmpl d.buf d.len s = (gameAction env d g).map (gameReply s d g) := by
  rw [decode_of_named _ _ _ hwf ht, handleNamed_of_lookup hg hreg]

theorem decode_of_endless (hs : Reachable srv s) (h : EndlessMove s d) :
    decodeAndVerifyMessage env srv.template d.buf d.len s = .error .outOfFuel := by
  obtain ⟨g, hg, hmove, hturn, hlegal, hmax, hnone⟩ := h
  have hfit := (hs.entryInv hg).fits_of_legal d.movePawns_ne_nil hlegal
  rw [decode_of_registered hmove.1 hmove.type_ne hg hturn.registered, gameAction_of_move hmove,
    makeMove_of_accepted hturn hlegal, verify_diverges (hfit.knock _) hnone hmax]
  rfl

theorem decode_of_rowless (h : RowlessMove s d) :
    decodeAndVerifyMessage env srv.template d.buf d.len s = .error .outOfBounds := by
  obtain ⟨g, hg, hmove, hturn, hrow, hle⟩ := h
  obtain ⟨rest, hpawns⟩ := movePawns_eq_cons d
  rw [decode_of_registered hmove.1 hmove.type_ne hg hturn.registered, gameAction_of_move hmove,
    hpawns, makeMove_of_nil hturn hrow, if_pos hle]
  rfl

/-- Every other move of a registered player returns. -/
theorem makeMove_returns (hs : Reachable srv s) (hg : s.activeGames.lookup d.gameId = some g)
    (hmove : d.IsMove) (hendless : ¬ EndlessMove s d) (hrowless : ¬ RowlessMove s d)
    (hfuel : 256 < env.fuel) : ∃ r, makeMove env d.movePawns d.playerId g = .ok r := by
  by_cases hturn : g.OnTurn d.playerId
  · by_cases hrow : g.pawnRow = []
    · obtain ⟨rest, hpawns⟩ := movePawns_eq_cons d
      have hno : ¬ d.pawnIdx ≤ g.maxPawn := fun hle => hrowless ⟨g, hg, hmove, hturn, hrow, hle⟩
      rw [hpawns, makeMove_of_nil hturn hrow, if_neg hno]
      exact ⟨_, rfl⟩
    · have hfit := (hs.entryInv hg).row hrow
      by_cases hlegal : g.Legal d.movePawns
      · have hends : (g.knock d.movePawns).AnyStanding ∨ g.maxPawn ≠ 255 := by
          by_contra hno
          push Not at hno
          exact hendless ⟨g, hg, hmove, hturn, hlegal, hno.2, hno.1⟩
        rw [makeMove_of_accepted hturn hlegal, verify_of_fits (hfit.knock _) hends hfuel]
        exact ⟨_, rfl⟩
      · exact ⟨_, makeMove_of_not hfit fun h => hlegal h.2⟩
  · exact ⟨_, makeMove_of_not_onTurn hturn⟩

/-- A JOIN returns: the search for an id ends. -/
theorem decode_join_returns (hs : Reachable srv s) (hj : d.IsJoin)
    (hfuel : uint32Max.toNat ≤ env.fuel) :
    ∃ r, decodeAndVerifyMessage env srv.template d.buf d.len s = .ok r := by
  rw [decode_of_join _ _ _ hj]
  cases hw : findWaitingGame env.order with
  | some e => exact ⟨_, by rw [joinReply, hw]⟩
  | none =>
      by_cases hroom : s.HasRoom
      · obtain ⟨id, -, hid⟩ := exists_freeId hs.nextGameId_ne hroom
        refine ⟨createReply env srv.template d s id, ?_⟩
        simp only [joinReply, hw]
        rw [if_neg (by rw [ge_iff_le, not_le]; exact hroom), hid _ hfuel]
        rfl
      · refine ⟨(s, {}), ?_⟩
        simp only [joinReply, hw]
        rw [if_pos (Nat.le_of_not_lt hroom)]

/-- As many turns as there are ids are enough for the search, and for any board. -/
theorem decode_returns (hs : Reachable srv s) (hendless : ¬ EndlessMove s d)
    (hrowless : ¬ RowlessMove s d) (hfuel : uint32Max.toNat ≤ env.fuel) :
    ∃ r, decodeAndVerifyMessage env srv.template d.buf d.len s = .ok r := by
  by_cases hwf : d.WellFormed
  · by_cases ht : d.msgType = 0
    · exact decode_join_returns hs ⟨hwf, ht⟩ hfuel
    · by_cases hfails : s.LookupFails d
      · rw [decode_of_named _ _ _ hwf ht, handleNamed_of_fails hfails]
        exact ⟨_, rfl⟩
      · obtain ⟨g, hg, hreg⟩ := exists_of_not_lookupFails hfails
        rw [decode_of_registered hwf ht hg hreg]
        have hact : ∃ r, gameAction env d g = .ok r := by
          rcases hwf.named ht with hmove | hgive | hkeep
          · rw [gameAction_of_move hmove]
            exact makeMove_returns hs hg hmove hendless hrowless
              (Nat.lt_of_lt_of_le (by decide) hfuel)
          · rw [gameAction_of_giveUp hgive]
            split <;> exact ⟨_, rfl⟩
          · exact ⟨_, gameAction_of_keepAlive hkeep⟩
        obtain ⟨r, hr⟩ := hact
        exact ⟨gameReply s d g r, by rw [hr]; rfl⟩
  · exact ⟨_, decode_of_malformed _ _ _ hwf⟩

end Message

/-! ## The replies -/

section Replies

variable {c : TurnCalls}

theorem isReport_iff {message : Bytes} : isReport message = true ↔ IsWrongMsg message := by
  simp [isReport, IsWrongMsg]

/-- Why a reply is not sent. -/
inductive ReplyFails (c : TurnCalls) (message : Bytes) : ProgramEnd → Prop
  | response (hvector : ¬ IsWrongMsg message) (hno : c.response message.length = false) :
      ReplyFails c message .badAlloc
  | sendto (hno : c.sendto message = false) :
      ReplyFails c message (.exit (.syserr "failed to send response to client"))

/-- All replies are sent, or those before the first that fails. -/
theorem sendReplies_cases (c : TurnCalls) (messages : List Bytes) :
    sendReplies c messages = (messages, .ok ()) ∨ ∃ before message after e,
      messages = before ++ message :: after ∧ sendReplies c messages = (before, .error e) ∧
        ReplyFails c message e := by
  induction messages with
  | nil => exact .inl rfl
  | cons message rest ih =>
      unfold sendReplies
      split
      · next hno =>
          rw [Bool.and_eq_true, Bool.not_eq_true', Bool.not_eq_true'] at hno
          have hvector : ¬ IsWrongMsg message := fun hreport => by
            rw [isReport_iff.2 hreport] at hno
            exact absurd hno.1 (by decide)
          exact .inr ⟨[], message, rest, _, rfl, rfl, .response hvector hno.2⟩
      · split
        · next hno =>
            exact .inr ⟨[], message, rest, _, rfl, rfl, .sendto (by simpa using hno)⟩
        · rcases ih with hok | ⟨before, message', after, e, hrest, herror, hfails⟩
          · rw [hok]
            exact .inl rfl
          · rw [herror, hrest]
            exact .inr ⟨message :: before, message', after, e, rfl, rfl, hfails⟩

end Replies

/-! ## One handling -/

section Handle

variable {srv : Server} {s s' : ServerState} {c : TurnCalls} {d : Datagram} {ready : Bool}
  {out : Output}

/-- What a handling takes from the calls of its turn. -/
def TurnCalls.env (c : TurnCalls) (s : ServerState) : Env :=
  ⟨c.handledAt, c.alloc, c.handleOrder.list s.activeGames, c.fuel⟩

theorem handle_of_error {f : Fault} (hmap : ¬ (d.len ≠ 0 ∧ ready = false ∧ c.handlersMap = false))
    (h : decodeAndVerifyMessage (c.env s) srv.template d.buf d.len s = .error f) :
    handle srv.template c ready d s = ({}, .error (.exit (.fault f))) := by
  unfold TurnCalls.env at h
  simp only [handle, if_neg hmap, h]

theorem handle_of_ok (hmap : ¬ (d.len ≠ 0 ∧ ready = false ∧ c.handlersMap = false))
    (h : decodeAndVerifyMessage (c.env s) srv.template d.buf d.len s = .ok (s', out)) :
    handle srv.template c ready d s =
      ({ out with sent := (sendReplies c out.sent).1 },
        (sendReplies c out.sent).2.map fun _ => s') := by
  unfold TurnCalls.env at h
  simp only [handle, if_neg hmap, h]

/-- A reply that needs memory is the only one of its handling. -/
theorem handlingEnds_of_response {before after : List Bytes} {message : Bytes}
    (h : Handles srv c.handledAt c.alloc d s s' out) (hsent : out.sent = before ++ message :: after)
    (hvector : ¬ IsWrongMsg message) (hno : c.response message.length = false) :
    HandlingEnds srv s c ready d { out with sent := before } .badAlloc := by
  have hmem : message ∈ out.sent := hsent ▸ List.mem_append_right _ List.mem_cons_self
  cases h.handling.replied with
  | nothing _ hnone =>
      rw [hnone] at hmem
      exact absurd hmem List.not_mem_nil
  | wrong _ _ hone =>
      rw [hone, List.mem_singleton] at hmem
      exact absurd (hmem ▸ isWrongMsg_wrongMessage d _) hvector
  | twice _ _ _ _ htwo =>
      rw [htwo, List.mem_pair] at hmem
      rcases hmem with rfl | rfl
      · exact absurd (isWrongMsg_wrongMessage d _) hvector
      · exact absurd (isWrongMsg_wrongMessage d _) hvector
  | gameState id g _ _ hg hone =>
      obtain ⟨rfl, hrest⟩ : before = [] ∧ message :: after = [gameStateMessage g id] := by
        rcases List.append_eq_singleton_iff.1 (hsent.symm.trans hone) with hcases | ⟨-, hnil⟩
        · exact hcases
        · exact absurd hnil (List.cons_ne_nil _ _)
      obtain ⟨rfl, -⟩ := List.cons.inj hrest
      exact .response h hg hone hno

/-- **A handling of the program** is one of the system, with all its replies sent, or it ends the
    program. -/
theorem handle_cases (hs : Reachable srv s) (c : TurnCalls) (ready : Bool) (d : Datagram) :
    (∃ s' out, handle srv.template c ready d s = (out, .ok s') ∧
      Handles srv c.handledAt c.alloc d s s' out) ∨
    ∃ out e, handle srv.template c ready d s = (out, .error e) ∧
      HandlingEnds srv s c ready d out e := by
  by_cases hmap : d.len ≠ 0 ∧ ready = false ∧ c.handlersMap = false
  · exact .inr ⟨{}, .badAlloc, if_pos hmap, .handlersMap hmap.1 hmap.2.1 hmap.2.2⟩
  by_cases hendless : EndlessMove s d
  · exact .inr ⟨_, _, handle_of_error hmap (decode_of_endless hs hendless), .hangs hendless⟩
  by_cases hrowless : RowlessMove s d
  · exact .inr ⟨_, _, handle_of_error hmap (decode_of_rowless hrowless), .overruns hrowless⟩
  obtain ⟨⟨s', out⟩, hdecode⟩ : ∃ r, decodeAndVerifyMessage (c.env s) srv.template d.buf d.len s =
      .ok r := decode_returns hs hendless hrowless c.fuel_le
  have hhandle := handle_of_ok hmap hdecode
  have hhandles : Handles srv c.handledAt c.alloc d s s' out :=
    ⟨_, _, c.handleOrder.isTraversal _, hdecode⟩
  rcases sendReplies_cases c out.sent with hok | ⟨before, message, after, e, hsent, herror, hfails⟩
  · rw [hok] at hhandle
    exact .inl ⟨s', out, hhandle, hhandles⟩
  · rw [herror] at hhandle
    refine .inr ⟨{ out with sent := before }, e, hhandle, ?_⟩
    cases hfails with
    | response hvector hno => exact handlingEnds_of_response hhandles hsent hvector hno
    | sendto hno => exact .sendto hhandles hsent hno

end Handle

/-! ## The outcome of any datagram -/

/-- A hash map that is visited in the order of the game ids. -/
def HashOrder.byId : HashOrder := ⟨Finmap.inKeyOrder, Finmap.isTraversal_inKeyOrder⟩

/-- A turn whose calls succeed, with both readings of the clock at `now`. -/
def TurnCalls.succeeding (recvfrom : RecvResult) (now : UInt64) : TurnCalls where
  recvfrom := recvfrom
  sweptAt := now
  sweepOrder := .byId
  handlersMap := true
  handledAt := now
  alloc := .ok
  handleOrder := .byId
  fuel := uint32Max.toNat
  fuel_le := Nat.le_refl _
  response _ := true
  sendto _ := true

theorem TurnCalls.delivers_succeeding (recvfrom : RecvResult) (now : UInt64) :
    (TurnCalls.succeeding recvfrom now).Delivers := ⟨rfl, fun _ => rfl, fun _ => rfl⟩

section Exclusive

variable {srv : Server} {s : ServerState} {d : Datagram}

/-- Only a board of 256 pawns has a largest index of 255. -/
theorem not_endless_of_length (hs : Reachable srv s) (hrow : srv.pawnRow.length ≠ 256) :
    ¬ EndlessMove s d := by
  intro h
  obtain ⟨g, hg, -, -, -, hmax, -⟩ := h
  have hlen := srv.isBoardOf.maxPawn_eq
  rw [← (hs.entryInv hg).maxPawn, hmax, show (255 : UInt8).toNat = 255 from rfl] at hlen
  omega

theorem not_rowless_of_completed (hs : ReachableCompleted srv s) : ¬ RowlessMove s d := by
  intro h
  obtain ⟨g, hg, -, -, hrow, -⟩ := h
  have hfit := (hs.gameInv hg).fits
  rw [GameState.RowFits, hrow] at hfit
  simp at hfit

end Exclusive

end Kayles
