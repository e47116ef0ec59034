import Kayles.Proofs.Moves

set_option autoImplicit false

/-! # Replies

What is sent back for a datagram, and what a datagram that is refused leaves of the state. The two
kinds of reply are told apart by the byte after the twelve that a MSG_WRONG_MSG echoes: 255 there, a
status in a MSG_GAME_STATE. -/

namespace Kayles

/-! ## The two kinds of reply -/

/-- A MSG_WRONG_MSG. -/
def IsWrongMsg (m : Bytes) : Prop := m.length = wrongMsgLen ∧ m[messageLen]? = some errorStatus

/-- A MSG_GAME_STATE. -/
def IsGameStateMsg (m : Bytes) : Prop :=
  ∃ g id, g.status ∈ statuses ∧ m = gameStateMessage g id

theorem isWrongMsg_wrongMessage (d : Datagram) (e : UInt8) : IsWrongMsg (d.wrongMessage e) := by
  have hecho := d.length_echo
  constructor
  · rw [Datagram.wrongMessage, List.length_append, hecho]
    rfl
  · rw [Datagram.wrongMessage, List.getElem?_append_right (by rw [hecho]), hecho]
    rfl

theorem not_isWrongMsg_gameStateMessage {g : GameState} (h : g.status ∈ statuses) (id : UInt32) :
    ¬ IsWrongMsg (gameStateMessage g id) := by
  intro h
  obtain ⟨-, hbyte⟩ := h
  have hstatus : g.status = errorStatus := Option.some.inj hbyte
  rw [hstatus] at h
  exact absurd h (by decide)

theorem not_isGameStateMsg_of_isWrongMsg {m : Bytes} (h : IsWrongMsg m) : ¬ IsGameStateMsg m := by
  intro h
  obtain ⟨g, id, hstatus, rfl⟩ := h
  exact not_isWrongMsg_gameStateMessage hstatus id h

/-! ## One reply -/

/-- A well-formed JOIN that finds no waiting game and cannot create one. -/
def CannotCreate (s : ServerState) (alloc : Allocation) (d : Datagram) : Prop :=
  d.IsJoin ∧ s.NoneWaiting ∧ (¬ s.HasRoom ∨ ¬ alloc.Succeeds)

/-- Every completed handling of `d` sends one reply of one kind, and none when no game can be
    created. -/
def OneReply (srv : Server) (s : ServerState) (d : Datagram) : Prop :=
  ∀ now alloc s' out, Handles srv now alloc d s s' out →
    (CannotCreate s alloc d → out.sent = []) ∧
    (¬ CannotCreate s alloc d →
      ∃ m, out.sent = [m] ∧ Xor (IsGameStateMsg m) (IsWrongMsg m))

section Replies

variable {srv : Server} {tmpl : GameState} {now : UInt64} {alloc : Allocation} {d : Datagram}
  {s s' : ServerState} {out : Output}

/-- The replies of a handling, by kind. -/
inductive Replied (alloc : Allocation) (d : Datagram) (s s' : ServerState) (sent : List Bytes) :
    Prop
  | nothing (h : CannotCreate s alloc d) (hsent : sent = [])
  | wrong (h : ¬ d.WellFormed) (hs : s' = s) (hsent : sent = [d.wrongMessage d.errorIndex])
  | twice (h : d.WellFormed) (ht : d.msgType ≠ 0) (hfails : s.LookupFails d) (hs : s' = s)
      (hsent : sent = [d.wrongMessage (s.lookupErrorIndex d), d.wrongMessage 5])
  | gameState (id : UInt32) (g : GameState) (h : ¬ CannotCreate s alloc d)
      (hnamed : d.msgType ≠ 0 → ¬ s.LookupFails d) (hg : s'.activeGames.lookup id = some g)
      (hsent : sent = [gameStateMessage g id])

theorem Handling.replied (h : Handling tmpl now alloc d s s' out) :
    Replied alloc d s s' out.sent := by
  have hnamed : ∀ {g : GameState}, s.activeGames.lookup d.gameId = some g →
      g.Registered d.playerId → ¬ s.LookupFails d := fun hg hreg hfails => hfails _ hg hreg
  have hcreate : d.msgType ≠ 0 → ¬ CannotCreate s alloc d := fun ht hno => ht hno.1.2
  cases h with
  | malformed h => exact .wrong h rfl rfl
  | notFound h ht hs => exact .twice h ht hs rfl rfl
  | seated id g h hg hw =>
      exact .gameState id _ (fun hno => hno.2.1 id g hg hw) (fun ht => absurd h.2 ht)
        (Finmap.lookup_insert _) rfl
  | full h hw hfull => exact .nothing ⟨h, hw, .inl hfull⟩ rfl
  | unallocated id h hw _ _ halloc =>
      refine .nothing ⟨h, hw, .inr ?_⟩ rfl
      intro h
      obtain ⟨htempl, hmap, -⟩ := h
      simp [htempl, hmap] at halloc
  | unfinished id h hw _ _ halloc =>
      refine .nothing ⟨h, hw, .inr ?_⟩ rfl
      intro h
      obtain ⟨-, -, hrow⟩ := h
      simp [hrow] at halloc
  | created id h hw hroom _ halloc =>
      refine .gameState id _ ?_ (fun ht => absurd h.2 ht) (Finmap.lookup_insert _) rfl
      intro h
      obtain ⟨-, -, hno | hno⟩ := h
      · exact hno hroom
      · exact hno halloc
  | refused g h hg hreg _ =>
      have ht : d.msgType ≠ 0 := h.elim Datagram.IsMove.type_ne Datagram.IsGiveUp.type_ne
      exact .gameState _ g (hcreate ht) (fun _ => hnamed hg hreg) hg rfl
  | moved g h hg hturn _ _ =>
      exact .gameState _ _ (hcreate h.type_ne) (fun _ => hnamed hg hturn.registered)
        (Finmap.lookup_insert _) rfl
  | gaveUp g h hg hturn =>
      exact .gameState _ _ (hcreate h.type_ne) (fun _ => hnamed hg hturn.registered)
        (Finmap.lookup_insert _) rfl
  | keptAlive g h hg hreg =>
      exact .gameState _ _ (hcreate h.type_ne) (fun _ => hnamed hg hreg)
        (Finmap.lookup_insert _) rfl

theorem Reachable.handles (hs : Reachable srv s) (h : Handles srv now alloc d s s' out) :
    Reachable srv s' := LTS.Reachable.snoc hs h.step

end Replies

/-- **One reply** is sent for every datagram but those whose lookup fails, which get two. -/
theorem one_reply_iff (srv : Server) {s : ServerState} (hs : Reachable srv s) (d : Datagram) :
    OneReply srv s d ↔ ¬ (d.WellFormed ∧ d.msgType ≠ 0 ∧ s.LookupFails d) := by
  constructor
  · rintro hone ⟨hwf, ht, hfails⟩
    have hhandling : Handling srv.template 0 .ok d s _ _ := .notFound hwf ht hfails
    have hhandles := hhandling.handles fun _ g hg hreg => absurd hreg (hfails g hg)
    obtain ⟨m, hm, -⟩ := (hone _ _ _ _ hhandles).2 fun hno => ht hno.1.2
    simp at hm
  · intro hno now alloc s' out hh
    cases hh.handling.replied with
    | nothing h hsent => exact ⟨fun _ => hsent, fun hn => absurd h hn⟩
    | wrong h _ hsent =>
        refine ⟨fun hn => absurd hn.1.1 h, fun _ => ⟨_, hsent, .inr ⟨?_, ?_⟩⟩⟩
        · exact isWrongMsg_wrongMessage d _
        · exact not_isGameStateMsg_of_isWrongMsg (isWrongMsg_wrongMessage d _)
    | twice h ht hfails _ _ => exact absurd ⟨h, ht, hfails⟩ hno
    | gameState id g h _ hg hsent =>
        have hstatus := ((hs.handles hh).entryInv hg).status
        refine ⟨fun hn => absurd hn h, fun _ => ⟨_, hsent, .inl ⟨?_, ?_⟩⟩⟩
        · exact ⟨g, id, hstatus, rfl⟩
        · exact not_isWrongMsg_gameStateMessage hstatus id

theorem one_reply_iff_started :
    OneReply threePawns (started threePawns 7 9 0) (.giveUp 9 1) := by
  have hs := reachable_started threePawns (p := 7) (q := 9) (by decide) (by decide) 0
  refine (one_reply_iff threePawns hs.reachable (.giveUp 9 1)).2 ?_
  intro h
  obtain ⟨-, -, hfails⟩ := h
  exact hfails _ (lookup_started threePawns 7 9 0) (.inr rfl)

/-- Player 7 moves in game 1, which nobody has created. -/
theorem not_all_one_reply : ¬ ∀ (srv : Server) (s : ServerState), Reachable srv s →
    ∀ d, OneReply srv s d := by
  intro hall
  have hs : ReachableCompleted threePawns .initial := LTS.Reachable.refl
  have hmove : (Datagram.move 1 7 1 0).IsMove := Datagram.isMove_move (.inl rfl) (by decide) 1 0
  have hfails : ServerState.initial.LookupFails (.move 1 7 1 0) := by
    intro g hg
    simp [ServerState.initial] at hg
  have hhandling : Handling threePawns.template 0 .ok (.move 1 7 1 0) .initial _ _ :=
    .notFound hmove.1 hmove.type_ne hfails
  obtain ⟨m, hm, -⟩ := (hall threePawns _ hs.reachable _ _ _ _ _ (hs.handles hhandling)).2
    fun hno => hmove.type_ne hno.1.2
  simp at hm

/-! ## Authorisation and atomicity -/

/-- A message to a game from one of its players that is out of turn, or illegal by the rules. -/
structure OutOfOrder (d : Datagram) (g : GameState) : Prop where
  type : d.IsMove ∨ d.IsGiveUp
  registered : g.Registered d.playerId
  refused : ¬ g.OnTurn d.playerId ∨ d.IsMove ∧ ¬ g.LegalByRules d

/-- Only the players a game waits for change it, and what is answered by an error or is out of order
    changes nothing at all. -/
structure Authorised (srv : Server) (s : ServerState) (d : Datagram) : Prop where
  changes : ∀ now alloc s' out, Handles srv now alloc d s s' out →
    ∀ id g, s.activeGames.lookup id = some g →
      ∃ g', s'.activeGames.lookup id = some g' ∧
        (g.SameGame g' ∨
        (d.msgType = 0 ∧ d.len = 5 ∧ d.playerId ≠ 0 ∧ g.status = waitingForOpponent) ∨
        (((d.msgType = 1 ∨ d.msgType = 2) ∧ d.len = 10 ∨ d.msgType = 4 ∧ d.len = 9) ∧
          d.gameId = id ∧ d.playerId ≠ 0 ∧
          (d.playerId = g.playerAId ∧ g.status = turnA ∨
            d.playerId = g.playerBId ∧ g.status = turnB)))
  wrong : ∀ now alloc s' out, Handles srv now alloc d s s' out →
    (∃ m ∈ out.sent, IsWrongMsg m) → s' = s
  outOfOrder : ∀ now alloc s' out, Handles srv now alloc d s s' out →
    ∀ g, s.activeGames.lookup d.gameId = some g → OutOfOrder d g →
      s' = s ∧ out.sent = [gameStateMessage g d.gameId]

section Authorised

variable {srv : Server} {now : UInt64} {alloc : Allocation} {d : Datagram} {s s' : ServerState}
  {out : Output}

theorem Handles.lookup_change (h : Handles srv now alloc d s s' out) {id : UInt32} {g : GameState}
    (hg : s.activeGames.lookup id = some g) :
    ∃ g', s'.activeGames.lookup id = some g' ∧ Change now d out.log id g g' :=
  h.step.evolves hg (h.handling.mem (Finmap.mem_of_lookup_eq_some hg))

theorem Change.authorised {id : UInt32} {g g' : GameState} {log : List LogLine}
    (h : Change now d log id g g') :
    g.SameGame g' ∨
    (d.msgType = 0 ∧ d.len = 5 ∧ d.playerId ≠ 0 ∧ g.status = waitingForOpponent) ∨
    (((d.msgType = 1 ∨ d.msgType = 2) ∧ d.len = 10 ∨ d.msgType = 4 ∧ d.len = 9) ∧
      d.gameId = id ∧ d.playerId ≠ 0 ∧
      (d.playerId = g.playerAId ∧ g.status = turnA ∨
        d.playerId = g.playerBId ∧ g.status = turnB)) := by
  cases h with
  | idle _ _ _ => exact .inl (GameState.SameGame.refl g)
  | seat h hw _ =>
      have hlen : d.len = 5 := by rw [h.1.len_eq, h.2]; rfl
      exact .inr (.inl ⟨h.2, hlen, h.1.player, hw⟩)
  | move h =>
      obtain ⟨h, hid, hcarried⟩ := h
      obtain ⟨hturn, -⟩ := carriedOut_iff.1 hcarried
      have hlen : d.len = 10 := by
        rw [h.1.len_eq]
        rcases h.2 with ht | ht <;> rw [ht] <;> rfl
      exact .inr (.inr ⟨.inl ⟨h.2, hlen⟩, hid, h.1.player, GameState.onTurn_iff.1 hturn⟩)
  | giveUp h =>
      obtain ⟨h, hid, hturn⟩ := h
      have hlen : d.len = 9 := by rw [h.1.len_eq, h.2]; rfl
      exact .inr (.inr ⟨.inr ⟨h.2, hlen⟩, hid, h.1.player, GameState.onTurn_iff.1 hturn⟩)
  | keepAlive _ _ _ _ => exact .inl (g.sameGame_touch now)

theorem Handles.eq_of_wrong (hs : Reachable srv s) (h : Handles srv now alloc d s s' out)
    (hwrong : ∃ m ∈ out.sent, IsWrongMsg m) : s' = s := by
  obtain ⟨m, hm, hwrong⟩ := hwrong
  cases h.handling.replied with
  | nothing _ hsent => simp [hsent] at hm
  | wrong _ hs' _ => exact hs'
  | twice _ _ _ hs' _ => exact hs'
  | gameState id g _ _ hg hsent =>
      obtain rfl : m = gameStateMessage g id := by simpa [hsent] using hm
      have hstatus := ((hs.handles h).entryInv hg).status
      exact absurd hwrong (not_isWrongMsg_gameStateMessage hstatus id)

/-- A move that wraps and ends is illegal, and changes the game all the same. -/
theorem not_authorised_of_wraps {g : GameState} (hs : Reachable srv s)
    (hg : s.activeGames.lookup d.gameId = some g) (hwf : d.WellFormed) (hturn : g.OnTurn d.playerId)
    (hwraps : d.Wraps g) (hleft : ∃ i, 0 < i ∧ i < 255 ∧ g.Standing i) : ¬ Authorised srv s d := by
  rintro hauth
  obtain ⟨i, hpos, hlt, hi⟩ := hleft
  have hmove : d.IsMove := ⟨hwf, .inr hwraps.type⟩
  have hlegal := (legal_iff hmove).2 (.inr hwraps)
  have hfit := (hs.entryInv hg).fits_of_legal d.movePawns_ne_nil hlegal
  have hany : (g.knock d.movePawns).AnyStanding := by
    refine ⟨i, ?_, GameState.standing_knock.2 ⟨hi, ?_⟩⟩
    · show i ≤ g.maxPawn.toNat
      rw [hwraps.maxPawn]
      exact Nat.le_of_lt hlt
    · rw [hwraps.map_movePawns]
      simp
      omega
  have hhandling : Handling srv.template 0 .ok d s _ _ :=
    .moved g hmove hg hturn hlegal ((hfit.knock d.movePawns).moveEnds (.inl hany))
  have hout : OutOfOrder d g :=
    ⟨.inl hmove, hturn.registered,
      .inr ⟨hmove, fun hrules => not_wraps_of_legalByRules hrules hwraps⟩⟩
  have hfits : d.IsMove → ∀ g', s.activeGames.lookup d.gameId = some g' →
      g'.Registered d.playerId → g'.RowFits :=
    fun _ g' hg' _ => Option.mem_unique hg hg' ▸ hfit
  obtain ⟨hsame, -⟩ := hauth.outOfOrder _ _ _ _ (hhandling.handles hfits) g hg hout
  -- pawn 0 stood before the move, and does not after it
  rw [← hsame, Finmap.lookup_insert] at hg
  have hfirst : (g.afterMove d.movePawns 0).Standing 0 := (Option.some.inj hg).symm ▸ hwraps.first
  have hdown := (GameState.standing_knock.1 hfirst).2
  rw [hwraps.map_movePawns] at hdown
  simp at hdown

end Authorised

/-- **Authorisation and atomicity** hold for every datagram but a MOVE_2 of the player on turn that
    wraps and leaves a pawn, so that its handling completes. -/
theorem authorised_iff (srv : Server) {s : ServerState} (hs : Reachable srv s) (d : Datagram) :
    Authorised srv s d ↔ ¬ ∃ g, s.activeGames.lookup d.gameId = some g ∧ d.WellFormed ∧
      g.OnTurn d.playerId ∧ d.Wraps g ∧ ∃ i, 0 < i ∧ i < 255 ∧ g.Standing i := by
  constructor
  · rintro hauth ⟨g, hg, hwf, hturn, hwraps, hleft⟩
    exact not_authorised_of_wraps hs hg hwf hturn hwraps hleft hauth
  · intro hno
    refine ⟨?_, fun _ _ _ _ hh hw => hh.eq_of_wrong hs hw, ?_⟩
    · intro now alloc s' out hh id g hg
      obtain ⟨g', hg', hchange⟩ := hh.lookup_change hg
      exact ⟨g', hg', hchange.authorised⟩
    · intro now alloc s' out hh g hg hout
      rcases hout.type with hmove | hgive
      · rcases hh.handling.of_move hmove hg with ⟨hturn, hlegal, hends, -⟩ | ⟨-, hs', hsent⟩
        · rcases hout.refused with hnot | ⟨-, hnot⟩
          · exact absurd hturn hnot
          · -- carried out against the rules: the move wraps, and a pawn is left as it has ended
            have hwraps := ((legal_iff hmove).1 hlegal).resolve_left hnot
            have hfit := (hs.entryInv hg).fits_of_legal d.movePawns_ne_nil hlegal
            obtain ⟨i, hle, hi⟩ := hends.anyStanding (hfit.knock _) hwraps.maxPawn
            obtain ⟨hi, hdown⟩ := GameState.standing_knock.1 hi
            have hle : i ≤ g.maxPawn.toNat := hle
            rw [hwraps.map_movePawns] at hdown
            rw [hwraps.maxPawn] at hle
            simp at hdown hle
            exact absurd ⟨g, hg, hmove.1, hturn, hwraps, i, by omega, by omega, hi⟩ hno
        · exact ⟨hs', hsent hout.registered⟩
      · rcases hh.handling.of_giveUp hgive hg with ⟨hturn, -⟩ | ⟨-, hs', hsent⟩
        · rcases hout.refused with hnot | ⟨hmove, -⟩
          · exact absurd hturn hnot
          · exact (hgive.not_move hmove).elim
        · exact ⟨hs', hsent hout.registered⟩

theorem authorised_iff_started :
    Authorised threePawns (started threePawns 7 9 0) (.move 1 9 1 0) := by
  have hs := reachable_started threePawns (p := 7) (q := 9) (by decide) (by decide) 0
  refine (authorised_iff threePawns hs.reachable (.move 1 9 1 0)).2 ?_
  intro h
  obtain ⟨g, -, -, -, hwraps, -⟩ := h
  exact absurd hwraps.type (by decide)

theorem not_all_authorised : ¬ ∀ (srv : Server) (s : ServerState), Reachable srv s →
    ∀ d, Authorised srv s d := by
  intro hall
  obtain ⟨s, d, g, hs, hwf, ht, hg, hturn, hwraps, hone⟩ := exists_wrapping_move fullServer rfl
  exact not_authorised_of_wraps hs.reachable hg hwf hturn hwraps
    ⟨1, by decide, by decide, hone⟩ (hall fullServer s hs.reachable d)

end Kayles
