import Kayles.Proofs.Progress

set_option autoImplicit false

/-! # When a handling returns

On the invariant the only way a handling can fail to return is a loop that never ends: no access
leaves its buffer. The loop that can is the scan for a pawn left after a move, and only on the board
of 256 pawns, whose last index is the largest `uint8_t`. -/

namespace Kayles

/-! ## Faults -/

section Faults

variable {env : Env} {tmpl : GameState} {s : ServerState} {d : Datagram} {e : Fault}

theorem findFreeId_error {fuel : ℕ} {m : ActiveGames} {start : UInt32}
    (h : findFreeId fuel m start = .error e) : e = .outOfFuel := by
  refine Loop.run_error (fun _ => True) ?_ fuel start e trivial h
  intro id _
  rw [findFreeIdTurn_eq]
  by_cases hid : id ∈ m
  · exact .inr ⟨advanceGameId id, by rw [if_pos hid], trivial⟩
  · exact .inl ⟨id, by rw [if_neg hid]⟩

theorem joinReply_error (h : joinReply env tmpl d s = .error e) : e = .outOfFuel := by
  unfold joinReply at h
  split at h
  · simp at h
  · split at h
    · simp at h
    · cases hfree : findFreeId env.fuel s.activeGames s.nextGameId with
      | ok id => simp [hfree, Except.map] at h
      | error e' =>
          simp only [hfree, Except.map, Except.error.injEq] at h
          exact h ▸ findFreeId_error hfree

theorem gameAction_error {g : GameState} (hfit : g.RowFits)
    (h : gameAction env d g = .error e) : e = .outOfFuel := by
  unfold gameAction at h
  split at h
  · by_cases haccept : g.OnTurn d.playerId ∧ g.Legal d.movePawns
    · rw [makeMove_of_accepted haccept.1 haccept.2] at h
      cases hverify : verifyGameStateAfterMove env.fuel (g.knock d.movePawns) with
      | ok status => simp [hverify, Except.map] at h
      | error e' =>
          simp only [hverify, Except.map, Except.error.injEq] at h
          exact h ▸ verify_error (hfit.knock _) hverify
    · simp [makeMove_of_not hfit haccept] at h
  · split at h
    · simp at h
    · split at h <;> simp at h

/-- **No access leaves its buffer** when the row of the named game fits. -/
theorem decode_error (hfit : ∀ g, s.activeGames.lookup d.gameId = some g → g.RowFits)
    (h : decodeAndVerifyMessage env tmpl d.buf d.len s = .error e) : e = .outOfFuel := by
  by_cases hwf : d.WellFormed
  · by_cases ht : d.msgType = 0
    · rw [decode_of_join _ _ _ ⟨hwf, ht⟩] at h
      exact joinReply_error h
    · rw [decode_of_named _ _ _ hwf ht] at h
      by_cases hs : s.LookupFails d
      · simp [handleNamed_of_fails hs] at h
      · obtain ⟨g, hg, hreg⟩ := exists_of_not_lookupFails hs
        rw [handleNamed_of_lookup hg hreg] at h
        cases hact : gameAction env d g with
        | ok r => simp [hact, Except.map] at h
        | error e' =>
            simp only [hact, Except.map, Except.error.injEq] at h
            exact h ▸ gameAction_error (hfit g hg) hact
  · simp [decode_of_malformed _ _ _ hwf] at h

end Faults

/-! ## The representation invariant -/

/-- **The representation invariant**, of every run of completed steps, and what it gives: the player
    on turn has a legal MOVE_1, and no handling of any datagram leaves a row. -/
theorem representation_invariant (srv : Server) {s : ServerState} (hs : ReachableCompleted srv s) :
    (∀ id g, s.activeGames.lookup id = some g → GameInv srv.template id g ∧
      (∀ i, g.Standing i → i ≤ g.maxPawn.toNat) ∧
      (g.status = turnA ∨ g.status = turnB →
        ∃ i : UInt8, isLegalMove g i.toUInt32 = .ok true)) ∧
    ∀ env (d : Datagram), Finmap.IsTraversal env.order s.activeGames →
      decodeAndVerifyMessage env srv.template d.buf d.len s ≠ .error .outOfBounds := by
  constructor
  · intro id g hg
    have hinv := hs.gameInv hg
    have hle : ∀ i, g.Standing i → i ≤ g.maxPawn.toNat := by
      intro i hi
      rw [hinv.maxPawn]
      exact srv.standing_le (hinv.standing i hi)
    refine ⟨hinv, hle, ?_⟩
    intro hturn
    obtain ⟨i, hi, hstanding⟩ := hinv.turn hturn
    have hi256 : i < 2 ^ 8 := Nat.lt_of_le_of_lt hi g.maxPawn.toNat_lt
    refine ⟨UInt8.ofNat i, isLegalMove_eq_true.2 ?_⟩
    rw [UInt8.toNat_toUInt32, UInt8.toNat_ofNat_of_lt' hi256]
    exact ⟨hi, hstanding⟩
  · intro env d _ hfault
    have hfuel := decode_error (fun g hg => (hs.gameInv hg).fits) hfault
    exact absurd hfuel (by decide)

theorem representation_invariant_started :
    GameInv threePawns.template 1 ((threePawns.template.open 7 0).seat 9 0) ∧
      ∃ i : UInt8, isLegalMove ((threePawns.template.open 7 0).seat 9 0) i.toUInt32 = .ok true := by
  have hs := reachable_started threePawns (p := 7) (q := 9) (by decide) (by decide) 0
  obtain ⟨hinv, -, hlegal⟩ :=
    (representation_invariant threePawns hs).1 1 _ (lookup_started _ _ _ _)
  exact ⟨hinv, hlegal (.inr rfl)⟩

/-! ## Moves -/

/-- A move ends as it should: `verify_game_state_after_move` returns on the board it leaves, with the
    win of the mover exactly when no pawn stands and the turn of the other player otherwise, and the
    handling returns with that status. -/
def MoveEndsWell (srv : Server) (s : ServerState) (d : Datagram) (g : GameState) : Prop :=
  ∃ g' status bound, knockPawnsDown g d.movePawns = .ok g' ∧
    (∀ fuel, bound ≤ fuel → verifyGameStateAfterMove fuel g' = .ok status) ∧
    (status = winOf g.status ↔ ∀ i ≤ g.maxPawn.toNat, ¬ g'.Standing i) ∧
    ((∃ i ≤ g.maxPawn.toNat, g'.Standing i) → status = otherTurn g.status) ∧
    ∀ env, bound ≤ env.fuel → Finmap.IsTraversal env.order s.activeGames →
      ∃ s' out, decodeAndVerifyMessage env srv.template d.buf d.len s = .ok (s', out) ∧
        (s'.activeGames.lookup d.gameId).map GameState.status = some status

theorem EntryInv.fits_of_legal {tmpl g : GameState} {id : UInt32} (h : EntryInv tmpl id g)
    {pawns : List UInt8} (hne : pawns ≠ []) (hlegal : g.Legal pawns) : g.RowFits := by
  obtain ⟨i, hi⟩ := List.exists_mem_of_ne_nil pawns hne
  apply h.row
  rintro hnil
  have hlt := hlegal.lt_length i hi
  rw [hnil] at hlt
  exact absurd hlt (Nat.not_lt_zero _)

theorem winOf_ne_otherTurn (status : UInt8) : otherTurn status ≠ winOf status := by
  rcases otherTurn_cases status with ht | ht <;> rcases winOf_cases status with hw | hw <;>
    rw [ht, hw] <;> decide

theorem GameState.statusAfterMove_eq_winOf {g : GameState} :
    g.statusAfterMove = winOf g.status ↔ ¬ g.AnyStanding := by
  unfold GameState.statusAfterMove
  split
  · next hany => simp [hany, winOf_ne_otherTurn]
  · next hnone => simp [hnone]

theorem GameState.MoveEnds.anyStanding {g : GameState} (h : g.MoveEnds) (hfit : g.RowFits)
    (hmax : g.maxPawn = 255) : g.AnyStanding := by
  obtain ⟨fuel, status, hstatus⟩ := h
  by_contra hnone
  rw [verify_diverges hfit hnone hmax fuel] at hstatus
  exact absurd hstatus (by simp)

theorem moveEndsWell_of_ends {srv : Server} {s : ServerState} {d : Datagram} {g : GameState}
    (hmove : d.IsMove) (hg : s.activeGames.lookup d.gameId = some g) (hturn : g.OnTurn d.playerId)
    (hlegal : g.Legal d.movePawns) (hfit : g.RowFits)
    (hends : (g.knock d.movePawns).AnyStanding ∨ g.maxPawn ≠ 255) : MoveEndsWell srv s d g := by
  have hverify : ∀ fuel, 257 ≤ fuel →
      verifyGameStateAfterMove fuel (g.knock d.movePawns) =
        .ok (g.knock d.movePawns).statusAfterMove :=
    fun fuel hfuel => verify_of_fits (hfit.knock _) hends hfuel
  -- 257 turns are enough for every board
  refine ⟨g.knock d.movePawns, (g.knock d.movePawns).statusAfterMove, 257,
    knockPawnsDown_of_lt hlegal.lt_length, hverify, ?_, ?_, ?_⟩
  · refine GameState.statusAfterMove_eq_winOf.trans ?_
    simp [GameState.AnyStanding, GameState.knock]
  · intro hany
    exact if_pos hany
  · intro env hfuel _
    have hact : gameAction env d g = .ok (some (g.afterMove d.movePawns env.now)) := by
      rw [gameAction_of_move hmove, makeMove_of_accepted hturn hlegal, hverify env.fuel hfuel]
      rfl
    have hresult : decodeAndVerifyMessage env srv.template d.buf d.len s =
        .ok (gameReply s d g (some (g.afterMove d.movePawns env.now))) := by
      rw [decode_of_named _ _ _ hmove.1 hmove.type_ne, handleNamed_of_lookup hg hturn.registered,
        hact]
      rfl
    refine ⟨_, _, hresult, ?_⟩
    rw [Finmap.lookup_insert]
    rfl

/-! ## The board of 256 pawns -/

/-- The row of `n + 2` pawns of which only the two ends stand. -/
def endsRow (n : ℕ) : List Char := '1' :: (List.replicate n '0' ++ ['1'])

@[simp] theorem length_endsRow (n : ℕ) : (endsRow n).length = n + 2 := by
  simp [endsRow]

theorem isValidPawnRow_endsRow {n : ℕ} (hn : n ≤ 254) : isValidPawnRow (endsRow n) = true := by
  have hlast : (endsRow n).getLast? = some '1' :=
    List.getLast?_concat (l := '1' :: List.replicate n '0')
  refine isValidPawnRow_iff.2 ⟨by simp, by rw [length_endsRow]; omega, rfl, hlast, ?_⟩
  intro c hc
  simp only [endsRow, List.mem_cons, List.mem_append, List.mem_replicate] at hc
  tauto

theorem getElem?_endsRow {n i : ℕ} : (endsRow n)[i]? = some '1' ↔ i = 0 ∨ i = n + 1 := by
  unfold endsRow
  cases i with
  | zero => simp
  | succ i =>
      rw [List.getElem?_cons_succ, List.getElem?_append, List.length_replicate]
      by_cases hi : i < n
      · rw [if_pos hi, List.getElem?_replicate, if_pos hi]
        simp
        omega
      · rw [if_neg hi, List.getElem?_singleton]
        simp
        omega

/-- On 256 pawns of which only the ends stand, the second move of the game never ends. -/
theorem exists_endless_move (srv : Server) (hrow : srv.pawnRow = endsRow 254) :
    ∃ (s : ServerState) (d : Datagram) (g : GameState), ReachableCompleted srv s ∧ d.IsMove ∧
      s.activeGames.lookup d.gameId = some g ∧ g.OnTurn d.playerId ∧ g.Legal d.movePawns ∧
      g.RowFits ∧ g.maxPawn = 255 ∧ ¬ (g.knock d.movePawns).AnyStanding := by
  have hmax : srv.template.maxPawn = 255 := by
    rw [← UInt8.toNat_inj, srv.isBoardOf.maxPawn_eq, hrow, length_endsRow]
    rfl
  have hstand : ∀ i, srv.template.Standing i ↔ i = 0 ∨ i = 255 := by
    intro i
    rw [srv.isBoardOf.standing_iff, hrow]
    exact getElem?_endsRow
  have hs := reachable_started srv (p := 7) (q := 9) (by decide) (by decide) 0
  have hg := lookup_started srv 7 9 0
  have hfit := (hs.gameInv hg).fits
  -- player 9 knocks down pawn 0, which leaves pawn 255 to player 7
  have hfst : (Datagram.move 1 9 1 0).IsMove := Datagram.isMove_move (.inl rfl) (by decide) 1 0
  have hleft : (((srv.template.open 7 0).seat 9 0).knock [0]).Standing 255 :=
    GameState.standing_knock.2 ⟨(hstand 255).2 (.inr rfl), by decide⟩
  have hany : (((srv.template.open 7 0).seat 9 0).knock [0]).AnyStanding := by
    refine ⟨255, ?_, hleft⟩
    show 255 ≤ srv.template.maxPawn.toNat
    rw [hmax]
    decide
  have hlegal : ((srv.template.open 7 0).seat 9 0).Legal [0] :=
    GameState.legal_singleton.2 ⟨Nat.zero_le _, (hstand 0).2 (.inl rfl)⟩
  have hs' := hs.moved hg hfst (Datagram.gameId_move _ _ _ _)
    (GameState.onTurn_iff.2 (.inr ⟨rfl, rfl⟩)) hlegal
    ((hfit.knock _).moveEnds (.inl hany)) 0
  have hstatus : (((srv.template.open 7 0).seat 9 0).afterMove [0] 0).status = turnA :=
    if_pos hany
  refine ⟨_, .move 1 7 1 255, _, hs', Datagram.isMove_move (.inl rfl) (by decide) 1 255,
    Finmap.lookup_insert _, ?_, ?_, hfit.knock [0], hmax, ?_⟩
  · exact GameState.onTurn_iff.2 (.inl ⟨rfl, hstatus⟩)
  · intro i hi
    obtain rfl := List.mem_singleton.1 hi
    exact ⟨hmax.symm ▸ Nat.le_refl _, hleft⟩
  · intro h
    obtain ⟨i, -, hi⟩ := h
    obtain ⟨hi, hne⟩ := GameState.standing_knock.1 hi
    have hi : (((srv.template.open 7 0).seat 9 0).knock [0]).Standing i := hi
    obtain ⟨hi, hne'⟩ := GameState.standing_knock.1 hi
    rcases (hstand i).1 hi with rfl | rfl
    · exact hne' (by decide)
    · exact hne (by decide)

/-- **A move that passes the checks ends well** exactly when the board has fewer than 256 pawns, or a
    pawn it does not knock down is standing. -/
theorem move_ends_iff (srv : Server) {s : ServerState} (hs : Reachable srv s) {d : Datagram}
    {g : GameState} (hmove : d.IsMove) (hg : s.activeGames.lookup d.gameId = some g)
    (hturn : isValidTurn g d.playerId = true) (hlegal : areLegalMoves g d.movePawns = .ok true) :
    MoveEndsWell srv s d g ↔ g.maxPawn ≠ 255 ∨
      ∃ i ≤ g.maxPawn.toNat, g.Standing i ∧ i ∉ d.movePawns.map UInt8.toNat := by
  have hlegal := (areLegalMoves_eq_ok hlegal).1 rfl
  have hfit := (hs.entryInv hg).fits_of_legal d.movePawns_ne_nil hlegal
  have hany : (g.knock d.movePawns).AnyStanding ↔
      ∃ i ≤ g.maxPawn.toNat, g.Standing i ∧ i ∉ d.movePawns.map UInt8.toNat := by
    simp only [GameState.AnyStanding, GameState.standing_knock]
    rfl
  rw [← hany]
  constructor
  · intro h
    obtain ⟨g', status, bound, hknock, hverify, -⟩ := h
    rw [knockPawnsDown_of_lt hlegal.lt_length] at hknock
    obtain rfl := Except.ok.inj hknock
    by_contra hno
    push Not at hno
    have hends : (g.knock d.movePawns).MoveEnds := ⟨bound, status, hverify bound (Nat.le_refl _)⟩
    exact hno.2 (hends.anyStanding (hfit.knock _) hno.1)
  · intro hends
    exact moveEndsWell_of_ends hmove hg hturn hlegal hfit hends.symm

theorem move_ends_iff_started :
    MoveEndsWell threePawns (started threePawns 7 9 0) (.move 1 9 1 0)
      ((threePawns.template.open 7 0).seat 9 0) := by
  have hs := reachable_started threePawns (p := 7) (q := 9) (by decide) (by decide) 0
  have hmove : (Datagram.move 1 9 1 0).IsMove := Datagram.isMove_move (.inl rfl) (by decide) 1 0
  have hg : (started threePawns 7 9 0).activeGames.lookup (Datagram.move 1 9 1 0).gameId = some _ :=
    lookup_started threePawns 7 9 0
  exact (move_ends_iff threePawns hs.reachable hmove hg (by decide) rfl).2 (.inl (by decide))

theorem not_all_moves_end : ¬ ∀ (srv : Server) (s : ServerState), Reachable srv s →
    ∀ (d : Datagram) (g : GameState), d.IsMove → s.activeGames.lookup d.gameId = some g →
      isValidTurn g d.playerId = true → areLegalMoves g d.movePawns = .ok true →
      MoveEndsWell srv s d g := by
  intro hall
  obtain ⟨s, d, g, hs, hmove, hg, hturn, hlegal, hfit, hmax, hnone⟩ :=
    exists_endless_move (.ofRow (endsRow 254) 1000 (isValidPawnRow_endsRow (by decide))) rfl
  obtain ⟨g', status, bound, hknock, hverify, -⟩ :=
    hall _ s hs.reachable d g hmove hg hturn (areLegalMoves_of_legal hlegal)
  rw [knockPawnsDown_of_lt hlegal.lt_length] at hknock
  obtain rfl := Except.ok.inj hknock
  have hends : (g.knock d.movePawns).MoveEnds := ⟨bound, status, hverify bound (Nat.le_refl _)⟩
  exact hnone (hends.anyStanding (hfit.knock _) hmax)

end Kayles
