import Kayles.Proofs.Termination

set_option autoImplicit false

/-! # The rules of a move and of giving up

The rules are stated over integers: a MOVE_2 knocks down pawns `i` and `i + 1`. The handler computes
the second index in 8 bits, so on 256 pawns the move that names the last pawn also reaches pawn 0.
`legal_iff` says that this is the only difference between the rules and the handler. -/

namespace Kayles

/-! ## Legality by the rules -/

/-- The pawns a move names, by the rules. -/
def Datagram.namedPawns (d : Datagram) : List ℕ :=
  if d.msgType = 1 then [d.pawnIdx.toNat] else [d.pawnIdx.toNat, d.pawnIdx.toNat + 1]

/-- A move is legal by the rules when every pawn it names exists and stands. -/
def GameState.LegalByRules (g : GameState) (d : Datagram) : Prop :=
  ∀ i ∈ d.namedPawns, i ≤ g.maxPawn.toNat ∧ g.Standing i

/-- A MOVE_2 on the last of 256 pawns, with that pawn and pawn 0 standing. -/
structure Datagram.Wraps (d : Datagram) (g : GameState) : Prop where
  type : d.msgType = 2
  pawn : d.pawnIdx = 255
  maxPawn : g.maxPawn = 255
  last : g.Standing 255
  first : g.Standing 0

section Rules

variable {d : Datagram} {g : GameState}

theorem toNat_succ_of_ne {i : UInt8} (h : i ≠ 255) : (i + 1).toNat = i.toNat + 1 :=
  toNat_add_one (m := i) (UInt8.le_iff_toNat_le.2 (Nat.le_refl _)) h

theorem map_movePawns (h : d.msgType = 1 ∨ d.pawnIdx ≠ 255) :
    d.movePawns.map UInt8.toNat = d.namedPawns := by
  unfold Datagram.movePawns Datagram.namedPawns
  by_cases ht : d.msgType = 1
  · simp [ht]
  · have hne : d.pawnIdx ≠ 255 := h.resolve_left ht
    simp [ht, toNat_succ_of_ne hne]

/-- **The handler and the rules** agree on every move but the one that wraps. -/
theorem legal_iff (hmove : d.IsMove) :
    g.Legal d.movePawns ↔ g.LegalByRules d ∨ d.Wraps g := by
  have hmap : g.Legal d.movePawns ↔
      ∀ i ∈ d.movePawns.map UInt8.toNat, i ≤ g.maxPawn.toNat ∧ g.Standing i := by
    simp [GameState.Legal]
  rw [hmap]
  by_cases hsame : d.msgType = 1 ∨ d.pawnIdx ≠ 255
  · rw [map_movePawns hsame]
    have hno : ¬ d.Wraps g := by
      intro h
      obtain ⟨htype, hpawn, -⟩ := h
      rcases hsame with h | h
      · rw [htype] at h
        exact absurd h (by decide)
      · exact h hpawn
    exact ⟨.inl, fun h => h.resolve_right hno⟩
  · push Not at hsame
    obtain ⟨hne, hpawn⟩ := hsame
    have htype := hmove.2.resolve_left hne
    have hmax := g.maxPawn.toNat_lt
    have hrules : ¬ g.LegalByRules d := by
      intro h
      have hlast := (h 256 (by simp [Datagram.namedPawns, htype, hpawn])).1
      omega
    have hpawns : d.movePawns.map UInt8.toNat = [255, 0] := by
      simp [Datagram.movePawns, htype, hpawn]
    rw [hpawns]
    constructor
    · intro h
      obtain ⟨hle, hlast⟩ := h 255 (by simp)
      refine .inr ⟨htype, hpawn, ?_, hlast, (h 0 (by simp)).2⟩
      rw [← UInt8.toNat_inj]
      simp only [UInt8.reduceToNat]
      omega
    · rintro (h | h)
      · exact absurd h hrules
      · simp [h.maxPawn, h.last, h.first]

theorem not_wraps_of_legalByRules (hrules : g.LegalByRules d) : ¬ d.Wraps g := by
  intro h
  obtain ⟨htype, hpawn, -⟩ := h
  have hlast := (hrules 256 (by simp [Datagram.namedPawns, htype, hpawn])).1
  have hmax := g.maxPawn.toNat_lt
  omega

theorem Datagram.Wraps.map_movePawns (h : d.Wraps g) : d.movePawns.map UInt8.toNat = [255, 0] := by
  simp [Datagram.movePawns, h.type, h.pawn]

end Rules

/-! ## The full board of 256 pawns -/

theorem isValidPawnRow_replicate {n : ℕ} (hpos : 0 < n) (hn : n ≤ 256) :
    isValidPawnRow (List.replicate n '1') = true := by
  obtain ⟨n, rfl⟩ : ∃ k, n = k + 1 := ⟨n - 1, by omega⟩
  refine isValidPawnRow_iff.2 ⟨by simp, by simpa using hn, by simp [List.replicate_succ], ?_, ?_⟩
  · simp [List.getLast?_replicate]
  · intro c hc
    exact .inl (List.eq_of_mem_replicate hc)

/-- A server on a full row of 256 pawns. -/
def fullServer : Server :=
  .ofRow (List.replicate 256 '1') 1000 (isValidPawnRow_replicate (by decide) (by decide))

/-- On a full row of 256 pawns the first move of the game can wrap, with pawns to spare. -/
theorem exists_wrapping_move (srv : Server) (hrow : srv.pawnRow = List.replicate 256 '1') :
    ∃ (s : ServerState) (d : Datagram) (g : GameState), ReachableCompleted srv s ∧ d.WellFormed ∧
      d.msgType = 2 ∧ s.activeGames.lookup d.gameId = some g ∧ g.OnTurn d.playerId ∧ d.Wraps g ∧
      g.Standing 1 := by
  have hmax : srv.template.maxPawn = 255 := by
    rw [← UInt8.toNat_inj, srv.isBoardOf.maxPawn_eq, hrow, List.length_replicate]
    rfl
  have hstand : ∀ i < 256, srv.template.Standing i := by
    intro i hi
    rw [srv.isBoardOf.standing_iff, hrow, List.getElem?_replicate, if_pos hi]
  have hs := reachable_started srv (p := 7) (q := 9) (by decide) (by decide) 0
  have hmove : (Datagram.move 2 9 1 255).IsMove :=
    Datagram.isMove_move (.inr rfl) (by decide) 1 255
  refine ⟨_, .move 2 9 1 255, _, hs, hmove.1, rfl, lookup_started srv 7 9 0,
    GameState.onTurn_iff.2 (.inr ⟨rfl, rfl⟩), ⟨rfl, rfl, hmax, ?_, ?_⟩, ?_⟩
  · exact hstand 255 (by decide)
  · exact hstand 0 (by decide)
  · exact hstand 1 (by decide)

/-! ## MOVE_2 -/

/-- The rule of a MOVE_2 of pawns `i` and `i + 1` that names `g`. -/
structure MoveTwoRule (srv : Server) (s : ServerState) (d : Datagram) (g : GameState) : Prop where
  carriedOut : CarriedOut g d ↔
    (d.playerId = g.playerAId ∧ g.status = turnA ∨ d.playerId = g.playerBId ∧ g.status = turnB) ∧
    d.pawnIdx.toNat + 1 ≤ g.maxPawn.toNat ∧
    g.Standing d.pawnIdx.toNat ∧ g.Standing (d.pawnIdx.toNat + 1)
  knocked : CarriedOut g d → ∀ now alloc s' out, Handles srv now alloc d s s' out →
    ∃ g', s'.activeGames.lookup d.gameId = some g' ∧ g'.maxPawn = g.maxPawn ∧
      ∀ j, g'.Standing j ↔
        g.Standing j ∧ j ≠ d.pawnIdx.toNat ∧ j ≠ d.pawnIdx.toNat + 1
  kept : ¬ CarriedOut g d → ∀ now alloc s' out, Handles srv now alloc d s s' out →
    ∃ g', s'.activeGames.lookup d.gameId = some g' ∧ g'.maxPawn = g.maxPawn ∧
      g'.pawnRow = g.pawnRow

theorem legalByRules_two {d : Datagram} {g : GameState} (ht : d.msgType = 2) :
    g.LegalByRules d ↔ d.pawnIdx.toNat + 1 ≤ g.maxPawn.toNat ∧
      g.Standing d.pawnIdx.toNat ∧ g.Standing (d.pawnIdx.toNat + 1) := by
  have hnamed : d.namedPawns = [d.pawnIdx.toNat, d.pawnIdx.toNat + 1] := by
    simp [Datagram.namedPawns, ht]
  simp only [GameState.LegalByRules, hnamed, List.forall_mem_cons, List.not_mem_nil,
    false_implies, implies_true, and_true]
  constructor
  · intro h
    obtain ⟨⟨_, hi⟩, hle, hj⟩ := h
    exact ⟨hle, hi, hj⟩
  · intro h
    obtain ⟨hle, hi, hj⟩ := h
    exact ⟨⟨Nat.le_of_succ_le hle, hi⟩, hle, hj⟩

/-- **MOVE_2** keeps its rule exactly when the index of its second pawn does not wrap. -/
theorem move_two_iff (srv : Server) {s : ServerState} {d : Datagram} {g : GameState}
    (hwf : d.WellFormed)
    (ht : d.msgType = 2) (hg : s.activeGames.lookup d.gameId = some g) :
    MoveTwoRule srv s d g ↔ ¬ (g.OnTurn d.playerId ∧ d.Wraps g) := by
  have hmove : d.IsMove := ⟨hwf, .inr ht⟩
  have hcarried : CarriedOut g d ↔ g.OnTurn d.playerId ∧ (g.LegalByRules d ∨ d.Wraps g) := by
    rw [carriedOut_iff, legal_iff hmove]
  constructor
  · rintro hrule ⟨hturn, hwraps⟩
    have hrules := hrule.carriedOut
    rw [← GameState.onTurn_iff, ← legalByRules_two ht, hcarried] at hrules
    exact not_wraps_of_legalByRules (hrules.1 ⟨hturn, .inr hwraps⟩).2 hwraps
  · intro hno
    have hiff : CarriedOut g d ↔ g.OnTurn d.playerId ∧ g.LegalByRules d := by
      rw [hcarried]
      constructor
      · intro h
        obtain ⟨hturn, hrules | hwraps⟩ := h
        · exact ⟨hturn, hrules⟩
        · exact absurd ⟨hturn, hwraps⟩ hno
      · intro h
        obtain ⟨hturn, hrules⟩ := h
        exact ⟨hturn, .inl hrules⟩
    refine ⟨?_, ?_, ?_⟩
    · rw [hiff, GameState.onTurn_iff, legalByRules_two ht]
    · intro hc now alloc s' out hh
      obtain ⟨hle, -, -⟩ := (legalByRules_two ht).1 (hiff.1 hc).2
      have hmax := g.maxPawn.toNat_lt
      have hne : d.pawnIdx ≠ 255 := by
        intro h255
        rw [h255] at hle
        simp only [UInt8.reduceToNat] at hle
        omega
      have hpawns : d.movePawns.map UInt8.toNat = [d.pawnIdx.toNat, d.pawnIdx.toNat + 1] := by
        rw [map_movePawns (.inr hne)]
        simp [Datagram.namedPawns, ht]
      rcases hh.handling.of_move hmove hg with ⟨-, -, -, rfl, -⟩ | ⟨hrefused, -⟩
      · refine ⟨_, Finmap.lookup_insert _, rfl, ?_⟩
        intro j
        refine GameState.standing_knock.trans ?_
        rw [hpawns]
        simp
      · exact absurd (carriedOut_iff.1 hc) hrefused
    · intro hc now alloc s' out hh
      rcases hh.handling.of_move hmove hg with ⟨hturn, hlegal, -⟩ | ⟨-, rfl, -⟩
      · exact absurd (carriedOut_iff.2 ⟨hturn, hlegal⟩) hc
      · exact ⟨g, hg, rfl, rfl⟩

theorem move_two_iff_started :
    MoveTwoRule threePawns (started threePawns 7 9 0) (.move 2 9 1 0)
      ((threePawns.template.open 7 0).seat 9 0) := by
  have hmove : (Datagram.move 2 9 1 0).IsMove := Datagram.isMove_move (.inr rfl) (by decide) 1 0
  have hno : ¬ (Datagram.move 2 9 1 0).Wraps ((threePawns.template.open 7 0).seat 9 0) :=
    fun hwraps => absurd hwraps.pawn (by decide)
  exact (move_two_iff threePawns hmove.1 rfl (lookup_started threePawns 7 9 0)).2
    fun hyes => hno hyes.2

theorem not_all_moves_keep_rule : ¬ ∀ (srv : Server) (s : ServerState), Reachable srv s →
    ∀ (d : Datagram) (g : GameState), d.WellFormed → d.msgType = 2 →
      s.activeGames.lookup d.gameId = some g → MoveTwoRule srv s d g := by
  intro hall
  obtain ⟨s, d, g, hs, hwf, ht, hg, hturn, hwraps, -⟩ := exists_wrapping_move fullServer rfl
  have hcarried : CarriedOut g d :=
    carriedOut_iff.2 ⟨hturn, (legal_iff ⟨hwf, .inr ht⟩).2 (.inr hwraps)⟩
  obtain ⟨-, hle, -⟩ := (hall fullServer s hs.reachable d g hwf ht hg).carriedOut.1 hcarried
  have hmax := g.maxPawn.toNat_lt
  rw [hwraps.pawn] at hle
  simp only [UInt8.reduceToNat] at hle
  omega

/-! ## GIVE_UP -/

/-- The rule of a GIVE_UP that names `g`: the side on turn loses, and nobody else can give up. -/
structure ForfeitRule (srv : Server) (s : ServerState) (d : Datagram) (g : GameState) : Prop where
  returns : ∀ env, Finmap.IsTraversal env.order s.activeGames →
    ∃ r, decodeAndVerifyMessage env srv.template d.buf d.len s = .ok r
  onTurn : (d.playerId = g.playerAId ∧ g.status = turnA ∨
      d.playerId = g.playerBId ∧ g.status = turnB) →
    ∀ now alloc s' out, Handles srv now alloc d s s' out →
      (∃ g', s'.activeGames.lookup d.gameId = some g' ∧
        g'.status = (if g.status = turnA then winB else winA) ∧ g'.playerAId = g.playerAId ∧
        g'.playerBId = g.playerBId ∧ g'.maxPawn = g.maxPawn ∧ g'.pawnRow = g.pawnRow) ∧
      ∀ id ≠ d.gameId, s'.activeGames.lookup id = s.activeGames.lookup id
  otherwise : ¬ (d.playerId = g.playerAId ∧ g.status = turnA ∨
      d.playerId = g.playerBId ∧ g.status = turnB) →
    ∀ now alloc s' out, Handles srv now alloc d s s' out → s'.activeGames = s.activeGames

theorem decode_giveUp_returns {srv : Server} {s : ServerState} {d : Datagram} (h : d.IsGiveUp)
    (env : Env) : ∃ r, decodeAndVerifyMessage env srv.template d.buf d.len s = .ok r := by
  rw [decode_of_named _ _ _ h.1 h.type_ne]
  by_cases hs : s.LookupFails d
  · exact ⟨_, handleNamed_of_fails hs⟩
  · obtain ⟨g, hg, hreg⟩ := exists_of_not_lookupFails hs
    rw [handleNamed_of_lookup hg hreg, gameAction_of_giveUp h]
    split <;> exact ⟨_, rfl⟩

/-- **GIVE_UP** keeps its rule exactly when the player on turn as B is not also player A. -/
theorem forfeit_iff (srv : Server) {s : ServerState} {d : Datagram} {g : GameState}
    (hgive : d.IsGiveUp) (hg : s.activeGames.lookup d.gameId = some g) :
    ForfeitRule srv s d g ↔
      ¬ (g.status = turnB ∧ d.playerId = g.playerAId ∧ d.playerId = g.playerBId) := by
  constructor
  · rintro hrule ⟨hstatus, hA, hB⟩
    have hturn : g.OnTurn d.playerId := GameState.onTurn_iff.2 (.inr ⟨hB, hstatus⟩)
    have hhandling : Handling srv.template 0 .ok d s _ _ := .gaveUp g hgive hg hturn
    have hhandles := hhandling.handles fun hmove => (hgive.not_move hmove).elim
    obtain ⟨⟨g', hg', hwin, -⟩, -⟩ :=
      hrule.onTurn (GameState.onTurn_iff.1 hturn) _ _ _ _ hhandles
    rw [Finmap.lookup_insert] at hg'
    obtain rfl := Option.some.inj hg'
    have hcode : (g.afterGiveUp d.playerId 0).status = winB := if_pos hA.symm
    rw [hcode, hstatus] at hwin
    exact absurd hwin (by decide)
  · intro hno
    refine ⟨fun env _ => decode_giveUp_returns hgive env, ?_, ?_⟩
    · intro hturn now alloc s' out hh
      rcases hh.handling.of_giveUp hgive hg with ⟨-, rfl, -⟩ | ⟨hnot, -⟩
      · refine ⟨⟨_, Finmap.lookup_insert _, ?_, rfl, rfl, rfl, rfl⟩, ?_⟩
        · show (if g.playerAId = d.playerId then winB else winA) = _
          rcases hturn with ⟨hA, hstatus⟩ | ⟨hB, hstatus⟩
          · rw [if_pos hA.symm, if_pos hstatus]
          · have hA : g.playerAId ≠ d.playerId := fun hA => hno ⟨hstatus, hA.symm, hB⟩
            have hne : g.status ≠ turnA := by
              rw [hstatus]
              decide
            rw [if_neg hA, if_neg hne]
        · intro id hid
          exact Finmap.lookup_insert_of_ne _ hid
      · exact absurd (GameState.onTurn_iff.2 hturn) hnot
    · intro hnot now alloc s' out hh
      rcases hh.handling.of_giveUp hgive hg with ⟨hturn, -⟩ | ⟨-, rfl, -⟩
      · exact absurd (GameState.onTurn_iff.1 hturn) hnot
      · rfl

theorem forfeit_iff_started :
    ForfeitRule threePawns (started threePawns 7 9 0) (.giveUp 9 1)
      ((threePawns.template.open 7 0).seat 9 0) :=
  (forfeit_iff threePawns (Datagram.isGiveUp_giveUp (by decide) 1)
    (lookup_started threePawns 7 9 0)).2 (by decide)

/-- Player 7 sits on both sides and gives up as player B. -/
theorem not_all_forfeits_lose : ¬ ∀ (srv : Server) (s : ServerState), Reachable srv s →
    ∀ (d : Datagram) (g : GameState), d.IsGiveUp → s.activeGames.lookup d.gameId = some g →
      ForfeitRule srv s d g := by
  intro hall
  have hs := reachable_started threePawns (p := 7) (q := 7) (by decide) (by decide) 0
  have hgive : (Datagram.giveUp 7 1).IsGiveUp := Datagram.isGiveUp_giveUp (by decide) 1
  have hg := lookup_started threePawns 7 7 0
  have hturn : ((threePawns.template.open 7 0).seat 7 0).OnTurn 7 := by decide
  have hhandling : Handling threePawns.template 0 .ok (.giveUp 7 1) (started threePawns 7 7 0) _ _ :=
    .gaveUp _ hgive hg hturn
  obtain ⟨⟨g', hg', hwin, -⟩, -⟩ := (hall threePawns _ hs.reachable _ _ hgive hg).onTurn
    (.inr ⟨rfl, rfl⟩) _ _ _ _ (hs.handles hhandling)
  rw [Finmap.lookup_insert] at hg'
  obtain rfl := Option.some.inj hg'
  exact absurd hwin (by decide)

end Kayles
