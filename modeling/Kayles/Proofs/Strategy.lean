import Kayles.Proofs.Lifecycle
import Kayles.Proofs.Service
import Kayles.Spec.Mirror

set_option autoImplicit false

/-! # Playing by reflection

What the rules are for is that a player who plays well wins, whatever the other players send. On a
board that is its own mirror image, with nothing standing in its centre, the player who is not on
turn can answer every move by its mirror image; as long as no allocation fails, the server lets it
do so to the end, and never declares the other side the winner: `mirrored_play_never_loses`. -/

namespace Kayles

open Session (Side Phase Act)

/-- The place of a pawn in the mirror image of the board. -/
def GameState.mirror (g : GameState) (i : ℕ) : ℕ := g.maxPawn.toNat - i

/-- The board is its own mirror image, and nothing stands in its centre. -/
structure GameState.Symmetric (g : GameState) : Prop where
  mirror : ∀ i ∈ g.session.standing, g.mirror i ∈ g.session.standing
  centre : g.maxPawn.toNat / 2 ∉ g.session.standing

section Mirror

variable {srv : Server} {id : UInt32} {g g' : GameState} {d : Datagram} {t : Transition}
  {pawns : List UInt8}

theorem EntryInv.reflected (h : EntryInv srv.template id g) (hrow : srv.pawnRow.length ≠ 256)
    (hsym : g.Symmetric) : Session.Reflected g.mirror g.session.standing := by
  refine ⟨hsym.mirror, fun i hi => ?_⟩
  have hle := (h.le_maxPawn hrow hi).1
  unfold GameState.mirror
  omega

theorem Datagram.mem_namedPawns {i : ℕ} : i ∈ d.namedPawns.toFinset ↔
    i = d.pawnIdx.toNat ∨ d.msgType ≠ 1 ∧ i = d.pawnIdx.toNat + 1 := by
  rw [List.mem_toFinset, Datagram.namedPawns]
  split
  · next ht => simp [ht]
  · next ht => simp [ht]

/-- No move takes a pawn together with its mirror image: it would take a pawn in the centre. -/
theorem EntryInv.one_sided (h : EntryInv srv.template id g) (hrow : srv.pawnRow.length ≠ 256)
    (hsym : g.Symmetric) (hsub : pawnSet d.movePawns ⊆ g.session.standing) :
    Disjoint (pawnSet d.movePawns) ((pawnSet d.movePawns).image g.mirror) := by
  have hnamed := h.pawnSet_movePawns hrow hsub
  rw [hnamed] at hsub ⊢
  refine Finset.disjoint_left.2 fun i hi himage => hsym.centre (hsub ?_)
  obtain ⟨j, hj, hij⟩ := Finset.mem_image.1 himage
  have hle := (h.le_maxPawn hrow (hsub hj)).1
  have hsum : i + j = g.maxPawn.toNat := by
    unfold GameState.mirror at hij
    omega
  rw [Datagram.mem_namedPawns] at hi hj ⊢
  rcases hi with hi | ⟨ht, hi⟩
  · rcases hj with hj | ⟨ht, hj⟩
    · exact .inl (by omega)
    · exact .inl (by omega)
  · rcases hj with hj | ⟨-, hj⟩
    · exact .inl (by omega)
    · exact .inr ⟨ht, by omega⟩

/-- The moves that are carried out are those of datagrams. -/
theorem exists_of_mem_moves {tr : List Transition} (h : pawns ∈ tr.filterMap (moveIn id)) :
    ∃ d : Datagram, pawns = d.movePawns := by
  obtain ⟨t, -, hmove⟩ := List.mem_filterMap.1 h
  unfold moveIn at hmove
  split at hmove
  · next d g _ _ =>
      split at hmove
      · exact ⟨d, (Option.some.inj hmove).symm⟩
      · simp at hmove
  · simp at hmove

/-- Somebody is on turn. -/
theorem EntryInv.exists_onTurn (h : EntryInv srv.template id g)
    (hturn : g.status = turnA ∨ g.status = turnB) : ∃ p, p ≠ 0 ∧ g.OnTurn p := by
  rcases hturn with ha | hb
  · exact ⟨g.playerAId, h.playerA, GameState.onTurn_iff.2 (.inl ⟨rfl, ha⟩)⟩
  · refine ⟨g.playerBId, fun hzero => ?_, GameState.onTurn_iff.2 (.inr ⟨rfl, hb⟩)⟩
    have hw := h.playerB.1 hzero
    rw [hb] at hw
    exact absurd hw (by decide)

/-- The mirror image of a move is a move. -/
theorem exists_mirrored_move (hmax : g.maxPawn.toNat < 255) {p : UInt32} (hp : p ≠ 0) (id : UInt32)
    (hle : ∀ i ∈ d.namedPawns.toFinset, i ≤ g.maxPawn.toNat) :
    ∃ d' : Datagram, d'.IsMove ∧ d'.gameId = id ∧ d'.playerId = p ∧
      d'.namedPawns.toFinset = d.namedPawns.toFinset.image g.mirror := by
  have htoNat : ∀ k, (UInt8.ofNat (g.mirror k)).toNat = g.mirror k := by
    intro k
    have hle : g.mirror k ≤ g.maxPawn.toNat := Nat.sub_le _ _
    exact Nat.mod_eq_of_lt (by omega)
  by_cases ht : d.msgType = 1
  · have hnamed : d.namedPawns = [d.pawnIdx.toNat] := if_pos ht
    refine ⟨.move 1 p id (UInt8.ofNat (g.mirror d.pawnIdx.toNat)),
      Datagram.isMove_move (.inl rfl) hp id _, by simp, by simp, ?_⟩
    have hnamed' : (Datagram.move 1 p id (UInt8.ofNat (g.mirror d.pawnIdx.toNat))).namedPawns =
        [g.mirror d.pawnIdx.toNat] := by
      show [(UInt8.ofNat (g.mirror d.pawnIdx.toNat)).toNat] = _
      rw [htoNat]
    simp [hnamed, hnamed']
  · have hnamed : d.namedPawns = [d.pawnIdx.toNat, d.pawnIdx.toNat + 1] := if_neg ht
    have hlast : d.pawnIdx.toNat + 1 ≤ g.maxPawn.toNat := hle _ (by simp [hnamed])
    refine ⟨.move 2 p id (UInt8.ofNat (g.mirror (d.pawnIdx.toNat + 1))),
      Datagram.isMove_move (.inr rfl) hp id _, by simp, by simp, ?_⟩
    have hnamed' : (Datagram.move 2 p id (UInt8.ofNat (g.mirror (d.pawnIdx.toNat + 1)))).namedPawns =
        [g.mirror (d.pawnIdx.toNat + 1), g.mirror (d.pawnIdx.toNat + 1) + 1] := by
      show [(UInt8.ofNat _).toNat, (UInt8.ofNat _).toNat + 1] = _
      rw [htoNat]
    have hnext : g.mirror (d.pawnIdx.toNat + 1) + 1 = g.mirror d.pawnIdx.toNat := by
      unfold GameState.mirror
      omega
    rw [hnamed', hnamed, hnext]
    ext i
    simp [or_comm]

/-- **The answer to a move**: if its mirror image stands, the player on turn can take it. -/
theorem EntryInv.exists_answer (h : EntryInv srv.template id g) (hrow : srv.pawnRow.length ≠ 256)
    (hsub : pawnSet d.movePawns ⊆ g.session.standing) (h' : EntryInv srv.template id g')
    (hturn : g'.status = turnA ∨ g'.status = turnB)
    (himage : (pawnSet d.movePawns).image g.mirror ⊆ g'.session.standing) :
    ∃ d' : Datagram, d'.MovesIn id g' ∧
      pawnSet d'.movePawns = (pawnSet d.movePawns).image g.mirror := by
  have hnamed := h.pawnSet_movePawns hrow hsub
  rw [hnamed] at hsub himage ⊢
  have hpawn : d.pawnIdx.toNat ∈ d.namedPawns.toFinset := Datagram.mem_namedPawns.2 (.inl rfl)
  obtain ⟨p, hp, honturn⟩ := h'.exists_onTurn hturn
  obtain ⟨d', hmove, hid, hplayer, hmirror⟩ := exists_mirrored_move
    (h.le_maxPawn hrow (hsub hpawn)).2 hp id fun i hi => (h.le_maxPawn hrow (hsub hi)).1
  rw [← hmirror] at himage ⊢
  have hlegal := (h'.legal_iff hrow hmove).2 himage
  refine ⟨d', ⟨hmove, hid, carriedOut_iff.2 ⟨hplayer ▸ honturn, hlegal⟩⟩, ?_⟩
  exact h'.pawnSet_movePawns hrow hlegal.pawnSet_subset

theorem phaseOf_statusOf (phase : Phase) : phaseOf (statusOf phase) = phase := by
  cases phase with
  | waiting => rfl
  | turn side => cases side <;> rfl
  | won side => cases side <;> rfl

theorem GameState.phase_session {phase : Phase} (h : g.status = statusOf phase) :
    g.session.phase = phase := by
  show phaseOf g.status = phase
  rw [h, phaseOf_statusOf]

end Mirror

/-- **Mirrored play never loses.** On fewer than 256 pawns, from any state reached while no
    allocation fails, with a symmetric board and `side` on turn, whatever is sent: as long as no
    allocation fails, the game is active, every second move in it is the mirror image of the one
    before, and nobody gives it up in favour of `side`, it is not won by `side`; and when the other
    side is on turn, a message of that player carries out the mirror image of the last move. -/
theorem mirrored_play_never_loses (srv : Server) (hrow : srv.pawnRow.length ≠ 256)
    {s s' : ServerState} {id : UInt32} {g : GameState} {side : Side} {tr : List Transition}
    (hs : ReachableCompleted srv s) (hg : s.activeGames.lookup id = some g)
    (hturn : g.status = statusOf (.turn side)) (hsym : g.Symmetric)
    (hrun : LTS.Run (LiveStep srv id) s tr s')
    (hmirrored : Session.Mirrored g.mirror ((tr.filterMap (moveIn id)).map pawnSet))
    (hgive : ∀ t ∈ tr, giveUpIn id t ≠ some side) :
    ∃ g', s'.activeGames.lookup id = some g' ∧ g'.status ≠ statusOf (.won side) ∧
      (g'.status = statusOf (.turn side.other) → ∃ pawns, ∃ d : Datagram,
        (tr.filterMap (moveIn id)).getLast? = some pawns ∧ d.MovesIn id g' ∧
        pawnSet d.movePawns = (pawnSet pawns).image g.mirror) := by
  have hinv := hs.gameInv hg
  obtain ⟨_, ⟨g', hg', hinv', rfl⟩, hhist⟩ := history_of_run hrun ⟨g, hg, hinv, rfl⟩
  have hmoves := moves_filterMap_actIn id tr
  have hstage : Session.Stage g.mirror side (Session.moves (tr.filterMap (actIn id))) g'.session := by
    refine hhist.mirrored (GameState.phase_session hturn) (hinv.reflected hrow hsym)
      (hmoves ▸ hmirrored) ?_ ?_
    · intro hmem
      obtain ⟨t, ht, hgives⟩ := giveUp_mem_acts hmem
      exact hgive t ht hgives
    · intro m hm
      have hsub := hhist.subset_of_mem_moves hm
      rw [hmoves] at hm
      obtain ⟨pawns, hpawns, rfl⟩ := List.mem_map.1 hm
      obtain ⟨d, rfl⟩ := exists_of_mem_moves hpawns
      exact hinv.one_sided hrow hsym hsub
  refine ⟨g', hg', fun hwon => hstage.phase_ne_won (GameState.phase_session hwon), fun hother => ?_⟩
  obtain ⟨before, m, hms, himage⟩ := hstage.exists_last (GameState.phase_session hother)
  have hsub : m ⊆ g.session.standing := hhist.subset_of_mem_moves (by simp [hms])
  rw [hmoves] at hms
  obtain ⟨early, last, hlist, -, hlast⟩ := List.map_eq_append_iff.1 hms
  obtain ⟨pawns, rfl, rfl⟩ := List.map_eq_singleton_iff.1 hlast
  obtain ⟨d, rfl⟩ := exists_of_mem_moves (hlist ▸ List.mem_append_right early List.mem_cons_self)
  have hstatus : g'.status = turnA ∨ g'.status = turnB := by
    rw [hother]
    cases side.other <;> decide
  obtain ⟨d', hmoves', hpawns'⟩ := hinv.exists_answer hrow hsub hinv'.toEntryInv hstatus himage
  exact ⟨d.movePawns, d', by simp [hlist], hmoves', hpawns'⟩

/-- Player 9 opens with the middle one of three pawns, 7 takes the first: 9 can take the last. -/
theorem mirrored_play_never_loses_centre : ∃ s s' g' tr, ReachableCompleted threePawns s ∧
    LTS.Run (LiveStep threePawns 1) s tr s' ∧ tr.filterMap (moveIn 1) = [[0]] ∧
    s'.activeGames.lookup 1 = some g' ∧ g'.status = turnB ∧
    ∃ d : Datagram, d.MovesIn 1 g' ∧ pawnSet d.movePawns = {2} := by
  have hstart := reachable_started threePawns (p := 7) (q := 9) (by decide) (by decide) 0
  have hg₀ := lookup_started threePawns 7 9 0
  have hopening : (Datagram.move 1 9 1 1).IsMove := Datagram.isMove_move (.inl rfl) (by decide) 1 1
  have hmove : (Datagram.move 1 7 1 0).IsMove := Datagram.isMove_move (.inl rfl) (by decide) 1 0
  obtain ⟨s, hs, hg⟩ : ∃ s, ReachableCompleted threePawns s ∧ s.activeGames.lookup 1 =
      some (((threePawns.template.open 7 0).seat 9 0).afterMove [1] 0) :=
    ⟨_, hstart.moved hg₀ hopening rfl (by decide) (GameState.legal_singleton.2 (by decide))
      ((hstart.gameInv hg₀).fits.knock _ |>.moveEnds (.inr (by decide))) 0, Finmap.lookup_insert _⟩
  have hturn : (((threePawns.template.open 7 0).seat 9 0).afterMove [1] 0).OnTurn 7 := by decide
  have hlegal : (((threePawns.template.open 7 0).seat 9 0).afterMove [1] 0).Legal [0] :=
    GameState.legal_singleton.2 (by decide)
  obtain ⟨l, s', hstep, hmoves, hnone, hg'⟩ := exists_liveStep_of_move hs hg hmove rfl hturn hlegal
    ((hs.gameInv hg).fits.knock _ |>.moveEnds (.inr (by decide))) 0
  have hrun : LTS.Run (LiveStep threePawns 1) s [⟨s, l, s'⟩] s' := .single hstep
  have hmoves : [(⟨s, l, s'⟩ : Transition)].filterMap (moveIn 1) = [[0]] := by
    rw [List.filterMap_cons_some hmoves]
    rfl
  have hmirrored : ∀ mirror, Session.Mirrored mirror (List.map pawnSet [[0]]) := by
    intro mirror before m m' after hms
    have hlen := congrArg List.length hms
    simp only [List.map_cons, List.map_nil, List.length_cons, List.length_nil,
      List.length_append] at hlen
    omega
  have hgive : ∀ t ∈ [(⟨s, l, s'⟩ : Transition)], giveUpIn 1 t ≠ some .a := by
    intro t ht
    obtain rfl := List.mem_singleton.1 ht
    rw [hnone]
    exact (Option.some_ne_none _).symm
  have hsym : (((threePawns.template.open 7 0).seat 9 0).afterMove [1] 0).Symmetric :=
    ⟨by decide, by decide⟩
  obtain ⟨g', hlookup, -, hreply⟩ := mirrored_play_never_loses threePawns (by decide) hs hg
    (show _ = statusOf (.turn .a) by decide) hsym hrun (hmoves ▸ hmirrored _) hgive
  obtain rfl := Option.mem_unique hg' hlookup
  obtain ⟨pawns, d, hlast, hmovesIn, hpawns⟩ := hreply (by decide)
  rw [hmoves] at hlast
  obtain rfl : pawns = [0] := (Option.some.inj hlast).symm
  exact ⟨s, s', _, _, hs, hrun, hmoves, hg', by decide, d, hmovesIn, hpawns.trans (by decide)⟩

end Kayles
