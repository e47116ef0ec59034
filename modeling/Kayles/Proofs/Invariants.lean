import Kayles.Proofs.Steps

set_option autoImplicit false

/-! # The representation invariant

`EntryInv` holds of every entry in every reachable state, whatever allocation fails: a failed copy of
the row leaves an entry with an empty row, and nothing that is claimed of a row is claimed of that
one. `GameInv` adds what needs the row, and holds when allocations succeed. Both are proved once for
each change of a game. -/

namespace Kayles

/-! ## Statuses -/

/-- The five constants. -/
def statuses : List UInt8 := [waitingForOpponent, turnA, turnB, winA, winB]

theorem otherTurn_cases (status : UInt8) : otherTurn status = turnA ∨ otherTurn status = turnB := by
  unfold otherTurn
  split
  · exact .inr rfl
  · exact .inl rfl

theorem winOf_cases (status : UInt8) : winOf status = winA ∨ winOf status = winB := by
  unfold winOf
  split
  · exact .inl rfl
  · exact .inr rfl

theorem GameState.statusAfterMove_mem (g : GameState) :
    g.statusAfterMove ∈ statuses ∧ g.statusAfterMove ≠ waitingForOpponent := by
  unfold GameState.statusAfterMove
  split
  · rcases otherTurn_cases g.status with h | h <;> rw [h] <;> decide
  · rcases winOf_cases g.status with h | h <;> rw [h] <;> decide

theorem GameState.afterMove_not_waiting (g : GameState) (pawns : List UInt8) (now : UInt64) :
    (g.afterMove pawns now).status ≠ waitingForOpponent := (g.knock pawns).statusAfterMove_mem.2

theorem GameState.afterGiveUp_status (g : GameState) (p : UInt32) (now : UInt64) :
    (g.afterGiveUp p now).status = winB ∨ (g.afterGiveUp p now).status = winA :=
  ite_eq_or_eq _ _ _

theorem GameState.afterGiveUp_not_waiting (g : GameState) (p : UInt32) (now : UInt64) :
    (g.afterGiveUp p now).status ≠ waitingForOpponent := by
  rcases g.afterGiveUp_status p now with h | h <;> rw [h] <;> decide

/-- A turn after a move means that a pawn is left. -/
theorem GameState.anyStanding_of_statusAfterMove {g : GameState}
    (h : g.statusAfterMove = turnA ∨ g.statusAfterMove = turnB) : g.AnyStanding := by
  by_contra hnone
  rw [GameState.statusAfterMove, if_neg hnone] at h
  rcases winOf_cases g.status with hw | hw <;> rw [hw] at h <;> revert h <;> decide

/-! ## The invariants of an entry -/

/-- What every entry satisfies in every reachable state. -/
structure EntryInv (tmpl : GameState) (id : UInt32) (g : GameState) : Prop where
  id_ne : id ≠ 0
  maxPawn : g.maxPawn = tmpl.maxPawn
  row : g.pawnRow ≠ [] → g.RowFits
  standing : ∀ i, g.Standing i → tmpl.Standing i
  status : g.status ∈ statuses
  playerA : g.playerAId ≠ 0
  playerB : g.playerBId = 0 ↔ g.status = waitingForOpponent

/-- What every entry satisfies when allocations succeed. -/
structure GameInv (tmpl : GameState) (id : UInt32) (g : GameState) : Prop
    extends EntryInv tmpl id g where
  fits : g.RowFits
  waiting : g.status = waitingForOpponent → g.pawnRow = tmpl.pawnRow
  turn : g.status = turnA ∨ g.status = turnB → g.AnyStanding

section Preservation

variable {tmpl g g' : GameState} {id : UInt32} {now : UInt64} {d : Datagram}
  {log : List LogLine}

theorem GameState.OnTurn.status {p : UInt32} (h : g.OnTurn p) :
    g.status = turnA ∨ g.status = turnB := by
  rcases GameState.onTurn_iff.1 h with ⟨_, h⟩ | ⟨_, h⟩
  · exact .inl h
  · exact .inr h

theorem GameState.OnTurn.not_waiting {p : UInt32} (h : g.OnTurn p) :
    g.status ≠ waitingForOpponent := by
  rcases h.status with h | h <;> rw [h] <;> decide

/-- **One change** preserves `EntryInv`. -/
theorem EntryInv.change (h : EntryInv tmpl id g) (hc : Change now d log id g g') :
    EntryInv tmpl id g' := by
  cases hc with
  | idle _ _ _ => exact h
  | seat hjoin hw _ =>
      refine { h with status := ?_, playerB := ?_ }
      · show turnB ∈ statuses
        decide
      · refine ⟨fun hz => absurd hz hjoin.1.player, fun hz => ?_⟩
        exact absurd (show turnB = waitingForOpponent from hz) (by decide)
  | move hmove =>
      obtain ⟨-, -, hcarried⟩ := hmove
      obtain ⟨hturn, -⟩ := carriedOut_iff.1 hcarried
      obtain ⟨hmem, hne⟩ := (g.knock d.movePawns).statusAfterMove_mem
      -- knocking pawns down keeps the length of the row, so an empty row stays empty
      refine { h with row := ?_, standing := ?_, status := hmem, playerB := ?_ }
      · intro hrow
        refine GameState.RowFits.knock (h.row ?_) d.movePawns
        rintro hnil
        apply hrow
        rw [← List.length_eq_zero_iff]
        exact (length_clearPawns _ _).trans (by rw [hnil]; rfl)
      · intro i hi
        exact h.standing i (GameState.standing_knock.1 hi).1
      · have hb : g.playerBId ≠ 0 := fun hz => hturn.not_waiting (h.playerB.1 hz)
        exact ⟨fun hz => absurd hz hb, fun hz => absurd hz hne⟩
  | giveUp hgive =>
      obtain ⟨-, -, hturn⟩ := hgive
      have hb : g.playerBId ≠ 0 := fun hz => hturn.not_waiting (h.playerB.1 hz)
      have hne := g.afterGiveUp_not_waiting d.playerId now
      refine { h with status := ?_, playerB := ⟨fun hz => absurd hz hb, fun hz => absurd hz hne⟩ }
      rcases g.afterGiveUp_status d.playerId now with hw | hw <;> rw [hw] <;> decide
  | keepAlive _ _ _ _ => exact { h with }

theorem GameInv.change (htmpl : tmpl.AnyStanding) (h : GameInv tmpl id g)
    (hc : Change now d log id g g') : GameInv tmpl id g' := by
  have hentry := h.toEntryInv.change hc
  cases hc with
  | idle _ _ _ => exact h
  | seat hjoin hw _ =>
      refine { hentry with fits := h.fits, waiting := fun _ => h.waiting hw, turn := fun _ => ?_ }
      obtain ⟨i, hi, hs⟩ := htmpl
      refine ⟨i, ?_, ?_⟩
      · show i ≤ g.maxPawn.toNat
        rwa [h.maxPawn]
      · show PackedBits.bitAt g.pawnRow i = true
        rwa [h.waiting hw]
  | move hmove =>
      refine { hentry with fits := h.fits.knock _, waiting := ?_, turn := ?_ }
      · intro hw
        exact absurd hw (g.knock d.movePawns).statusAfterMove_mem.2
      · exact GameState.anyStanding_of_statusAfterMove
  | giveUp hgive =>
      have hne := g.afterGiveUp_not_waiting d.playerId now
      refine { hentry with fits := h.fits, waiting := fun hz => absurd hz hne, turn := ?_ }
      intro hz
      rcases g.afterGiveUp_status d.playerId now with hw | hw <;> rw [hw] at hz <;>
        exact absurd hz (by decide)
  | keepAlive _ _ _ _ =>
      exact { hentry with fits := h.fits, waiting := h.waiting, turn := h.turn }

end Preservation

/-! ## The template of a server -/

section Server

variable (srv : Server)

theorem Server.isBoardOf : IsBoardOf srv.pawnRow srv.template := by
  obtain ⟨hpos, hmax, -⟩ := isValidPawnRow_iff.1 srv.valid
  obtain ⟨tmpl, htmpl, hboard⟩ := initializePawnRow_spec hpos hmax srv.uninitialised
  obtain rfl : tmpl = srv.template := Except.ok.inj (htmpl.symm.trans srv.init)
  exact hboard

theorem Server.standing_le {i : ℕ} (h : srv.template.Standing i) :
    i ≤ srv.template.maxPawn.toNat := by
  have hget := (srv.isBoardOf.standing_iff i).1 h
  have hlt : i < srv.pawnRow.length := by
    by_contra hle
    rw [List.getElem?_eq_none (Nat.le_of_not_lt hle)] at hget
    exact absurd hget (by simp)
  rw [srv.isBoardOf.maxPawn_eq]
  omega

/-- The first pawn of every board stands. -/
theorem Server.anyStanding : srv.template.AnyStanding := by
  obtain ⟨-, -, hhead, -⟩ := isValidPawnRow_iff.1 srv.valid
  refine ⟨0, Nat.zero_le _, (srv.isBoardOf.standing_iff 0).2 ?_⟩
  rwa [← List.head?_eq_getElem?]

end Server

/-! ## The invariants hold -/

section Holds

variable {srv : Server} {s : ServerState} {id : UInt32} {g : GameState}

theorem EntryInv.appears {now : UInt64} {alloc : Allocation} {d : Datagram} (hid : id ≠ 0)
    (h : Appears srv.template now alloc d s id g) : EntryInv srv.template id g := by
  have hp := h.join.1.player
  have hstatus : waitingForOpponent ∈ statuses := by decide
  rcases h.game with ⟨_, rfl⟩ | ⟨_, rfl⟩
  · exact {
      id_ne := hid
      maxPawn := rfl
      row := fun _ => srv.isBoardOf.fits
      standing := fun _ hi => hi
      status := hstatus
      playerA := hp
      playerB := ⟨fun _ => rfl, fun _ => rfl⟩ }
  · exact {
      id_ne := hid
      maxPawn := rfl
      row := fun hrow => absurd rfl hrow
      standing := fun i hi => absurd (PackedBits.lt_of_bitAt hi) (Nat.not_lt_zero _)
      status := hstatus
      playerA := hp
      playerB := ⟨fun _ => rfl, fun _ => rfl⟩ }

theorem GameInv.appears {now : UInt64} {alloc : Allocation} {d : Datagram} (hid : id ≠ 0)
    (halloc : alloc.Succeeds) (h : Appears srv.template now alloc d s id g) :
    GameInv srv.template id g := by
  have hentry := EntryInv.appears hid h
  rcases h.game with ⟨_, rfl⟩ | ⟨hfail, _⟩
  · refine { hentry with fits := srv.isBoardOf.fits, waiting := fun _ => rfl, turn := ?_ }
    rintro (hz | hz)
    · exact absurd (show waitingForOpponent = turnA from hz) (by decide)
    · exact absurd (show waitingForOpponent = turnB from hz) (by decide)
  · exact absurd halloc hfail

theorem Reachable.entryInv (h : Reachable srv s) (hg : s.activeGames.lookup id = some g) :
    EntryInv srv.template id g := by
  have hle : ∀ s l s', Step srv s l s' → Step srv s l s' := fun _ _ _ hst => hst
  refine entry_invariant (P := EntryInv srv.template) hle ?_ ?_ h id g hg
  · intro s l s' id g g' _ hinv hev
    exact hev.preserves hinv fun _ _ hchange => hinv.change hchange
  · intro s l s' id g' _ hid happ
    obtain ⟨event, output⟩ := l
    cases event with
    | sweep now => exact happ.elim
    | datagram now alloc d => exact EntryInv.appears hid happ

theorem ReachableCompleted.gameInv (h : ReachableCompleted srv s)
    (hg : s.activeGames.lookup id = some g) : GameInv srv.template id g := by
  have hle : ∀ s l s', CompletedStep srv s l s' → Step srv s l s' := fun _ _ _ hst => hst.2
  refine entry_invariant (P := GameInv srv.template) hle ?_ ?_ h id g hg
  · intro s l s' id g g' _ hinv hev
    exact hev.preserves hinv fun _ _ hchange => hinv.change srv.anyStanding hchange
  · intro s l s' id g' hst hid happ
    obtain ⟨event, output⟩ := l
    cases event with
    | sweep now => exact happ.elim
    | datagram now alloc d => exact GameInv.appears hid hst.1 happ

theorem ReachableCompleted.reachable (h : ReachableCompleted srv s) : Reachable srv s :=
  h.mono fun _ _ _ hst => hst.2

end Holds

end Kayles
