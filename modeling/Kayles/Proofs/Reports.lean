import Kayles.Proofs.Replies

set_option autoImplicit false

/-! # Error reports

The byte a MSG_WRONG_MSG is to point at is that of the first check that fails, in the order of the
protocol: the type, the length, the player id, the game id, the registration. Every reply of every
path points there, but one: a player who is not registered in the game is sent a second report,
which points at the game id. -/

namespace Kayles

/-! ## The field an error report is to name -/

/-- The byte of the first check that `d` fails in `s`, if it fails one. -/
def ServerState.offendingByte (s : ServerState) (d : Datagram) : Option UInt8 :=
  if d.len = 0 ∨ 4 < d.msgType then some 0
  else if d.len ≠ Datagram.messageSize d.msgType then
    some (UInt8.ofNat (min d.len (Datagram.messageSize d.msgType)))
  else if d.playerId = 0 then some 1
  else if d.msgType = 0 then none
  else
    match s.activeGames.lookup d.gameId with
    | none => some 5
    | some g => if g.Registered d.playerId then none else some 1

/-- The report `m` echoes the datagram and points at its byte `e`. -/
structure PointsAt (d : Datagram) (e : UInt8) (m : Bytes) : Prop where
  length : m.length = 14
  echo : m.take 12 = d.buf.take (min d.len 12) ++ List.replicate (12 - min d.len 12) 0
  status : m[12]? = some 255
  index : m[13]? = some e

/-- Every MSG_WRONG_MSG sent in answer to `d` points at the byte of the first failed check. -/
def ReportsOffence (srv : Server) (s : ServerState) (d : Datagram) : Prop :=
  ∀ now alloc s' out, Handles srv now alloc d s s' out →
    ∀ m ∈ out.sent, IsWrongMsg m → ∃ e, s.offendingByte d = some e ∧ PointsAt d e m

section Reports

variable {s : ServerState} {d : Datagram} {e e' : UInt8} {g : GameState}

/-- The report that `handle_wrong_message` builds. -/
theorem pointsAt_wrongMessage (d : Datagram) (e : UInt8) : PointsAt d e (d.wrongMessage e) := by
  have hecho := d.length_echo
  refine ⟨?_, ?_, ?_, ?_⟩
  · rw [Datagram.wrongMessage, List.length_append, hecho]
    rfl
  · rw [Datagram.wrongMessage, List.take_left' hecho]
  · rw [Datagram.wrongMessage, List.getElem?_append_right (by rw [hecho]), hecho]
    rfl
  · rw [Datagram.wrongMessage, List.getElem?_append_right (by rw [hecho]; decide), hecho]
    rfl

/-- A report points at one byte. -/
theorem PointsAt.index_eq {m : Bytes} (h : PointsAt d e m) (h' : PointsAt d e' m) : e = e' :=
  Option.some.inj (h.index.symm.trans h'.index)

theorem Datagram.known_iff : d.Known ↔ ¬ (d.len = 0 ∨ 4 < d.msgType) := by
  rw [Datagram.Known, not_or, UInt8.not_lt]

/-- The byte of a malformed message. -/
theorem ServerState.offendingByte_of_malformed (h : ¬ d.WellFormed) :
    s.offendingByte d = some d.errorIndex := by
  unfold ServerState.offendingByte Datagram.errorIndex
  by_cases hknown : d.Known
  · rw [if_neg (Datagram.known_iff.1 hknown), if_neg (not_not.2 hknown)]
    by_cases hlen : d.len = Datagram.messageSize d.msgType
    · have hp : d.playerId = 0 := by_contra fun hp => h ⟨hknown, hlen, hp⟩
      rw [if_neg (not_not.2 hlen), if_neg (not_not.2 hlen), if_pos hp]
    · rw [if_pos hlen, if_pos hlen]
  · have hbad : d.len = 0 ∨ 4 < d.msgType := by
      by_contra hno
      exact hknown (Datagram.known_iff.2 hno)
    rw [if_pos hbad, if_pos hknown]

/-- The byte of a well-formed message that names a game. -/
theorem ServerState.offendingByte_of_named (h : d.WellFormed) (ht : d.msgType ≠ 0) :
    s.offendingByte d = match s.activeGames.lookup d.gameId with
      | none => some 5
      | some g => if g.Registered d.playerId then none else some 1 := by
  unfold ServerState.offendingByte
  rw [if_neg (Datagram.known_iff.1 h.known), if_neg (not_not.2 h.len_eq), if_neg h.player, if_neg ht]

/-- A player who is not registered gets a report that points at the game id. -/
theorem not_reportsOffence_of_stranger {srv : Server} (h : d.WellFormed) (ht : d.msgType ≠ 0)
    (hg : s.activeGames.lookup d.gameId = some g) (hreg : ¬ g.Registered d.playerId) :
    ¬ ReportsOffence srv s d := by
  intro hall
  have hfails : s.LookupFails d := by
    intro g' hg'
    obtain rfl := Option.mem_unique hg hg'
    exact hreg
  have hhandling : Handling srv.template 0 .ok d s _ _ := .notFound h ht hfails
  have hhandles := hhandling.handles fun _ g' hg' hreg' => absurd hreg' (hfails g' hg')
  -- the second of the two replies
  obtain ⟨e, he, hpoints⟩ := hall _ _ _ _ hhandles (d.wrongMessage 5)
    (List.mem_cons_of_mem _ List.mem_cons_self) (isWrongMsg_wrongMessage d 5)
  rw [ServerState.offendingByte_of_named h ht, hg] at he
  obtain rfl : (1 : UInt8) = e := by simpa [hreg] using he
  exact absurd (hpoints.index_eq (pointsAt_wrongMessage d 5)) (by decide)

end Reports

/-- **Error reports** point at the offending field, unless the message comes from a player who is not
    registered in the active game that it names. -/
theorem reports_offence_iff (srv : Server) {s : ServerState} (hs : Reachable srv s) (d : Datagram) :
    ReportsOffence srv s d ↔ ¬ (d.WellFormed ∧ d.msgType ≠ 0 ∧
      ∃ g, s.activeGames.lookup d.gameId = some g ∧ ¬ g.Registered d.playerId) := by
  constructor
  · intro hall hstranger
    obtain ⟨h, ht, g, hg, hreg⟩ := hstranger
    exact not_reportsOffence_of_stranger h ht hg hreg hall
  · intro hno now alloc s' out hh m hm hwrong
    cases hh.handling.replied with
    | nothing _ hsent =>
        rw [hsent] at hm
        exact absurd hm List.not_mem_nil
    | wrong h _ hsent =>
        rw [hsent, List.mem_singleton] at hm
        subst hm
        exact ⟨_, ServerState.offendingByte_of_malformed h, pointsAt_wrongMessage d _⟩
    | twice h ht hfails _ hsent =>
        have hnone : s.activeGames.lookup d.gameId = none := by
          cases hg : s.activeGames.lookup d.gameId with
          | none => rfl
          | some g => exact absurd ⟨h, ht, g, hg, hfails g hg⟩ hno
        have hindex : s.lookupErrorIndex d = 5 := if_neg (Finmap.lookup_eq_none.1 hnone)
        rw [hsent, hindex, List.mem_pair, or_self] at hm
        subst hm
        refine ⟨5, ?_, pointsAt_wrongMessage d 5⟩
        rw [ServerState.offendingByte_of_named h ht, hnone]
    | gameState id g _ _ hg hsent =>
        rw [hsent, List.mem_singleton] at hm
        subst hm
        have hstatus := ((hs.handles hh).entryInv hg).status
        exact absurd hwrong (not_isWrongMsg_gameStateMessage hstatus id)

theorem reports_offence_iff_started :
    ReportsOffence threePawns (started threePawns 7 9 0) (.giveUp 9 4) := by
  have hs := reachable_started threePawns (p := 7) (q := 9) (by decide) (by decide) 0
  refine (reports_offence_iff threePawns hs.reachable (.giveUp 9 4)).2 ?_
  intro hstranger
  obtain ⟨-, -, g, hg, -⟩ := hstranger
  obtain ⟨hid, -⟩ := eq_of_lookup_singleton hg
  exact absurd hid (by decide)

/-- Player 5 gives up the game of 7 and 9. -/
theorem not_all_reports_point : ¬ ∀ (srv : Server) (s : ServerState), Reachable srv s →
    ∀ d, ReportsOffence srv s d := by
  intro hall
  have hs := reachable_started threePawns (p := 7) (q := 9) (by decide) (by decide) 0
  have hgive : (Datagram.giveUp 5 1).IsGiveUp := Datagram.isGiveUp_giveUp (by decide) 1
  exact not_reportsOffence_of_stranger hgive.1 hgive.type_ne (lookup_started threePawns 7 9 0)
    (by decide) (hall threePawns _ hs.reachable (.giveUp 5 1))

end Kayles
