import Kayles.Proofs.Invariants
import Kayles.Spec.Session

set_option autoImplicit false

/-! # A game of the server as a session

`GameState.session` is the view of a game in which the row is the set of its standing pawns and the
status a phase. While a game stays active, every completed step of the server is an act of its
session or does not touch it: `LiveStep.simulates`. What the laws of sessions say of a history of acts
then holds of every run of the server. -/

namespace Kayles

open PackedBits (ones)
open Session (Side Phase Act)

/-! ## The view -/

/-- The phase a status stands for. -/
def phaseOf (status : UInt8) : Phase :=
  if status = turnA then .turn .a
  else if status = turnB then .turn .b
  else if status = winA then .won .a
  else if status = winB then .won .b
  else .waiting

/-- A game as a session. -/
def GameState.session (g : GameState) : Session.State ℕ where
  phase := phaseOf g.status
  standing := ones g.pawnRow

theorem GameState.mem_standing {g : GameState} {i : ℕ} : i ∈ g.session.standing ↔ g.Standing i :=
  PackedBits.mem_ones

/-- The pawns of a move as a set of positions. -/
def pawnSet (pawns : List UInt8) : Finset ℕ := (pawns.map UInt8.toNat).toFinset

theorem mem_pawnSet {pawns : List UInt8} {i : ℕ} : i ∈ pawnSet pawns ↔ i ∈ pawns.map UInt8.toNat :=
  List.mem_toFinset

theorem GameState.standing_session_knock (g : GameState) (pawns : List UInt8) :
    (g.knock pawns).session.standing = g.session.standing \ pawnSet pawns :=
  PackedBits.ones_eq_sdiff fun j => by
    rw [mem_pawnSet]
    exact bitAt_clearPawns

/-- A pawn is left when the set of standing pawns is not empty: none stands beyond `max_pawn`. -/
theorem anyStanding_iff {srv : Server} {g : GameState} (hmax : g.maxPawn = srv.template.maxPawn)
    (hstanding : ∀ i, g.Standing i → srv.template.Standing i) :
    g.AnyStanding ↔ g.session.standing.Nonempty := by
  constructor
  · intro h
    obtain ⟨i, -, hi⟩ := h
    exact ⟨i, GameState.mem_standing.2 hi⟩
  · intro h
    obtain ⟨i, hi⟩ := h
    have hi := GameState.mem_standing.1 hi
    exact ⟨i, hmax ▸ srv.standing_le (hstanding i hi), hi⟩

theorem GameInv.anyStanding_iff {srv : Server} {id : UInt32} {g : GameState}
    (h : GameInv srv.template id g) : g.AnyStanding ↔ g.session.standing.Nonempty :=
  Kayles.anyStanding_iff h.maxPawn h.standing

theorem GameInv.anyStanding_knock_iff {srv : Server} {id : UInt32} {g : GameState}
    (h : GameInv srv.template id g) (pawns : List UInt8) :
    (g.knock pawns).AnyStanding ↔ (g.session.standing \ pawnSet pawns).Nonempty := by
  rw [← GameState.standing_session_knock]
  exact Kayles.anyStanding_iff h.maxPawn fun i hi =>
    h.standing i (GameState.standing_knock.1 hi).1

/-- A turn is a phase, and the mover's statuses are the phases of a move. -/
theorem phaseOf_turn {status : UInt8} (h : status = turnA ∨ status = turnB) :
    ∃ side, phaseOf status = .turn side ∧ phaseOf (otherTurn status) = .turn side.other ∧
      phaseOf (winOf status) = .won side := by
  rcases h with rfl | rfl
  · exact ⟨.a, rfl, rfl, rfl⟩
  · exact ⟨.b, rfl, rfl, rfl⟩

/-- The status of a phase. -/
def statusOf : Phase → UInt8
  | .waiting => waitingForOpponent
  | .turn .a => turnA
  | .turn .b => turnB
  | .won .a => winA
  | .won .b => winB

theorem statusOf_phaseOf {status : UInt8} (h : status ∈ statuses) :
    statusOf (phaseOf status) = status := by
  simp only [statuses, List.mem_cons, List.not_mem_nil, or_false] at h
  rcases h with rfl | rfl | rfl | rfl | rfl <;> rfl

/-- Valid statuses stand for different phases. -/
theorem eq_of_phaseOf {status status' : UInt8} (h : status ∈ statuses) (h' : status' ∈ statuses)
    (hphase : phaseOf status = phaseOf status') : status = status' := by
  rw [← statusOf_phaseOf h, hphase, statusOf_phaseOf h']

/-! ## What a transition does in a game -/

abbrev Transition := LTS.Transition ServerState Label

/-- The pawns of the move that a transition carries out in the game `id`, if it does. -/
def moveIn (id : UInt32) (t : Transition) : Option (List UInt8) :=
  match t.label.event, t.pre.activeGames.lookup id with
  | .datagram _ _ d, some g => if d.MovesIn id g then some d.movePawns else none
  | _, _ => none

/-- The winner of the game `id` by the GIVE_UP that a transition carries out, if it does. -/
def giveUpIn (id : UInt32) (t : Transition) : Option Side :=
  match t.label.event, t.pre.activeGames.lookup id with
  | .datagram _ _ d, some g =>
    if d.GivesUpIn id g then some (if g.playerAId = d.playerId then .b else .a) else none
  | _, _ => none

section Carried

variable {s s' : ServerState} {now : UInt64} {alloc : Allocation} {d : Datagram} {out : Output}
  {id : UInt32} {g : GameState}

theorem moveIn_of_movesIn (hg : s.activeGames.lookup id = some g) (h : d.MovesIn id g) :
    moveIn id ⟨s, ⟨.datagram now alloc d, out⟩, s'⟩ = some d.movePawns := by
  simp only [moveIn, hg]
  exact if_pos h

theorem giveUpIn_of_move (hg : s.activeGames.lookup id = some g) (h : d.IsMove) :
    giveUpIn id ⟨s, ⟨.datagram now alloc d, out⟩, s'⟩ = none := by
  simp only [giveUpIn, hg]
  exact if_neg fun hgives => hgives.1.not_move h

end Carried

/-- A transition prints that a player joined the game `id`. -/
def Seats (id : UInt32) (t : Transition) : Prop := ∃ p, LogLine.joined p id ∈ t.label.output.log

/-- The line says that a player joined the game `id`. -/
def LogLine.joins (id : UInt32) : LogLine → Bool
  | .joined _ gameId => gameId == id
  | _ => false

theorem seats_iff {id : UInt32} {t : Transition} :
    t.label.output.log.any (LogLine.joins id) = true ↔ Seats id t := by
  rw [List.any_eq_true]
  constructor
  · intro h
    obtain ⟨line, hmem, hjoins⟩ := h
    cases line with
    | joined p gameId =>
        obtain rfl : gameId = id := beq_iff_eq.1 hjoins
        exact ⟨p, hmem⟩
    | created _ _ => simp [LogLine.joins] at hjoins
    | timedOut _ => simp [LogLine.joins] at hjoins
  · intro h
    obtain ⟨p, hmem⟩ := h
    exact ⟨_, hmem, by simp [LogLine.joins]⟩

instance (id : UInt32) (t : Transition) : Decidable (Seats id t) := decidable_of_iff _ seats_iff

/-- The act of the session `id` that a transition is. -/
def actIn (id : UInt32) (t : Transition) : Option (Act ℕ) :=
  match moveIn id t, giveUpIn id t with
  | some pawns, _ => some (.move (pawnSet pawns))
  | none, some winner => some (.giveUp winner)
  | none, none => if Seats id t then some .seat else none

/-! ## What a run does in a game -/

theorem moves_filterMap_actIn (id : UInt32) (tr : List Transition) :
    Session.moves (tr.filterMap (actIn id)) = (tr.filterMap (moveIn id)).map pawnSet := by
  induction tr with
  | nil => rfl
  | cons t tr ih =>
      rw [List.filterMap_cons, List.filterMap_cons, actIn]
      cases hmove : moveIn id t with
      | some pawns => simpa [Session.moves] using ih
      | none =>
          cases hgive : giveUpIn id t with
          | some winner => simpa [Session.moves] using ih
          | none => by_cases hseat : Seats id t <;> simpa [Session.moves, hseat] using ih

theorem giveUp_mem_acts {id : UInt32} {tr : List Transition} {winner : Side}
    (h : Act.giveUp winner ∈ tr.filterMap (actIn id)) : ∃ t ∈ tr, giveUpIn id t = some winner := by
  obtain ⟨t, ht, hact⟩ := List.mem_filterMap.1 h
  refine ⟨t, ht, ?_⟩
  unfold actIn at hact
  split at hact
  · simp at hact
  · next w _ hgive =>
      obtain rfl : w = winner := by simpa using hact
      exact hgive
  · split at hact <;> simp at hact

theorem seat_mem_acts {id : UInt32} {tr : List Transition}
    (h : Act.seat ∈ tr.filterMap (actIn id)) : ∃ t ∈ tr, Seats id t := by
  obtain ⟨t, ht, hact⟩ := List.mem_filterMap.1 h
  refine ⟨t, ht, ?_⟩
  unfold actIn at hact
  split at hact
  · simp at hact
  · simp at hact
  · by_contra hno
    simp [hno] at hact

/-! ## The simulation -/

/-- A completed step after which the game `id` is still active. -/
def LiveStep (srv : Server) (id : UInt32) (s : ServerState) (l : Label) (s' : ServerState) : Prop :=
  CompletedStep srv s l s' ∧ id ∈ s'.activeGames

/-- The game `id` of `s` is the session `a`. -/
def IsSession (srv : Server) (id : UInt32) (s : ServerState) (a : Session.State ℕ) : Prop :=
  ∃ g, s.activeGames.lookup id = some g ∧ GameInv srv.template id g ∧ a = g.session

section Simulation

variable {srv : Server} {id : UInt32} {s s' : ServerState} {l : Label} {a a' : Session.State ℕ}
  {now : UInt64} {alloc : Allocation} {d : Datagram} {out : Output} {g : GameState}

theorem actIn_sweep (h : Sweeps srv now s s' out) :
    actIn id ⟨s, ⟨.sweep now, out⟩, s'⟩ = none := by
  have hseats : ¬ Seats id (⟨s, ⟨.sweep now, out⟩, s'⟩ : Transition) := by
    intro h
    obtain ⟨p, hmem⟩ := h
    exact h.joined_notMem p id hmem
  simp [actIn, moveIn, giveUpIn, hseats]

theorem actIn_datagram (hg : s.activeGames.lookup id = some g) :
    actIn id ⟨s, ⟨.datagram now alloc d, out⟩, s'⟩ =
      if d.MovesIn id g then some (.move (pawnSet d.movePawns))
      else if d.GivesUpIn id g then
        some (.giveUp (if g.playerAId = d.playerId then .b else .a))
      else if Seats id ⟨s, ⟨.datagram now alloc d, out⟩, s'⟩ then some .seat else none := by
  have hmove : moveIn id ⟨s, ⟨.datagram now alloc d, out⟩, s'⟩ =
      if d.MovesIn id g then some d.movePawns else none := by simp only [moveIn, hg]
  have hgive : giveUpIn id ⟨s, ⟨.datagram now alloc d, out⟩, s'⟩ =
      if d.GivesUpIn id g then some (if g.playerAId = d.playerId then .b else .a) else none := by
    simp only [giveUpIn, hg]
  rw [actIn, hmove, hgive]
  by_cases hm : d.MovesIn id g
  · simp only [if_pos hm]
  · by_cases hu : d.GivesUpIn id g
    · simp only [if_neg hm, if_pos hu]
    · simp only [if_neg hm, if_neg hu]

/-- The act of a move. -/
theorem GameInv.session_afterMove (h : GameInv srv.template id g) {p : UInt32} (hturn : g.OnTurn p)
    {pawns : List UInt8} (hne : pawns ≠ []) (hlegal : g.Legal pawns) :
    Session.Step g.session (.move (pawnSet pawns)) (g.afterMove pawns now).session := by
  obtain ⟨side, hside, hother, hwon⟩ := phaseOf_turn hturn.status
  have hnonempty : (pawnSet pawns).Nonempty := by
    obtain ⟨i, hi⟩ := List.exists_mem_of_ne_nil pawns hne
    exact ⟨i.toNat, mem_pawnSet.2 (List.mem_map_of_mem hi)⟩
  have hsub : pawnSet pawns ⊆ g.session.standing := by
    intro i hi
    obtain ⟨j, hj, rfl⟩ := List.mem_map.1 (mem_pawnSet.1 hi)
    exact GameState.mem_standing.2 (hlegal j hj).2
  have hphase : phaseOf (g.knock pawns).statusAfterMove =
      if (g.session.standing \ pawnSet pawns).Nonempty then .turn side.other else .won side := by
    rw [← hother, ← hwon, GameState.statusAfterMove, if_congr (h.anyStanding_knock_iff pawns) rfl rfl]
    split <;> rfl
  have hsession : (g.afterMove pawns now).session =
      { phase := if (g.session.standing \ pawnSet pawns).Nonempty then .turn side.other
          else .won side,
        standing := g.session.standing \ pawnSet pawns } := by
    rw [← hphase, ← GameState.standing_session_knock]
    rfl
  rw [hsession]
  exact .move hside hnonempty hsub

theorem session_afterGiveUp {p : UInt32} (hturn : g.OnTurn p) :
    Session.Step g.session (.giveUp (if g.playerAId = p then .b else .a))
      (g.afterGiveUp p now).session := by
  obtain ⟨side, hside, -⟩ := phaseOf_turn hturn.status
  have hsession : (g.afterGiveUp p now).session =
      { g.session with phase := .won (if g.playerAId = p then .b else .a) } := by
    by_cases hA : g.playerAId = p
    · simp only [GameState.session, GameState.afterGiveUp, if_pos hA]
      rfl
    · simp only [GameState.session, GameState.afterGiveUp, if_neg hA]
      rfl
  rw [hsession]
  exact .giveUp hside _

/-- **The simulation.** A completed step is an act of the session of a game that stays active, or
    does not touch it. -/
theorem LiveStep.simulates (ha : IsSession srv id s a) (h : LiveStep srv id s l s') :
    ∃ a', IsSession srv id s' a' ∧ LTS.Stutters Session.Step a (actIn id ⟨s, l, s'⟩) a' := by
  obtain ⟨g, hg, hinv, rfl⟩ := ha
  obtain ⟨g', hg', hev⟩ := h.1.2.evolves hg h.2
  obtain ⟨event, out⟩ := l
  cases event with
  | sweep now =>
      obtain rfl : g' = g := hev
      rw [actIn_sweep h.1.2]
      exact ⟨g'.session, ⟨g', hg', hinv, rfl⟩, rfl⟩
  | datagram now alloc d =>
      have hchange : Change now d out.log id g g' := hev
      refine ⟨g'.session, ⟨g', hg', hinv.change srv.anyStanding hchange, rfl⟩, ?_⟩
      rw [actIn_datagram hg]
      cases hchange with
      | idle hmove hgive hlog =>
          have hseat : ¬ Seats id ⟨s, ⟨.datagram now alloc d, out⟩, s'⟩ := not_exists.2 hlog
          rw [if_neg hmove, if_neg hgive, if_neg hseat]
          rfl
      | seat hjoin hw hlog =>
          have hmove : ¬ d.MovesIn id g := fun hm => hm.1.type_ne hjoin.2
          have hgive : ¬ d.GivesUpIn id g := fun hu => hu.1.type_ne hjoin.2
          have hseat : Seats id ⟨s, ⟨.datagram now alloc d, out⟩, s'⟩ :=
            ⟨d.playerId, by simp [hlog]⟩
          rw [if_neg hmove, if_neg hgive, if_pos hseat]
          have hphase : phaseOf g.status = .waiting := by
            rw [hw]
            rfl
          exact .seat hphase
      | move hm =>
          obtain ⟨hturn, hlegal⟩ := carriedOut_iff.1 hm.2.2
          rw [if_pos hm]
          exact hinv.session_afterMove hturn d.movePawns_ne_nil hlegal
      | giveUp hu =>
          rw [if_neg fun hm => hu.1.not_move hm.1, if_pos hu]
          exact session_afterGiveUp hu.2.2
      | keepAlive hk hid hreg hlog =>
          have hseat : ¬ Seats id ⟨s, ⟨.datagram now alloc d, out⟩, s'⟩ := by simp [Seats, hlog]
          rw [if_neg fun hm => hk.not_move hm.1, if_neg fun hu => hk.not_giveUp hu.1, if_neg hseat]
          rfl

/-- **Runs are histories.** While a game stays active its acts are a history of its session. -/
theorem history_of_run {tr : List Transition} (h : LTS.Run (LiveStep srv id) s tr s')
    (ha : IsSession srv id s a) :
    ∃ a', IsSession srv id s' a' ∧ Session.History a (tr.filterMap (actIn id)) a' := by
  obtain ⟨atr, a', hrun, ha', hacts⟩ :=
    h.simulate (fun _ _ _ _ hr hst => LiveStep.simulates hr hst) ha
  exact ⟨a', ha', atr, hrun, hacts⟩

end Simulation

end Kayles
