import Kayles.Proofs.Buffer
import Kayles.Proofs.KeepAlive
import Kayles.Proofs.Lifecycle

set_option autoImplicit false

/-! # Retries

A client whose reply is lost waits for its timeout, and its user sends the request again. For a
message that names a game this is safe, and more: the answer to the second copy is, byte for byte,
the answer that was lost, as long as the game has stayed active, nothing was carried out in it in
the meantime and no allocation has failed (`retries_answered_alike`). A JOIN that is sent again
joins again. -/

namespace Kayles

/-- There is nothing left of the message to be carried out in its game. -/
def Settled (d : Datagram) (g : GameState) : Prop :=
  ¬ d.MovesIn d.gameId g ∧ ¬ d.GivesUpIn d.gameId g

/-- The replies to a message that names the game `g`. -/
def Datagram.answer (d : Datagram) (g : GameState) : List Bytes :=
  if g.Registered d.playerId then [gameStateMessage g d.gameId]
  else [d.wrongMessage errorIdxPlayer, d.wrongMessage errorIdxGame]

section Retry

variable {srv : Server} {tmpl : GameState} {now : UInt64} {alloc : Allocation} {d d' : Datagram}
  {s s' : ServerState} {out : Output} {l : Label} {id : UInt32} {g g' : GameState}
  {tr : List Transition}

/-- The clock of a game shows in no reply and in no check. -/
theorem GameState.SameGame.answer (h : g.SameGame g') : d.answer g' = d.answer g := by
  rw [h.eq_touch]
  rfl

theorem GameState.SameGame.settled (h : g.SameGame g') (hsettled : Settled d g) : Settled d g' := by
  rw [h.eq_touch]
  refine ⟨fun hm => hsettled.1 ⟨hm.1, hm.2.1, ?_⟩, hsettled.2⟩
  have hcarried := carriedOut_iff.1 hm.2.2
  exact carriedOut_iff.2 hcarried

theorem settled_of_not_onTurn (h : ¬ g.OnTurn d.playerId) : Settled d g :=
  ⟨fun hm => h (carriedOut_iff.1 hm.2.2).1, fun hu => h hu.2.2⟩

/-- After a move its pawns are down. -/
theorem settled_afterMove (hmove : d.IsMove) : Settled d (g.afterMove d.movePawns now) := by
  refine ⟨fun hm => ?_, fun hu => hu.1.not_move hmove⟩
  obtain ⟨i, hi⟩ := List.exists_mem_of_ne_nil _ d.movePawns_ne_nil
  have hstands : (g.knock d.movePawns).Standing i.toNat := ((carriedOut_iff.1 hm.2.2).2 i hi).2
  exact (GameState.standing_knock.1 hstands).2 (List.mem_map_of_mem hi)

theorem settled_of_keepAlive (hkeep : d.IsKeepAlive) : Settled d g :=
  ⟨fun hm => hkeep.not_move hm.1, fun hu => hkeep.not_giveUp hu.1⟩

/-- **One handling** of a message that names a game settles it, and answers with the game as it is
    then. -/
theorem Handling.settles (h : Handling tmpl now alloc d s s' out) (hwf : d.WellFormed)
    (ht : d.msgType ≠ 0) (hg : s.activeGames.lookup d.gameId = some g) :
    ∃ g', s'.activeGames.lookup d.gameId = some g' ∧ Settled d g' ∧ out.sent = d.answer g' := by
  cases h with
  | malformed hbad => exact absurd hwf hbad
  | seated _ _ hj _ _ | full hj _ _ | unallocated _ hj _ _ _ _ | unfinished _ hj _ _ _ _
  | created _ hj _ _ _ _ => exact absurd hj.2 ht
  | notFound _ _ hfails =>
      have hreg := hfails g hg
      refine ⟨g, hg, settled_of_not_onTurn fun hturn => hreg hturn.registered, ?_⟩
      have hindex : s.lookupErrorIndex d = errorIdxPlayer :=
        if_pos (Finmap.mem_of_lookup_eq_some hg)
      rw [Datagram.answer, if_neg hreg, hindex]
  | refused g₀ _ hg₀ hreg hno =>
      obtain rfl : g = g₀ := Option.mem_unique hg hg₀
      refine ⟨g, hg, ⟨fun hm => ?_, fun hu => ?_⟩, (if_pos hreg).symm⟩
      · exact hno ⟨(carriedOut_iff.1 hm.2.2).1, fun _ => (carriedOut_iff.1 hm.2.2).2⟩
      · exact hno ⟨hu.2.2, fun hmove => absurd hmove hu.1.not_move⟩
  | moved g₀ hmove _ hturn _ _ =>
      exact ⟨_, Finmap.lookup_insert _, settled_afterMove hmove, (if_pos hturn.registered).symm⟩
  | gaveUp g₀ _ _ hturn =>
      refine ⟨_, Finmap.lookup_insert _, settled_of_not_onTurn ?_, (if_pos hturn.registered).symm⟩
      exact (g₀.over_afterGiveUp d.playerId now).not_onTurn _
  | keptAlive g₀ hkeep _ hreg =>
      exact ⟨_, Finmap.lookup_insert _, settled_of_keepAlive hkeep, (if_pos hreg).symm⟩

/-- A step that carries nothing out in a game leaves it the same. -/
theorem LiveStep.sameGame_of_none (h : LiveStep srv id s l s') (hquiet : actIn id ⟨s, l, s'⟩ = none)
    (hg : s.activeGames.lookup id = some g) :
    ∃ g', s'.activeGames.lookup id = some g' ∧ g.SameGame g' := by
  obtain ⟨g', hg', hev⟩ := h.1.2.evolves hg h.2
  refine ⟨g', hg', ?_⟩
  obtain ⟨event, out⟩ := l
  cases event with
  | sweep now =>
      obtain rfl : g' = g := hev
      exact GameState.SameGame.refl _
  | datagram now alloc d =>
      rw [actIn_datagram hg] at hquiet
      split_ifs at hquiet with hmove hgive hseats
      cases hev with
      | idle _ _ _ => exact GameState.SameGame.refl g
      | keepAlive _ _ _ _ => exact g.sameGame_touch now
      | seat _ _ hlog => exact absurd ⟨d.playerId, hlog ▸ List.mem_cons_self⟩ hseats
      | move hm => exact absurd hm hmove
      | giveUp hu => exact absurd hu hgive

/-- **A quiet run** leaves the game the same. -/
theorem sameGame_of_quiet (hrun : LTS.Run (LiveStep srv id) s tr s')
    (hquiet : ∀ t ∈ tr, actIn id t = none) (hg : s.activeGames.lookup id = some g) :
    ∃ g', s'.activeGames.lookup id = some g' ∧ g.SameGame g' := by
  induction hrun with
  | refl => exact ⟨g, hg, GameState.SameGame.refl g⟩
  | snoc _ hstep ih =>
      obtain ⟨g₁, hg₁, hsame⟩ := ih fun t ht => hquiet t (List.mem_append_left _ ht)
      obtain ⟨g₂, hg₂, hsame'⟩ := hstep.sameGame_of_none
        (hquiet _ (List.mem_append_right _ List.mem_cons_self)) hg₁
      exact ⟨g₂, hg₂, hsame.trans hsame'⟩

/-- A message that is settled leaves its game the same. -/
theorem Handles.sameGame_of_settled (h : Handles srv now alloc d s s' out) (ht : d.msgType ≠ 0)
    (hg : s.activeGames.lookup d.gameId = some g) (hsettled : Settled d g) :
    ∃ g', s'.activeGames.lookup d.gameId = some g' ∧ g.SameGame g' := by
  have hid := h.handling.mem (Finmap.mem_of_lookup_eq_some hg)
  obtain ⟨g', hg', hev⟩ := h.step.evolves hg hid
  exact ⟨g', hg', Change.sameGame_of_not ht hsettled.1 hsettled.2 hev⟩

end Retry

/-- **Retries are answered alike.** A well-formed message that names an active game is handled, and
    later a copy of it, while no allocation fails, the game stays active and nothing is carried out
    in it in between, whatever else happens: then the second answer is the first one byte for byte,
    and the second handling does nothing to the players, the status and the board. -/
theorem retries_answered_alike (srv : Server) {d d' : Datagram} (hwf : d.WellFormed)
    (ht : d.msgType ≠ 0) (hcopy : d.SameBytes d') {s s₁ s₂ s₃ : ServerState} {tr : List Transition}
    (hactive : d.gameId ∈ s.activeGames) {now now' : UInt64} {alloc alloc' : Allocation}
    {out out' : Output} (hfirst : CompletedStep srv s ⟨.datagram now alloc d, out⟩ s₁)
    (hrun : LTS.Run (LiveStep srv d.gameId) s₁ tr s₂) (hquiet : ∀ t ∈ tr, actIn d.gameId t = none)
    (hsecond : CompletedStep srv s₂ ⟨.datagram now' alloc' d', out'⟩ s₃) :
    out'.sent = out.sent ∧ ∃ g₁ g₃, s₁.activeGames.lookup d.gameId = some g₁ ∧
      s₃.activeGames.lookup d.gameId = some g₃ ∧ g₁.SameGame g₃ := by
  have hhandles : Handles srv now' alloc' d s₂ s₃ out' := Handles.of_copy hcopy hsecond.2
  obtain ⟨g₀, hg₀⟩ := Finmap.mem_iff.1 hactive
  obtain ⟨g₁, hg₁, hsettled, hsent⟩ := (Handles.handling hfirst.2).settles hwf ht hg₀
  obtain ⟨g₂, hg₂, hsame₁₂⟩ := sameGame_of_quiet hrun hquiet hg₁
  obtain ⟨g₃, hg₃, hsame₂₃⟩ := hhandles.sameGame_of_settled ht hg₂ (hsame₁₂.settled hsettled)
  obtain ⟨g₃', hg₃', -, hsent'⟩ := hhandles.handling.settles hwf ht hg₂
  obtain rfl : g₃ = g₃' := Option.mem_unique hg₃ hg₃'
  have hsame := hsame₁₂.trans hsame₂₃
  refine ⟨?_, g₁, g₃, hg₁, hg₃, hsame⟩
  rw [hsent, hsent', hsame.answer]

/-- Player 9 gives up twice, and is told twice that player 7 has won. -/
theorem retries_answered_alike_giveUp : ∃ (s₁ s₂ : ServerState) (out out' : Output),
    CompletedStep threePawns (started threePawns 7 9 0) ⟨.datagram 0 .ok (.giveUp 9 1), out⟩ s₁ ∧
    CompletedStep threePawns s₁ ⟨.datagram 5 .ok (.giveUp 9 1), out'⟩ s₂ ∧ out'.sent = out.sent := by
  have hgive := Datagram.isGiveUp_giveUp (show (9 : UInt32) ≠ 0 by decide) 1
  have hplayer := Datagram.playerId_giveUp 9 1
  have hs : ReachableCompleted threePawns (started threePawns 7 9 0) :=
    reachable_started threePawns (by decide) (by decide) 0
  let g := (threePawns.template.open 7 0).seat 9 0
  have hg : (started threePawns 7 9 0).activeGames.lookup (Datagram.giveUp 9 1).gameId = some g :=
    lookup_started threePawns 7 9 0
  have hturn : g.OnTurn (Datagram.giveUp 9 1).playerId :=
    GameState.onTurn_iff.2 (.inr ⟨hplayer, rfl⟩)
  have hover := g.over_afterGiveUp (Datagram.giveUp 9 1).playerId 0
  obtain ⟨s₁, out, hfirst, hg₁⟩ : ∃ s₁ out,
      Handling threePawns.template 0 .ok (.giveUp 9 1) (started threePawns 7 9 0) s₁ out ∧
        s₁.activeGames.lookup (Datagram.giveUp 9 1).gameId =
          some (g.afterGiveUp (Datagram.giveUp 9 1).playerId 0) :=
    ⟨_, _, .gaveUp g hgive hg hturn, Finmap.lookup_insert _⟩
  have hsecond : Handling threePawns.template 5 .ok (.giveUp 9 1) s₁ _ _ :=
    .refused _ (.inr hgive) hg₁ (.inr hplayer.symm) fun hyes => hover.not_onTurn _ hyes.1
  have hstep := hs.step Allocation.ok_succeeds hfirst
  have hstep' := (hs.handling Allocation.ok_succeeds hfirst).step Allocation.ok_succeeds hsecond
  obtain ⟨hsame, -⟩ := retries_answered_alike threePawns hgive.1 hgive.type_ne ⟨rfl, rfl⟩
    (Finmap.mem_of_lookup_eq_some hg) hstep .refl (fun _ ht => absurd ht List.not_mem_nil) hstep'
  exact ⟨_, _, _, _, hstep, hstep', hsame⟩

end Kayles
