import Kayles.Implementation.Programs
import Kayles.Lib.Network
import Kayles.Proofs.Creation
import Kayles.Proofs.Display

set_option autoImplicit false

/-! # Clients behind an unreliable network

The server and any number of clients over UDP, which loses, duplicates, delays and reorders datagrams.
As long as no allocation of the server fails, what a client prints is nevertheless true of the server
(`displays_truthful`), and what any two clients print of one game are two points of its one history
(`displays_agree`): nobody sees a pawn rise again, and no two players are told different winners. -/

namespace Kayles

/-! ## The system -/

/-- The server behind the network: it reads the first bytes of a request, and answers to the address
    the request came from. No allocation fails in its steps. -/
def netServer (srv : Server) : Network.Server ServerState Label Bytes Bytes where
  step := CompletedStep srv
  receives l request := ∃ now alloc d, l.event = .datagram now alloc d ∧
    d.buf.take d.len = request.take (bufferSize - 1)
  idle l := ∃ now, l.event = .sweep now
  sends l := l.output.sent

/-- A transition of the server, the clients and the network between them. -/
abbrev NetTransition :=
  LTS.Transition (Network.State ServerState SocketAddress Bytes Bytes)
    (Network.Action Label SocketAddress Bytes Bytes)

/-- The runs of the system, from the start of the server. -/
def NetRun (srv : Server) (tr : List NetTransition) : Prop :=
  ∃ net, LTS.Run (Network.Step (netServer srv)) (.start .initial) tr net

/-- A client at the address `k` prints `D` for a reply that it received into some buffer. -/
def Displays (tr : List NetTransition) (k : SocketAddress) (D : Display) : Prop :=
  ∃ reply recvBuffer, Network.Received tr k reply ∧ recvBuffer.length = bufferSize ∧
    reply <+: recvBuffer ∧ receiveAndDisplayMessage recvBuffer (.received reply.length) = .ok D

/-- What a client is to print of the game `id`. -/
def GameState.display (g : GameState) (id : UInt32) : Display :=
  .gameState id g.playerAId g.playerBId g.status g.maxPawn g.boardString

/-! ## One reply -/

section Reply

variable {srv : Server} {tmpl : GameState} {now : UInt64} {alloc : Allocation} {d : Datagram}
  {s s' : ServerState} {out : Output} {id : UInt32} {g : GameState} {reply recvBuffer : Bytes}
  {D : Display}

/-- **What a reply reveals**: nothing but the request itself, or a game of the player that the request
    names, as it is then. -/
theorem Handling.reveals (h : Handling tmpl now alloc d s s' out) (hreply : reply ∈ out.sent) :
    (∃ e, reply = d.wrongMessage e) ∨
      ∃ id g, s'.activeGames.lookup id = some g ∧ g.Registered d.playerId ∧
        reply = gameStateMessage g id := by
  cases h with
  | malformed _ =>
      obtain rfl := List.mem_singleton.1 hreply
      exact .inl ⟨_, rfl⟩
  | notFound _ _ _ =>
      rcases List.mem_cons.1 hreply with rfl | hreply
      · exact .inl ⟨_, rfl⟩
      · obtain rfl := List.mem_singleton.1 hreply
        exact .inl ⟨_, rfl⟩
  | seated id g _ _ _ =>
      obtain rfl := List.mem_singleton.1 hreply
      exact .inr ⟨id, _, Finmap.lookup_insert _, .inr rfl, rfl⟩
  | full _ _ _ => exact absurd hreply List.not_mem_nil
  | unallocated _ _ _ _ _ _ => exact absurd hreply List.not_mem_nil
  | unfinished _ _ _ _ _ _ => exact absurd hreply List.not_mem_nil
  | created id _ _ _ _ _ =>
      obtain rfl := List.mem_singleton.1 hreply
      exact .inr ⟨id, _, Finmap.lookup_insert _, .inl rfl, rfl⟩
  | refused g _ hg hreg _ =>
      obtain rfl := List.mem_singleton.1 hreply
      exact .inr ⟨d.gameId, g, hg, hreg, rfl⟩
  | moved g _ _ hturn _ _ =>
      obtain rfl := List.mem_singleton.1 hreply
      exact .inr ⟨d.gameId, _, Finmap.lookup_insert _, hturn.registered, rfl⟩
  | gaveUp g _ _ hturn =>
      obtain rfl := List.mem_singleton.1 hreply
      exact .inr ⟨d.gameId, _, Finmap.lookup_insert _, hturn.registered, rfl⟩
  | keptAlive g _ _ hreg =>
      obtain rfl := List.mem_singleton.1 hreply
      exact .inr ⟨d.gameId, _, Finmap.lookup_insert _, hreg, rfl⟩

theorem display_of_gameState (hinv : GameInv srv.template id g)
    (hbuffer : recvBuffer.length = bufferSize) (hbegins : gameStateMessage g id <+: recvBuffer)
    (h : receiveAndDisplayMessage recvBuffer (.received (gameStateMessage g id).length) = .ok D) :
    D = g.display id := by
  have hsent : GameDisplayed id g := gameDisplayed_of_fits hinv.status hinv.fits
  obtain ⟨m, hm, -, hdisplayed⟩ := hsent
  obtain rfl : gameStateMessage g id = m := Except.ok.inj ((sendGameState_eq g id).symm.trans hm)
  obtain ⟨board, hboard, hlength, hpawns⟩ := hdisplayed recvBuffer hbuffer hbegins
  obtain rfl : board = g.boardString := by
    refine List.ext_getElem? fun i => ?_
    by_cases hi : i ≤ g.maxPawn.toNat
    · rw [hpawns i hi, GameState.getElem?_boardString hi]
    · rw [List.getElem?_eq_none (by omega), List.getElem?_eq_none]
      rw [g.length_boardString]
      omega
  exact (Except.ok.inj (hboard.symm.trans h)).symm

theorem display_of_wrongMessage {e : UInt8} (hbuffer : recvBuffer.length = bufferSize)
    (hbegins : d.wrongMessage e <+: recvBuffer)
    (h : receiveAndDisplayMessage recvBuffer (.received (d.wrongMessage e).length) = .ok D) :
    D = .wrongMessage (d.buf.take (min d.len 12) ++ List.replicate (12 - min d.len 12) 0) e := by
  obtain ⟨m, hm, -, hdisplayed⟩ := wrongDisplayed d e
  obtain rfl : d.wrongMessage e = m := Except.ok.inj ((handleWrongMessage_eq d e).symm.trans hm)
  exact (Except.ok.inj ((hdisplayed recvBuffer hbuffer hbegins).symm.trans h)).symm

end Reply

/-! ## Displays are truthful -/

/-- The step `u` of the server has made true what the client at `k` prints: it handled a request
    that was sent from `k`, and `D` reports an error on the bytes of that request, or the game that
    the step left, of the player that the request names. -/
structure Accounts (tr : List NetTransition) (k : SocketAddress) (D : Display) (u : Transition) :
    Prop where
  served : u ∈ Network.served tr
  accounts : ∃ request now alloc d, Network.Sent tr k request ∧
    u.label.event = .datagram now alloc d ∧ d.buf.take d.len = request.take (bufferSize - 1) ∧
    ((∃ e, D = .wrongMessage
        (d.buf.take (min d.len 12) ++ List.replicate (12 - min d.len 12) 0) e) ∨
      ∃ id g, u.post.activeGames.lookup id = some g ∧ g.Registered d.playerId ∧ D = g.display id)

section Runs

variable {srv : Server} {tr : List NetTransition} {k : SocketAddress} {D : Display} {u : Transition}
  {id : UInt32}

/-- The run of the server in a run of the system. -/
theorem NetRun.served (h : NetRun srv tr) :
    ∃ s, LTS.Run (CompletedStep srv) .initial (Network.served tr) s := by
  obtain ⟨net, hrun⟩ := h
  exact ⟨net.server, Network.run_served hrun⟩

/-- The states of a run are reachable. -/
theorem reachable_of_mem {s : ServerState} {steps : List Transition}
    (h : LTS.Run (CompletedStep srv) .initial steps s) (hu : u ∈ steps) :
    ReachableCompleted srv u.pre ∧ ReachableCompleted srv u.post := by
  obtain ⟨before, after, rfl⟩ := List.append_of_mem hu
  obtain ⟨mid, hfst, hsnd⟩ := h.split
  obtain ⟨rfl, hstep, -⟩ := hsnd.uncons
  have hpre : ReachableCompleted srv u.pre := ⟨before, hfst⟩
  exact ⟨hpre, hpre.snoc hstep⟩

/-- **One reply** that is received is accounted for. -/
theorem accounts_of_repliedTo {reply recvBuffer : Bytes} (h : NetRun srv tr)
    (hreplied : Network.RepliedTo (netServer srv) tr k reply u)
    (hbuffer : recvBuffer.length = bufferSize) (hbegins : reply <+: recvBuffer)
    (hdisplay : receiveAndDisplayMessage recvBuffer (.received reply.length) = .ok D) :
    Accounts tr k D u := by
  obtain ⟨s, hserved⟩ := h.served
  obtain ⟨hu, request, hsent, ⟨now, alloc, d, hevent, hbytes⟩, hreply⟩ := hreplied
  refine ⟨hu, request, now, alloc, d, hsent, hevent, hbytes, ?_⟩
  have hhandles : Handles srv now alloc d u.pre u.post u.label.output := by
    have hstep : CompletedStep srv u.pre u.label u.post := hserved.step_of_mem u hu
    have hst := hstep.2
    rwa [Step, hevent] at hst
  rcases hhandles.handling.reveals hreply with ⟨e, rfl⟩ | ⟨id, g, hg, hreg, rfl⟩
  · exact .inl ⟨e, display_of_wrongMessage hbuffer hbegins hdisplay⟩
  · have hinv := (reachable_of_mem hserved hu).2.gameInv hg
    exact .inr ⟨id, g, hg, hreg, display_of_gameState hinv hbuffer hbegins hdisplay⟩

end Runs

/-! ## A run of the system -/

/-- A game that is received is displayed. -/
theorem displays_of_received {srv : Server} {tr : List NetTransition} {k : SocketAddress}
    {id : UInt32} {g : GameState} (hinv : GameInv srv.template id g)
    (h : Network.Received tr k (gameStateMessage g id)) : Displays tr k (g.display id) := by
  have hsent : GameDisplayed id g := gameDisplayed_of_fits hinv.status hinv.fits
  obtain ⟨m, hm, hlen, hdisplayed⟩ := hsent
  obtain rfl : gameStateMessage g id = m := Except.ok.inj ((sendGameState_eq g id).symm.trans hm)
  let rest : Bytes := List.replicate (bufferSize - (gameStateMessage g id).length) 0
  have hbuffer : (gameStateMessage g id ++ rest).length = bufferSize := by
    rw [List.length_append, List.length_replicate]
    exact Nat.add_sub_of_le (Nat.le_trans hlen (Nat.sub_le _ _))
  have hbegins : gameStateMessage g id <+: gameStateMessage g id ++ rest := List.prefix_append _ _
  obtain ⟨board, hboard, -⟩ := hdisplayed _ hbuffer hbegins
  exact ⟨_, _, h, hbuffer, hbegins, display_of_gameState hinv hbuffer hbegins hboard ▸ hboard⟩

/-- Players 7 and 9 join, and the reply to 9 is the first to arrive. -/
theorem exists_netRun_started : ∃ tr, NetRun threePawns tr ∧
    (creations (Network.served tr)).length < uint32Max.toNat ∧
    (∀ request, Network.Sent tr ⟨2130706433, 40001⟩ request → request = 0 :: htonl 9) ∧
    Displays tr ⟨2130706433, 40000⟩ ((threePawns.template.open 7 0).display 1) ∧
    Displays tr ⟨2130706433, 40001⟩ (((threePawns.template.open 7 0).seat 9 0).display 1) := by
  have hinit : ReachableCompleted threePawns .initial := LTS.Reachable.refl
  have hopen := handling_opened threePawns (show (7 : UInt32) ≠ 0 by decide) 0
  have hseat := handling_started threePawns 7 (show (9 : UInt32) ≠ 0 by decide) 0
  have hopened := hinit.handling Allocation.ok_succeeds hopen
  have hstarted := hopened.handling Allocation.ok_succeeds hseat
  have hstep := hinit.step Allocation.ok_succeeds hopen
  have hstep' := hopened.step Allocation.ok_succeeds hseat
  let k : SocketAddress := ⟨2130706433, 40000⟩
  let k' : SocketAddress := ⟨2130706433, 40001⟩
  let request : Bytes := 0 :: htonl 7
  let request' : Bytes := 0 :: htonl 9
  have hreceives : ∀ out, (netServer threePawns).receives ⟨.datagram 0 .ok (.join 7), out⟩ request :=
    fun _ => ⟨0, .ok, .join 7, rfl, rfl⟩
  have hreceives' : ∀ out, (netServer threePawns).receives ⟨.datagram 0 .ok (.join 9), out⟩ request' :=
    fun _ => ⟨0, .ok, .join 9, rfl, rfl⟩
  have hrun : LTS.Run (Network.Step (netServer threePawns)) (.start .initial) _ _ :=
    (((((LTS.Run.single (.send _ k request)).snoc (.send _ k' request')).snoc
      (.serve _ k request _ _ List.mem_cons_self (hreceives _) hstep)).snoc
      (.serve _ k' request' _ _ (List.mem_cons_of_mem _ List.mem_cons_self) (hreceives' _) hstep')).snoc
      (.receive _ k' _ (List.mem_cons_of_mem _ List.mem_cons_self))).snoc
      (.receive _ k _ List.mem_cons_self)
  refine ⟨_, ⟨_, hrun⟩, ?_, ?_, ?_, ?_⟩
  · show 1 < 4294967295
    decide
  · rintro request ⟨t, ht, hlabel⟩
    simp only [List.mem_append, List.mem_singleton] at ht
    rcases ht with ((((rfl | rfl) | rfl) | rfl) | rfl) | rfl
    · exact absurd (Network.Action.send.inj hlabel).1 (by decide)
    · exact (Network.Action.send.inj hlabel).2.symm
    all_goals exact absurd hlabel (by simp)
  · exact displays_of_received (hopened.gameInv (lookup_opened threePawns 7 0))
      ⟨_, List.mem_append_right _ List.mem_cons_self, rfl⟩
  · exact displays_of_received (hstarted.gameInv (lookup_started threePawns 7 9 0))
      ⟨_, List.mem_append_left _ (List.mem_append_right _ List.mem_cons_self), rfl⟩

/-- **Displays are truthful.** In every run of the server, the clients and the network in which no
    allocation fails, whatever a client prints for a reply, some step of the server accounts for: it
    handled a request sent from the address of that client, and what is printed is an error report
    with the first bytes of that request, or a game of the player that the request names, field by
    field and pawn by pawn as the step has left it. -/
theorem displays_truthful (srv : Server) {tr : List NetTransition} (hrun : NetRun srv tr)
    {k : SocketAddress} {D : Display} (hD : Displays tr k D) : ∃ u, Accounts tr k D u := by
  obtain ⟨reply, recvBuffer, hreceived, hbuffer, hbegins, hdisplay⟩ := hD
  have hnet := hrun
  obtain ⟨net, hnet⟩ := hnet
  obtain ⟨u, hreplied⟩ := Network.repliedTo_of_received hnet hreceived
  exact ⟨u, accounts_of_repliedTo hrun hreplied hbuffer hbegins hdisplay⟩

theorem displays_truthful_started : ∃ tr k u, NetRun threePawns tr ∧
    Accounts tr k (((threePawns.template.open 7 0).seat 9 0).display 1) u := by
  obtain ⟨tr, hrun, -, -, -, hD⟩ := exists_netRun_started
  obtain ⟨u, hu⟩ := displays_truthful threePawns hrun hD
  exact ⟨tr, _, u, hrun, hu⟩

/-! ## The history of a game -/

/-- `g'` is a later point of the game `g`. -/
structure GameState.Precedes (g g' : GameState) : Prop where
  maxPawn : g'.maxPawn = g.maxPawn
  playerAId : g'.playerAId = g.playerAId
  standing : ∀ i, g'.Standing i → g.Standing i
  begun : g.status ≠ waitingForOpponent →
    g'.status ≠ waitingForOpponent ∧ g'.playerBId = g.playerBId
  ended : g.Over → g.SameGame g'

/-- The second display shows a later point of the game that the first one shows: the same players, no
    pawn that has risen, and the same in all once the game is over. -/
inductive Display.Precedes : Display → Display → Prop
  | game {id playerA playerB playerB' : UInt32} {status status' maxPawn : UInt8}
      {pawns pawns' : List Char} (hlength : pawns'.length = pawns.length)
      (hpawns : ∀ i : ℕ, pawns'[i]? = some pawnStanding → pawns[i]? = some pawnStanding)
      (hbegun : status ≠ waitingForOpponent →
        status' ≠ waitingForOpponent ∧ playerB' = playerB)
      (hover : status = winA ∨ status = winB → status' = status ∧ pawns' = pawns) :
      Precedes (.gameState id playerA playerB status maxPawn pawns)
        (.gameState id playerA playerB' status' maxPawn pawns')

section History

variable {srv : Server} {s s' : ServerState} {l : Label} {id : UInt32} {g g' g'' : GameState}
  {tr tr' : List Transition} {now : UInt64} {d : Datagram} {log : List LogLine}

theorem GameState.SameGame.precedes (h : g.SameGame g') : g.Precedes g' where
  maxPawn := h.maxPawn
  playerAId := h.playerAId
  standing i hi := by
    unfold GameState.Standing at hi ⊢
    rwa [h.pawnRow] at hi
  begun hw := by
    rw [h.status]
    exact ⟨hw, h.playerBId⟩
  ended _ := h

theorem GameState.Precedes.trans (h : g.Precedes g') (h' : g'.Precedes g'') : g.Precedes g'' where
  maxPawn := h'.maxPawn.trans h.maxPawn
  playerAId := h'.playerAId.trans h.playerAId
  standing i hi := h.standing i (h'.standing i hi)
  begun hw := by
    obtain ⟨hw', hb⟩ := h.begun hw
    obtain ⟨hw'', hb'⟩ := h'.begun hw'
    exact ⟨hw'', hb'.trans hb⟩
  ended hover := by
    have hsame := h.ended hover
    have hover' : g'.Over := by
      unfold GameState.Over
      rwa [hsame.status]
    exact hsame.trans (h'.ended hover')

/-- **One change** leads to a later point of the game. -/
theorem Change.precedes (h : Change now d log id g g') : g.Precedes g' := by
  have hover : g.Over → g.SameGame g' := fun hover => h.sameGame_of_over hover
  cases h with
  | idle _ _ _ => exact (GameState.SameGame.refl g).precedes
  | seat _ hw _ =>
      exact ⟨rfl, rfl, fun _ hi => hi, fun hno => absurd hw hno, hover⟩
  | move hm =>
      exact ⟨rfl, rfl, fun _ hi => (GameState.standing_knock.1 hi).1,
        fun _ => ⟨g.afterMove_not_waiting d.movePawns now, rfl⟩, hover⟩
  | giveUp hu =>
      exact ⟨rfl, rfl, fun _ hi => hi, fun _ => ⟨g.afterGiveUp_not_waiting d.playerId now, rfl⟩, hover⟩
  | keepAlive _ _ _ _ => exact (g.sameGame_touch now).precedes

/-- A run in which the game stays active leads to a later point of it. -/
theorem precedes_of_liveRun (hrun : LTS.Run (LiveStep srv id) s tr s')
    (hg : s.activeGames.lookup id = some g) :
    ∃ g', s'.activeGames.lookup id = some g' ∧ g.Precedes g' := by
  refine hrun.invariant (I := fun s => ∃ g', s.activeGames.lookup id = some g' ∧ g.Precedes g') ?_
    ⟨g, hg, (GameState.SameGame.refl g).precedes⟩
  intro s l s' hs hstep
  obtain ⟨g₁, hg₁, hprec⟩ := hs
  obtain ⟨g₂, hg₂, hev⟩ := hstep.1.2.evolves hg₁ hstep.2
  refine ⟨g₂, hg₂, hprec.trans ?_⟩
  exact hev.preserves (P := g₁.Precedes) (GameState.SameGame.refl g₁).precedes
    fun _ _ hchange => hchange.precedes

/-- Until the counter wraps, an id that has been given to a game is not given to another one: a game
    that is active at two points of a run was active all along. -/
theorem liveRun_of_mem (hrun : LTS.Run (CompletedStep srv) .initial tr s)
    (hid : id ∈ s.activeGames) (hrun' : LTS.Run (CompletedStep srv) s tr' s')
    (hid' : id ∈ s'.activeGames) (hfew : (creations (tr ++ tr')).length < uint32Max.toNat) :
    LTS.Run (LiveStep srv id) s tr' s' := by
  have hle : id.toNat ≤ (creations tr).length := by
    refine (numbered_of_run hrun).keys (Nat.lt_of_le_of_lt ?_ hfew) id hid
    rw [creations_append, List.length_append]
    exact Nat.le_add_right _ _
  induction hrun' with
  | refl => exact .refl
  | @snoc tr' s₁ s₂ l hrun₁ hstep ih =>
      rw [← List.append_assoc, creations_append, List.length_append] at hfew
      suffices hmem : id ∈ s₁.activeGames from
        (ih hmem (Nat.lt_of_le_of_lt (Nat.le_add_right _ _) hfew)).snoc ⟨hstep, hid'⟩
      cases hstep.numbering with
      | other _ _ hkeys => exact hkeys id hid'
      | created k hlog _ _ hkeys =>
          rcases hkeys id hid' with rfl | hmem
          · -- a new game has a larger number than all before it
            have hnew := numbered_of_run ((hrun.trans hrun₁).snoc hstep)
            have hlast : creations [⟨s₁, l, s₂⟩] = [id] := by simp [creations, hlog]
            have hnumber := hnew.ids (creations (tr ++ tr')).length id
              (Nat.lt_of_le_of_lt (Nat.le_add_right _ _) hfew)
              (by rw [creations_append _ [_], hlast, List.getElem?_concat_length])
            rw [creations_append, List.length_append] at hnumber
            omega
          · exact hmem

/-- **The points of a run at which a game is active** follow each other in its one history. -/
theorem pairwise_precedes (hrun : LTS.Run (CompletedStep srv) .initial tr s)
    (hfew : (creations tr).length < uint32Max.toNat) (id : UInt32) :
    tr.Pairwise fun t t' => ∀ g g', t.post.activeGames.lookup id = some g →
      t'.post.activeGames.lookup id = some g' → g.Precedes g' := by
  induction hrun with
  | refl => exact .nil
  | @snoc tr s₁ s₂ l hrun hstep ih =>
      have hfew' := hfew
      rw [creations_append, List.length_append] at hfew'
      refine List.pairwise_append.2 ⟨ih (by omega), List.pairwise_singleton _ _, ?_⟩
      intro t ht t' ht' g g' hg hg'
      obtain rfl := List.mem_singleton.1 ht'
      obtain ⟨before, between, rfl⟩ := List.append_of_mem ht
      rw [List.append_cons] at hrun
      obtain ⟨mid, hfst, hsnd⟩ := hrun.split
      obtain ⟨-, -, rfl⟩ := hfst.unsnoc
      have hlive := liveRun_of_mem hfst (Finmap.mem_of_lookup_eq_some hg) (hsnd.snoc hstep)
        (Finmap.mem_of_lookup_eq_some hg') (by simpa using hfew)
      obtain ⟨g₂, hg₂, hprec⟩ := precedes_of_liveRun hlive hg
      obtain rfl : g' = g₂ := Option.mem_unique hg' hg₂
      exact hprec

/-- Later points of a game are displayed as such. -/
theorem GameState.Precedes.display (h : g.Precedes g') (id : UInt32) :
    (g.display id).Precedes (g'.display id) := by
  unfold GameState.display
  rw [h.maxPawn, h.playerAId]
  have hlength : g'.boardString.length = g.boardString.length := by
    rw [g'.length_boardString, g.length_boardString, h.maxPawn]
  refine .game hlength ?_ h.begun ?_
  · intro i hi
    have hle : i ≤ g.maxPawn.toNat := by
      have hlt := (List.getElem?_eq_some_iff.1 hi).1
      rw [g'.length_boardString, h.maxPawn] at hlt
      omega
    rw [GameState.getElem?_boardString (h.maxPawn ▸ hle)] at hi
    rw [GameState.getElem?_boardString hle]
    by_cases hstand : g'.Standing i
    · rw [if_pos (h.standing i hstand)]
    · rw [if_neg hstand] at hi
      exact absurd hi (by decide)
  · intro hover
    have hsame := h.ended hover
    refine ⟨hsame.status, ?_⟩
    have hstanding : ∀ i, g'.Standing i ↔ g.Standing i := by
      intro i
      unfold GameState.Standing
      rw [hsame.pawnRow]
    unfold GameState.boardString
    rw [hsame.maxPawn]
    exact List.map_congr_left fun i _ => if_congr (hstanding i) rfl rfl

/-- What is displayed of a game was a game of the server after one of its steps. -/
theorem Displays.exists_game {tr : List NetTransition} (hrun : NetRun srv tr) {k : SocketAddress}
    {playerA playerB : UInt32} {status maxPawn : UInt8} {pawns : List Char}
    (hD : Displays tr k (.gameState id playerA playerB status maxPawn pawns)) :
    ∃ u ∈ Network.served tr, ∃ g, u.post.activeGames.lookup id = some g ∧
      .gameState id playerA playerB status maxPawn pawns = g.display id := by
  obtain ⟨reply, recvBuffer, hreceived, hbuffer, hbegins, hdisplay⟩ := hD
  have hnet := hrun
  obtain ⟨net, hnet⟩ := hnet
  obtain ⟨u, hreplied⟩ := Network.repliedTo_of_received hnet hreceived
  obtain ⟨hu, request, now, alloc, d, -, -, -, hshows⟩ :=
    accounts_of_repliedTo hrun hreplied hbuffer hbegins hdisplay
  rcases hshows with ⟨e, heq⟩ | ⟨id', g, hg, -, heq⟩
  · exact absurd heq (by simp)
  · obtain rfl : id = id' := (Display.gameState.inj heq).1
    exact ⟨u, hu, g, hg, heq⟩

end History

/-- **Displays agree.** In every run of the server, the clients and the network in which no
    allocation fails and the counter of game ids has not wrapped, whatever any two clients print of
    one game, in whatever order the network has delivered it: one of the two shows a later point of
    that game. So no two clients are shown different winners of it, or different last boards. -/
theorem displays_agree (srv : Server) {tr : List NetTransition} (hrun : NetRun srv tr)
    (hfew : (creations (Network.served tr)).length < uint32Max.toNat) {k k' : SocketAddress}
    {id playerA playerB playerA' playerB' : UInt32} {status status' maxPawn maxPawn' : UInt8}
    {pawns pawns' : List Char}
    (hD : Displays tr k (.gameState id playerA playerB status maxPawn pawns))
    (hD' : Displays tr k' (.gameState id playerA' playerB' status' maxPawn' pawns')) :
    Display.Precedes (.gameState id playerA playerB status maxPawn pawns)
        (.gameState id playerA' playerB' status' maxPawn' pawns') ∨
      Display.Precedes (.gameState id playerA' playerB' status' maxPawn' pawns')
        (.gameState id playerA playerB status maxPawn pawns) := by
  obtain ⟨u, hu, g, hg, heq⟩ := hD.exists_game hrun
  obtain ⟨u', hu', g', hg', heq'⟩ := hD'.exists_game hrun
  obtain ⟨s, hserved⟩ := hrun.served
  rw [heq, heq']
  let Follows (t t' : Transition) : Prop := ∀ g g', t.post.activeGames.lookup id = some g →
    t'.post.activeGames.lookup id = some g' → g.Precedes g'
  have hpairs := pairwise_precedes hserved hfew id
  have hself : ∀ t ∈ Network.served tr, Follows t t ∨ Follows t t := by
    intro t _
    refine .inl fun g g' hg hg' => ?_
    obtain rfl : g = g' := Option.mem_unique hg hg'
    exact (GameState.SameGame.refl g).precedes
  have : Std.Symm fun t t' => Follows t t' ∨ Follows t' t := ⟨fun _ _ h => h.symm⟩
  have hboth : (Network.served tr).Pairwise fun t t' => Follows t t' ∨ Follows t' t :=
    hpairs.imp .inl
  have heither : Follows u u' ∨ Follows u' u := hboth.forall_of_forall hself hu hu'
  rcases heither with h | h
  · exact .inl ((h g g' hg hg').display id)
  · exact .inr ((h g' g hg' hg).display id)

theorem displays_agree_started :
    ((threePawns.template.open 7 0).display 1).Precedes
        (((threePawns.template.open 7 0).seat 9 0).display 1) ∨
      (((threePawns.template.open 7 0).seat 9 0).display 1).Precedes
        ((threePawns.template.open 7 0).display 1) := by
  obtain ⟨tr, hrun, hfew, -, hD, hD'⟩ := exists_netRun_started
  exact displays_agree threePawns hrun hfew hD hD'

end Kayles
