import Kayles.Proofs.Progress

set_option autoImplicit false

/-! # Isolation of games

What becomes of a game, and what is answered to a message that names it, depends on the message, the
clock and the entry of that game alone (`Handling.of_named`). So the other arrivals of a run, with
their sweeps, can be deleted from it: `isolation`. -/

namespace Kayles

/-! ## Messages that name a game -/

/-- The datagram has one of the types 1..4 and names the game `id` in its bytes 5..8. -/
def Datagram.Names (d : Datagram) (id : UInt32) : Prop :=
  9 ≤ d.len ∧ d.msgType ∈ [1, 2, 3, 4] ∧ d.gameId = id

instance (d : Datagram) (id : UInt32) : Decidable (d.Names id) := inferInstanceAs (Decidable (_ ∧ _))

/-- The game a completed handling of `d` leaves of the game it names. -/
def GameState.after (g : GameState) (d : Datagram) (now : UInt64) : GameState :=
  if d.IsMove ∧ g.OnTurn d.playerId ∧ g.Legal d.movePawns then g.afterMove d.movePawns now
  else if d.IsGiveUp ∧ g.OnTurn d.playerId then g.afterGiveUp d.playerId now
  else if d.IsKeepAlive ∧ g.Registered d.playerId then g.touch now
  else g

/-- The replies to `d` when it names the game `g`. -/
def GameState.answer (g : GameState) (d : Datagram) (now : UInt64) : List Bytes :=
  if ¬ d.WellFormed then [d.wrongMessage d.errorIndex]
  else if ¬ g.Registered d.playerId then [d.wrongMessage errorIdxPlayer, d.wrongMessage 5]
  else [gameStateMessage (g.after d now) d.gameId]

section Named

variable {srv : Server} {tmpl : GameState} {now : UInt64} {alloc : Allocation} {d d' : Datagram}
  {s s' r : ServerState} {out : Output} {g : GameState} {id : UInt32}

theorem Datagram.Names.type_ne (h : d.Names id) : d.msgType ≠ 0 := by
  intro h0
  have hmem := h.2.1
  rw [h0] at hmem
  exact absurd hmem (by decide)

/-- A well-formed message other than a JOIN names some game. -/
theorem Datagram.WellFormed.names (h : d.WellFormed) (ht : d.msgType ≠ 0) : d.Names d.gameId := by
  have hlen := h.len_eq
  rcases toNat_of_le_four h.known.2 with h0 | h1 | h2 | h3 | h4
  · exact absurd h0 ht
  · rw [h1] at hlen
    exact ⟨by rw [hlen]; decide, by simp [h1], rfl⟩
  · rw [h2] at hlen
    exact ⟨by rw [hlen]; decide, by simp [h2], rfl⟩
  · rw [h3] at hlen
    exact ⟨by rw [hlen]; decide, by simp [h3], rfl⟩
  · rw [h4] at hlen
    exact ⟨by rw [hlen]; decide, by simp [h4], rfl⟩

theorem GameState.after_of_malformed (h : ¬ d.WellFormed) : g.after d now = g := by
  rw [GameState.after, if_neg fun hm => h hm.1.1, if_neg fun hu => h hu.1.1, if_neg fun hk => h hk.1.1]

theorem GameState.after_of_stranger (h : ¬ g.Registered d.playerId) : g.after d now = g := by
  rw [GameState.after, if_neg fun hm => h hm.2.1.registered, if_neg fun hu => h hu.2.registered,
    if_neg fun hk => h hk.2]

theorem GameState.after_of_refused (h : d.IsMove ∨ d.IsGiveUp)
    (hno : ¬ (g.OnTurn d.playerId ∧ (d.IsMove → g.Legal d.movePawns))) : g.after d now = g := by
  rw [GameState.after, if_neg fun hm => hno ⟨hm.2.1, fun _ => hm.2.2⟩, if_neg, if_neg]
  · intro h
    obtain ⟨hkeep, -⟩ := h
    rcases h with hmove | hgive
    · exact hkeep.not_move hmove
    · exact hkeep.not_giveUp hgive
  · intro h
    obtain ⟨hgive, hturn⟩ := h
    exact hno ⟨hturn, fun hmove => (hgive.not_move hmove).elim⟩

theorem GameState.after_of_moved (hm : d.IsMove) (hturn : g.OnTurn d.playerId)
    (hlegal : g.Legal d.movePawns) : g.after d now = g.afterMove d.movePawns now :=
  if_pos ⟨hm, hturn, hlegal⟩

theorem GameState.after_of_gaveUp (hu : d.IsGiveUp) (hturn : g.OnTurn d.playerId) :
    g.after d now = g.afterGiveUp d.playerId now := by
  rw [GameState.after, if_neg fun hm => hu.not_move hm.1, if_pos ⟨hu, hturn⟩]

theorem GameState.after_of_keptAlive (hk : d.IsKeepAlive) (hreg : g.Registered d.playerId) :
    g.after d now = g.touch now := by
  rw [GameState.after, if_neg fun hm => hk.not_move hm.1, if_neg fun hu => hk.not_giveUp hu.1,
    if_pos ⟨hk, hreg⟩]

theorem GameState.answer_of_registered (h : d.WellFormed) (hreg : g.Registered d.playerId) :
    g.answer d now = [gameStateMessage (g.after d now) d.gameId] := by
  rw [GameState.answer, if_neg (not_not.2 h), if_neg (not_not.2 hreg)]

/-- **A message that names an active game** makes of it, and is answered, what the entry of that game
    alone determines. -/
theorem Handling.of_named (h : Handling tmpl now alloc d s s' out) (ht : d.msgType ≠ 0)
    (hg : s.activeGames.lookup d.gameId = some g) :
    s'.activeGames.lookup d.gameId = some (g.after d now) ∧ out.sent = g.answer d now := by
  cases h with
  | malformed hwf =>
      rw [GameState.after_of_malformed hwf, GameState.answer, if_pos hwf]
      exact ⟨hg, rfl⟩
  | notFound hwf _ hs =>
      have hindex : s.lookupErrorIndex d = errorIdxPlayer :=
        if_pos (Finmap.mem_of_lookup_eq_some hg)
      rw [GameState.after_of_stranger (hs g hg), GameState.answer, if_neg (not_not.2 hwf),
        if_pos (hs g hg), hindex]
      exact ⟨hg, rfl⟩
  | seated _ _ hj _ _ => exact absurd hj.2 ht
  | full hj _ _ => exact absurd hj.2 ht
  | unallocated _ hj _ _ _ _ => exact absurd hj.2 ht
  | unfinished _ hj _ _ _ _ => exact absurd hj.2 ht
  | created _ hj _ _ _ _ => exact absurd hj.2 ht
  | refused g₀ hty hg₀ hreg hno =>
      obtain rfl : g = g₀ := Option.mem_unique hg hg₀
      have hwf : d.WellFormed := hty.elim (fun hm => hm.1) fun hu => hu.1
      rw [GameState.answer_of_registered hwf hreg, GameState.after_of_refused hty hno]
      exact ⟨hg, rfl⟩
  | moved g₀ hm hg₀ hturn hlegal _ =>
      obtain rfl : g = g₀ := Option.mem_unique hg hg₀
      rw [GameState.answer_of_registered hm.1 hturn.registered,
        GameState.after_of_moved hm hturn hlegal]
      exact ⟨Finmap.lookup_insert _, rfl⟩
  | gaveUp g₀ hu hg₀ hturn =>
      obtain rfl : g = g₀ := Option.mem_unique hg hg₀
      rw [GameState.answer_of_registered hu.1 hturn.registered, GameState.after_of_gaveUp hu hturn]
      exact ⟨Finmap.lookup_insert _, rfl⟩
  | keptAlive g₀ hk hg₀ hreg =>
      obtain rfl : g = g₀ := Option.mem_unique hg hg₀
      rw [GameState.answer_of_registered hk.1 hreg, GameState.after_of_keptAlive hk hreg]
      exact ⟨Finmap.lookup_insert _, rfl⟩

/-- Whatever else is handled, a game that does not wait stays as it is. -/
theorem Handling.lookup_of_not_names (h : Handling tmpl now alloc d s s' out) (hn : ¬ d.Names id)
    (hg : s.activeGames.lookup id = some g) (hw : g.status ≠ waitingForOpponent) :
    s'.activeGames.lookup id = some g := by
  have hother : d.WellFormed → d.msgType ≠ 0 → d.gameId ≠ id := by
    rintro hwf ht rfl
    exact hn (hwf.names ht)
  obtain ⟨g', hg'⟩ := Finmap.mem_iff.1 (h.mem (Finmap.mem_of_lookup_eq_some hg))
  rcases h.entry hg' with ⟨g₀, hg₀, hc⟩ | ⟨hnone, -⟩
  · obtain rfl : g = g₀ := Option.mem_unique hg hg₀
    cases hc with
    | idle _ _ _ => exact hg'
    | seat _ hwait _ => exact absurd hwait hw
    | move hm => exact absurd hm.2.1 (hother hm.1.1 hm.1.type_ne)
    | giveUp hu => exact absurd hu.2.1 (hother hu.1.1 hu.1.type_ne)
    | keepAlive hk hid _ _ => exact absurd hid (hother hk.1 hk.type_ne)
  · rw [hg] at hnone
    exact absurd hnone (Option.some_ne_none g)

/-! ## Copies

The receive buffer is reused, so deleting arrivals changes what lies behind the bytes of the
others. -/

theorem Datagram.SameBytes.wrongMessage (h : d.SameBytes d') (e : UInt8) :
    d'.wrongMessage e = d.wrongMessage e := by
  have htake : ∀ buf : Bytes, buf.take (min d.len messageLen) = (buf.take d.len).take messageLen := by
    intro buf
    rw [List.take_take, Nat.min_comm]
  rw [Datagram.wrongMessage, Datagram.wrongMessage, h.len, htake, h.bytes, ← htake]

theorem Datagram.SameBytes.playerId (h : d.SameBytes d') (hlen : 9 ≤ d.len) :
    d'.playerId = d.playerId := h.u32 (Nat.le_trans (by decide) hlen)

theorem Datagram.SameBytes.gameId (h : d.SameBytes d') (hlen : 9 ≤ d.len) :
    d'.gameId = d.gameId := h.u32 hlen

theorem Datagram.Names.copy (hn : d.Names id) (h : d.SameBytes d') : d'.Names id := by
  refine ⟨h.len ▸ hn.1, ?_, (h.gameId hn.1).trans hn.2.2⟩
  rw [h.msgType (Nat.ne_zero_of_lt hn.1)]
  exact hn.2.1

theorem GameState.after_copy (h : d.SameBytes d') (hlen : 9 ≤ d.len) (g : GameState)
    (now : UInt64) : g.after d' now = g.after d now := by
  have hmove : d'.IsMove ↔ d.IsMove := ⟨h.symm.isMove, h.isMove⟩
  have hgive : d'.IsGiveUp ↔ d.IsGiveUp := ⟨h.symm.isGiveUp, h.isGiveUp⟩
  have hkeep : d'.IsKeepAlive ↔ d.IsKeepAlive := ⟨h.symm.isKeepAlive, h.isKeepAlive⟩
  by_cases hm : d.IsMove
  · simp only [GameState.after, hmove, hgive, hkeep, h.playerId hlen, h.movePawns hm]
  · -- the byte at the pawn's place may be a stale one, and is not read
    simp only [GameState.after, hmove, hgive, hkeep, h.playerId hlen, hm, false_and, if_false]

theorem GameState.answer_copy (h : d.SameBytes d') (hlen : 9 ≤ d.len) (g : GameState)
    (now : UInt64) : g.answer d' now = g.answer d now := by
  have hwf : d'.WellFormed ↔ d.WellFormed := ⟨h.symm.wellFormed, h.wellFormed⟩
  simp only [GameState.answer, hwf, h.wrongMessage, h.errorIndex (Nat.ne_zero_of_lt hlen),
    h.playerId hlen, h.gameId hlen, GameState.after_copy h hlen]

theorem gameAction_copy (h : d.SameBytes d') (hwf : d.WellFormed) (hn : d.Names id)
    (order order' : List Entry) (fuel : ℕ) (g : GameState) :
    gameAction ⟨now, alloc, order', fuel⟩ d' g = gameAction ⟨now, alloc, order, fuel⟩ d g := by
  have hp := h.playerId hn.1
  rcases hwf.named hn.type_ne with hmove | hgive | hkeep
  · rw [gameAction_of_move hmove, gameAction_of_move (h.isMove hmove), h.movePawns hmove, hp]
    rfl
  · rw [gameAction_of_giveUp hgive, gameAction_of_giveUp (h.isGiveUp hgive), hp]
  · rw [gameAction_of_keepAlive hkeep, gameAction_of_keepAlive (h.isKeepAlive hkeep)]

/-- A handling that completes also completes, for a copy, in any state with the same entry. -/
theorem Handles.copy (h : Handles srv now alloc d s s' out) (hcopy : d.SameBytes d')
    (hn : d.Names id) (hg : s.activeGames.lookup id = some g) (hr : r.activeGames.lookup id = some g) :
    ∃ r' out', Handles srv now alloc d' r r' out' := by
  obtain ⟨order, fuel, -, hdecode⟩ := h
  obtain ⟨order', horder'⟩ := Finmap.exists_isTraversal r.activeGames
  obtain rfl := hn.2.2
  have hn' := hn.copy hcopy
  by_cases hwf : d.WellFormed
  · have hdecode' := decode_of_named ⟨now, alloc, order', fuel⟩ srv.template r
      (hcopy.wellFormed hwf) hn'.type_ne
    rw [decode_of_named _ _ _ hwf hn.type_ne] at hdecode
    by_cases hreg : g.Registered d.playerId
    · rw [handleNamed_of_lookup hg hreg] at hdecode
      have hreg' : g.Registered d'.playerId := hcopy.playerId hn.1 ▸ hreg
      rw [handleNamed_of_lookup (hn'.2.2.symm ▸ hr) hreg',
        gameAction_copy hcopy hwf hn order order' fuel g] at hdecode'
      cases hact : gameAction ⟨now, alloc, order, fuel⟩ d g with
      | error e => simp [hact, Except.map] at hdecode
      | ok a =>
          rw [hact] at hdecode'
          exact ⟨_, _, order', fuel, horder', hdecode'⟩
    · have hfails : r.LookupFails d' := by
        intro g' hg'
        rw [hn'.2.2, hr] at hg'
        obtain rfl := Option.some.inj hg'
        rwa [hcopy.playerId hn.1]
      rw [handleNamed_of_fails hfails] at hdecode'
      exact ⟨_, _, order', fuel, horder', hdecode'⟩
  · have hwf' : ¬ d'.WellFormed := fun h => hwf (hcopy.symm.wellFormed h)
    exact ⟨_, _, order', 0, horder', decode_of_malformed _ _ _ hwf'⟩

end Named

/-! ## Turns of the loop -/

/-- The same bytes at the same readings of the clock. -/
structure Arrival.Same (a a' : Arrival) : Prop where
  sweptAt : a'.sweptAt = a.sweptAt
  handledAt : a'.handledAt = a.handledAt
  d : a.d.SameBytes a'.d

/-- The two states have the same entry for the game `id`, and it does not wait. -/
def SameEntry (id : UInt32) (s r : ServerState) : Prop :=
  ∃ g, s.activeGames.lookup id = some g ∧ r.activeGames.lookup id = some g ∧
    g.status ≠ waitingForOpponent

section Turn

variable {srv : Server} {s s' r r' : ServerState} {l l' : Served} {id : UInt32} {g : GameState}
  {a : Arrival}

theorem GameState.after_not_waiting {d : Datagram} {now : UInt64}
    (hw : g.status ≠ waitingForOpponent) : (g.after d now).status ≠ waitingForOpponent := by
  unfold GameState.after
  split
  · exact g.afterMove_not_waiting d.movePawns now
  · split
    · exact g.afterGiveUp_not_waiting d.playerId now
    · split
      · exact hw
      · exact hw

/-- A turn for another game, or for none. -/
theorem Turn.skips (h : Turn srv s l s') (hlog : LogLine.timedOut id ∉ l.swept.log)
    (hn : ¬ l.arrival.d.Names id) (hsame : SameEntry id s r) : SameEntry id s' r := by
  obtain ⟨g, hg, hr, hw⟩ := hsame
  obtain ⟨mid, alloc, ⟨-, hsweep⟩, -, hhandle⟩ := h
  obtain ⟨-, hmid⟩ := Sweeps.lookup_of_log hsweep hg hlog
  exact ⟨g, (Handles.handling hhandle).lookup_of_not_names hn hmid hw, hr, hw⟩

/-- A turn for the game `id`. -/
theorem Turn.of_names (h : Turn srv s l s') (hn : l.arrival.d.Names id)
    (hg : s.activeGames.lookup id = some g)
    (hkeep : ¬ g.Expired l.arrival.sweptAt srv.timeoutMs) :
    s'.activeGames.lookup id = some (g.after l.arrival.d l.arrival.handledAt) ∧
      l.answered.sent = g.answer l.arrival.d l.arrival.handledAt := by
  obtain ⟨mid, alloc, ⟨-, hsweep⟩, -, hhandle⟩ := h
  have hmid := (Sweeps.lookup_eq_some hsweep).2 ⟨hg, hkeep⟩
  obtain rfl := hn.2.2
  exact (Handles.handling hhandle).of_named hn.type_ne hmid

theorem Turn.not_expired (h : Turn srv s l s') (hlog : LogLine.timedOut id ∉ l.swept.log)
    (hg : s.activeGames.lookup id = some g) : ¬ g.Expired l.arrival.sweptAt srv.timeoutMs := by
  obtain ⟨mid, alloc, ⟨-, hsweep⟩, -⟩ := h
  exact (Sweeps.lookup_of_log hsweep hg hlog).1

/-- Two turns with copies of one arrival, from states with the same entry. -/
theorem Turn.agrees (h : Turn srv s l s') (h' : Turn srv r l' r')
    (hlog : LogLine.timedOut id ∉ l.swept.log) (hn : l.arrival.d.Names id)
    (ha : l.arrival.Same l'.arrival) (hsame : SameEntry id s r) :
    SameEntry id s' r' ∧ l'.answered.sent = l.answered.sent := by
  obtain ⟨g, hg, hr, hw⟩ := hsame
  have hkeep := h.not_expired hlog hg
  have hkeep' : ¬ g.Expired l'.arrival.sweptAt srv.timeoutMs := ha.sweptAt ▸ hkeep
  obtain ⟨hgame, hsent⟩ := h.of_names hn hg hkeep
  obtain ⟨hgame', hsent'⟩ := h'.of_names (hn.copy ha.d) hr hkeep'
  rw [ha.handledAt, GameState.after_copy ha.d hn.1] at hgame'
  rw [ha.handledAt, GameState.answer_copy ha.d hn.1] at hsent'
  exact ⟨⟨_, hgame, hgame', GameState.after_not_waiting hw⟩, hsent'.trans hsent.symm⟩

/-- A turn for the game `id` can be taken wherever its entry is the same. -/
theorem Turn.exists_copy (h : Turn srv s l s') (hlog : LogLine.timedOut id ∉ l.swept.log)
    (hn : l.arrival.d.Names id) (ha : l.arrival.Same a) (hsame : SameEntry id s r) :
    ∃ l' r', Turn srv r l' r' ∧ l'.arrival = a := by
  obtain ⟨g, hg, hr, -⟩ := hsame
  have hkeep := h.not_expired hlog hg
  obtain ⟨mid, alloc, ⟨-, hsweep⟩, halloc, hhandle⟩ := h
  -- any sweep at the same reading of the clock spares the game as well
  obtain ⟨mid', swept, hsweep'⟩ := exists_sweeps srv a.sweptAt r
  have hmid := (Sweeps.lookup_eq_some hsweep).2 ⟨hg, hkeep⟩
  have hmid' := hsweep'.lookup_eq_some.2 ⟨hr, ha.sweptAt.symm ▸ hkeep⟩
  obtain ⟨r', out, hhandle'⟩ := Handles.copy hhandle ha.d hn hmid hmid'
  refine ⟨⟨a, swept, out⟩, r', ⟨mid', alloc, ⟨trivial, hsweep'⟩, halloc, ?_⟩, rfl⟩
  exact ha.handledAt.symm ▸ hhandle'

/-- A turn at the time of the last activity of every game: the sweep removes nothing. -/
theorem ReachableCompleted.turn {now : UInt64} {d : Datagram} {out : Output}
    (hs : ReachableCompleted srv s)
    (hnow : ∀ id g, s.activeGames.lookup id = some g → g.lastActivity = now)
    (h : Handling srv.template now .ok d s s' out) : Turn srv s ⟨⟨now, now, d⟩, {}, out⟩ s' := by
  have hnone : ∀ id g, s.activeGames.lookup id = some g → ¬ g.Expired now srv.timeoutMs := by
    intro id g hg hexp
    rw [GameState.Expired, hnow id g hg, UInt64.sub_self] at hexp
    exact UInt64.not_lt_zero hexp
  exact ⟨s, .ok, ⟨trivial, sweeps_of_none hnone⟩, hs.step Allocation.ok_succeeds h⟩

end Turn

/-! ## The purged run -/

/-- The arrivals of a run that name the game `id`. -/
def arrivalsFor (id : UInt32) (tr : List (LTS.Transition ServerState Served)) : List Arrival :=
  (LTS.kept (fun l : Served => l.arrival.d.Names id) tr).map fun t => t.label.arrival

/-- The replies to them. -/
def repliesFor (id : UInt32) (tr : List (LTS.Transition ServerState Served)) : List (List Bytes) :=
  (LTS.kept (fun l : Served => l.arrival.d.Names id) tr).map fun t => t.label.answered.sent

/-- On every server: while `p` and `q` play, `r` joins and then `q` gives up. -/
theorem exists_run_started (srv : Server) {p q r : UInt32} (hp : p ≠ 0) (hq : q ≠ 0) (hr : r ≠ 0)
    (now : UInt64) : ∃ tr s' a, LTS.Run (Turn srv) (started srv p q now) tr s' ∧ tr.length = 2 ∧
      (∀ t ∈ tr, LogLine.timedOut 1 ∉ t.label.swept.log) ∧ arrivalsFor 1 tr = [a] := by
  have hs := reachable_started srv hp hq now
  have hnow : ∀ id g, (started srv p q now).activeGames.lookup id = some g →
      g.status = turnB ∧ g.lastActivity = now := by
    intro id g hg
    obtain ⟨-, rfl⟩ := eq_of_lookup_singleton hg
    exact ⟨rfl, rfl⟩
  have hwait : (started srv p q now).NoneWaiting := by
    intro id g hg
    rw [(hnow id g hg).1]
    decide
  have hfree : (started srv p q now).FreeId 2 := by
    refine freeId_nextGameId fun hmem => ?_
    rcases Finmap.mem_insert.1 hmem with h | h
    · exact absurd (show (2 : UInt32) = 1 from h) (by decide)
    · exact Finmap.notMem_empty h
  have hroom : (started srv p q now).HasRoom := by
    show 1 < 4294967294
    decide
  obtain ⟨s₁, out₁, hjoin, hg, hnow₁⟩ : ∃ s₁ out₁,
      Handling srv.template now .ok (.join r) (started srv p q now) s₁ out₁ ∧
      s₁.activeGames.lookup 1 = some ((srv.template.open p now).seat q now) ∧
      ∀ id g, s₁.activeGames.lookup id = some g → g.lastActivity = now := by
    refine ⟨_, _, .created 2 (Datagram.isJoin_join hr) hwait hroom hfree Allocation.ok_succeeds, ?_, ?_⟩
    · rw [Finmap.lookup_insert_of_ne _ (by decide)]
      exact lookup_started srv p q now
    · intro id g hg
      rcases lookup_insert_cases hg with ⟨-, rfl⟩ | ⟨-, hold⟩
      · rfl
      · exact (hnow id g hold).2
  have hfirst := hs.turn (fun id g hg => (hnow id g hg).2) hjoin
  have hs₁ := hs.handling Allocation.ok_succeeds hjoin
  have hnot : ¬ (Datagram.join r).Names 1 := fun h => h.type_ne rfl
  have hgive := Datagram.isGiveUp_giveUp hq 1
  have hplayer := Datagram.playerId_giveUp q 1
  have hnames : (Datagram.giveUp q 1).Names 1 :=
    Datagram.gameId_giveUp q 1 ▸ hgive.1.names hgive.type_ne
  have hturn : ((srv.template.open p now).seat q now).OnTurn (Datagram.giveUp q 1).playerId :=
    GameState.onTurn_iff.2 (.inr ⟨hplayer, rfl⟩)
  have hgaveUp : Handling srv.template now .ok (.giveUp q 1) s₁ _ _ :=
    .gaveUp _ hgive (hnames.2.2.symm ▸ hg) hturn
  have hsecond := hs₁.turn hnow₁ hgaveUp
  refine ⟨_, _, ⟨now, now, .giveUp q 1⟩, (LTS.Run.single hfirst).snoc hsecond, rfl, ?_, ?_⟩
  · intro t ht
    rcases List.mem_cons.1 ht with rfl | ht
    · exact List.not_mem_nil
    · obtain rfl := List.mem_singleton.1 ht
      exact List.not_mem_nil
  · rw [arrivalsFor, List.singleton_append, LTS.kept_cons_of_neg hnot, LTS.kept_cons_of_pos hnames]
    rfl

/-- **Isolation.** From any state with a game `id` that does not wait, and any run of the loop that
    does not evict it: the arrivals that name `id` can be processed alone, and however they are, the
    entry of `id` in the end and the replies to them are the same. -/
theorem isolation (srv : Server) {id : UInt32} {s s' : ServerState} {g : GameState}
    {tr : List (LTS.Transition ServerState Served)} {arrivals : List Arrival}
    (hg : s.activeGames.lookup id = some g) (hw : g.status ≠ waitingForOpponent)
    (hrun : LTS.Run (Turn srv) s tr s') (hkeep : ∀ t ∈ tr, LogLine.timedOut id ∉ t.label.swept.log)
    (hsame : List.Forall₂ Arrival.Same (arrivalsFor id tr) arrivals) :
    (∃ tr' s'', LTS.Run (Turn srv) s tr' s'' ∧ tr'.map (fun t => t.label.arrival) = arrivals) ∧
    ∀ tr' s'', LTS.Run (Turn srv) s tr' s'' → tr'.map (fun t => t.label.arrival) = arrivals →
      ∃ g', s'.activeGames.lookup id = some g' ∧ s''.activeGames.lookup id = some g' ∧
        repliesFor id tr' = repliesFor id tr := by
  have hrun := hrun.restrict hkeep
  have hentry : SameEntry id s s := ⟨g, hg, hg, hw⟩
  have hskip : ∀ s (l : Served) s' r, SameEntry id s r →
      (Turn srv s l s' ∧ LogLine.timedOut id ∉ l.swept.log) → ¬ l.arrival.d.Names id →
      SameEntry id s' r := fun s l s' r hr hstep hn => hstep.1.skips hstep.2 hn hr
  have hsame := List.forall₂_map_left_iff.1 hsame
  constructor
  · refine LTS.Run.exists_purged (fun l : Served => l.arrival.d.Names id)
      (fun l : Served => l.arrival.Same) hskip ?_ hrun hentry hsame
    rintro s l s' r a hr ⟨hturn, hlog⟩ hn ha
    obtain ⟨l', r', hturn', rfl⟩ := hturn.exists_copy hlog hn ha hr
    exact ⟨l', r', hturn', rfl, (hturn.agrees hturn' hlog hn ha hr).1⟩
  · rintro tr' s'' hrun' rfl
    have hcopies := List.forall₂_map_right_iff.1 hsame
    obtain ⟨⟨g', hg', hg'', -⟩, hreplies⟩ := LTS.Run.purged_agrees
      (fun l : Served => l.arrival.d.Names id) (fun l : Served => l.arrival.Same) hskip
      (fun s l s' r l' r' hr hstep hn hstep' ha => hstep.1.agrees hstep' hstep.2 hn ha hr)
      hrun hentry hrun' hcopies
    have hall : LTS.kept (fun l : Served => l.arrival.d.Names id) tr' = tr' :=
      LTS.kept_of_forall₂ (fun (l l' : Served) (hn : l.arrival.d.Names id)
        (ha : l.arrival.Same l'.arrival) => hn.copy ha.d) hcopies
    refine ⟨g', hg', hg'', ?_⟩
    rw [repliesFor, hall]
    exact hreplies

theorem isolation_started : ∃ tr s' tr' s'' g,
    LTS.Run (Turn threePawns) (started threePawns 7 9 0) tr s' ∧ tr.length = 2 ∧
    LTS.Run (Turn threePawns) (started threePawns 7 9 0) tr' s'' ∧ tr'.length = 1 ∧
    s'.activeGames.lookup 1 = some g ∧ s''.activeGames.lookup 1 = some g ∧
    repliesFor 1 tr' = repliesFor 1 tr := by
  obtain ⟨tr, s', a, hrun, hlen, hlog, harrivals⟩ :=
    exists_run_started threePawns (p := 7) (q := 9) (r := 5) (by decide) (by decide) (by decide) 0
  have hsame : List.Forall₂ Arrival.Same (arrivalsFor 1 tr) [a] := by
    rw [harrivals]
    exact .cons ⟨rfl, rfl, rfl, rfl⟩ .nil
  obtain ⟨⟨tr', s'', hrun', hmap⟩, hagree⟩ :=
    isolation threePawns (lookup_started threePawns 7 9 0) (by decide) hrun hlog hsame
  obtain ⟨g, hg, hg', hreplies⟩ := hagree tr' s'' hrun' hmap
  have hlen' : tr'.length = 1 := by
    rw [← List.length_map, hmap]
    rfl
  exact ⟨tr, s', tr', s'', g, hrun, hlen, hrun', hlen', hg, hg', hreplies⟩

end Kayles
