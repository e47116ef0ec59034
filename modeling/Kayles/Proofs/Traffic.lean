import Kayles.Lib.Ledger
import Kayles.Proofs.Clock
import Kayles.Proofs.Programs

set_option autoImplicit false

/-! # Games and traffic

What the games cost the server. Every game that a turn of the loop leaves active is kept by a
message of its own: one of its players has sent it, and the server has handled it no earlier than a
timeout before the sweep of that turn. So the map holds no more games than well-formed datagrams
arrive in a timeout (`games_kept_by_messages`), whatever else is sent. -/

namespace Kayles

/-- The arrival is a message of a player of the game `id`: one that names it, or the JOIN of that
    player. -/
structure Arrival.About (a : Arrival) (id : UInt32) (g : GameState) : Prop where
  wellFormed : a.d.WellFormed
  player : g.Registered a.d.playerId
  names : a.d.IsJoin ∨ a.d.gameId = id

/-- The turn handles a message for the game `id`, with a reading of the clock not before its last
    activity. -/
def Round.Refreshes (l : Round) (id : UInt32) (g : GameState) : Prop :=
  ∃ a, l.received = .arrived a ∧ a.About id g ∧ g.lastActivity ≤ a.handledAt

/-- The turn handles a message for the game `id`, no earlier than a timeout before `t`. -/
def Round.KeepsAt (timeoutMs t : UInt64) (l : Round) (id : UInt32) (g : GameState) : Prop :=
  ∃ a, l.received = .arrived a ∧ a.About id g ∧ t.toNat ≤ a.handledAt.toNat + timeoutMs.toNat

/-- The turn handles a well-formed datagram, no earlier than a timeout before `t`. -/
def Round.Recent (timeoutMs t : UInt64) (l : Round) : Prop :=
  match l.received with
  | .timedOut _ => False
  | .arrived a => a.d.WellFormed ∧ t.toNat ≤ a.handledAt.toNat + timeoutMs.toNat

instance (timeoutMs t : UInt64) : DecidablePred (Round.Recent timeoutMs t) := fun l => by
  unfold Round.Recent
  split <;> infer_instance

section Loop

variable {srv : Server} {tmpl : GameState} {now t : UInt64} {alloc : Allocation} {d : Datagram}
  {s s' : ServerState} {out : Output} {l : Round} {id : UInt32} {g : GameState}
  {tr : List (LTS.Transition ServerState Round)}

/-- A handling changes one game at most, and that at the message of one of its players. -/
theorem Handling.acts (h : Handling tmpl now alloc d s s' out) (sweptAt : UInt64) :
    s'.activeGames = s.activeGames ∨ ∃ id g, s'.activeGames = s.activeGames.insert id g ∧
      (Arrival.mk sweptAt now d).About id g ∧ g.lastActivity ≤ now := by
  have hle : now ≤ now := UInt64.le_refl now
  cases h with
  | malformed _ => exact .inl rfl
  | notFound _ _ _ => exact .inl rfl
  | seated id g hj _ _ => exact .inr ⟨id, _, rfl, ⟨hj.1, .inr rfl, .inl hj⟩, hle⟩
  | full _ _ _ => exact .inl rfl
  | unallocated _ _ _ _ _ _ => exact .inl rfl
  | unfinished id hj _ _ _ _ => exact .inr ⟨id, _, rfl, ⟨hj.1, .inl rfl, .inl hj⟩, UInt64.zero_le⟩
  | created id hj _ _ _ _ => exact .inr ⟨id, _, rfl, ⟨hj.1, .inl rfl, .inl hj⟩, hle⟩
  | refused _ _ _ _ _ => exact .inl rfl
  | moved g hmove _ hturn _ _ =>
      have hreg : (g.afterMove d.movePawns now).Registered d.playerId := hturn.registered
      exact .inr ⟨_, _, rfl, ⟨hmove.1, hreg, .inr rfl⟩, hle⟩
  | gaveUp g hgive _ hturn =>
      have hreg : (g.afterGiveUp d.playerId now).Registered d.playerId := hturn.registered
      exact .inr ⟨_, _, rfl, ⟨hgive.1, hreg, .inr rfl⟩, hle⟩
  | keptAlive g hkeep _ hreg => exact .inr ⟨_, _, rfl, ⟨hkeep.1, hreg, .inr rfl⟩, hle⟩

/-- **One turn.** What accounts for the games that its sweep leaves accounts for those after it, with
    the turn itself for the game that its message is about. -/
theorem LoopStep.accounted {accounts : Round → UInt32 → GameState → Prop} (h : LoopStep srv s l s')
    (hswept : ∀ mid, Sweeps srv l.received.sweptAt s mid l.swept →
      LTS.Accounted accounts tr fun id => mid.activeGames.lookup id)
    (hnew : ∀ a id g, l.received = .arrived a → a.About id g → g.lastActivity ≤ a.handledAt →
      accounts l id g) :
    LTS.Accounted accounts (tr ++ [⟨s, l, s'⟩]) fun id => s'.activeGames.lookup id := by
  obtain ⟨mid, hsweep, hrest⟩ := h
  have hmid := hswept mid hsweep
  cases hl : l.received with
  | timedOut sweptAt =>
      simp only [hl] at hrest
      rw [hrest.1]
      exact hmid.idle _
  | arrived a =>
      simp only [hl] at hrest
      obtain ⟨alloc, hhandles⟩ := hrest
      rcases hhandles.handling.acts a.sweptAt with heq | ⟨id, g, heq, habout, hle⟩
      · rw [heq]
        exact hmid.idle _
      · rw [heq]
        refine hmid.snoc (k := id) ?_ ?_
        · intro k g' hne hg'
          rwa [Finmap.lookup_insert_of_ne _ hne] at hg'
        · intro g' hg'
          rw [Finmap.lookup_insert] at hg'
          obtain rfl := Option.some.inj hg'
          exact hnew a id g hl habout hle

/-- A run accounts for its games by their last activity. -/
theorem accounted_of_run (h : LTS.Run (LoopStep srv) .initial tr s) :
    LTS.Accounted Round.Refreshes tr fun id => s.activeGames.lookup id := by
  induction h with
  | refl => exact LTS.accounted_of_empty fun id => Finmap.lookup_empty id
  | snoc _ hstep ih =>
      refine hstep.accounted ?_ fun a id g hl habout hle => ⟨a, hl, habout, hle⟩
      intro mid hsweep
      exact ih.restrict (fun id g hg => (hsweep.lookup_eq_some.1 hg).1) fun _ _ _ _ hacct => hacct

/-- What a sweep leaves was active no earlier than a timeout before it. -/
theorem Round.Refreshes.keepsAt (h : l.Refreshes id g) (hg : ¬ g.Expired t srv.timeoutMs) :
    l.KeepsAt srv.timeoutMs t id g := by
  obtain ⟨a, hl, habout, hle⟩ := h
  have hhandled : g.lastActivity.toNat ≤ a.handledAt.toNat := UInt64.le_iff_toNat_le.1 hle
  refine ⟨a, hl, habout, ?_⟩
  by_cases hlast : g.lastActivity ≤ t
  · rw [GameState.expired_iff hlast] at hg
    omega
  · have hlt := UInt64.lt_iff_toNat_lt.1 (UInt64.not_le.1 hlast)
    omega

theorem Round.KeepsAt.recent {timeoutMs : UInt64} (h : l.KeepsAt timeoutMs t id g) :
    l.Recent timeoutMs t := by
  obtain ⟨a, hl, habout, hle⟩ := h
  simp only [Round.Recent, hl]
  exact ⟨habout.wellFormed, hle⟩

end Loop

/-- **Games are kept by messages.** After every turn of a run of the loop, each active game has a
    message of its own, from one of its players, that was handled no earlier than a timeout before
    the sweep of that turn. So there are no more games than well-formed datagrams since then. -/
theorem games_kept_by_messages (srv : Server) {tr : List (LTS.Transition ServerState Round)}
    {t : LTS.Transition ServerState Round} {s : ServerState}
    (hrun : LTS.Run (LoopStep srv) .initial (tr ++ [t]) s)
    (hord : ∀ a, t.label.received = .arrived a → a.sweptAt ≤ a.handledAt) :
    LTS.Accounted (Round.KeepsAt srv.timeoutMs t.label.received.sweptAt) (tr ++ [t])
        (fun id => s.activeGames.lookup id) ∧
      s.activeGames.keys.card ≤ (tr ++ [t]).countP fun u =>
        decide (u.label.Recent srv.timeoutMs t.label.received.sweptAt) := by
  obtain ⟨hbefore, hstep, rfl⟩ := hrun.unsnoc
  have hkept : LTS.Accounted (Round.KeepsAt srv.timeoutMs t.label.received.sweptAt) (tr ++ [t])
      fun id => t.post.activeGames.lookup id := by
    refine hstep.accounted ?_ ?_
    · intro mid hsweep
      refine (accounted_of_run hbefore).restrict (fun id g hg => (hsweep.lookup_eq_some.1 hg).1) ?_
      intro l id g hg hrefreshes
      exact hrefreshes.keepsAt (hsweep.lookup_eq_some.1 hg).2
    · intro a id g hl habout _
      refine ⟨a, hl, habout, ?_⟩
      have hle := UInt64.le_iff_toNat_le.1 (hord a hl)
      rw [hl]
      exact Nat.le_add_right_of_le hle
  refine ⟨hkept, hkept.card_le (fun l id g hkeeps => hkeeps.recent) ?_⟩
  intro id hid
  exact Finmap.mem_iff.1 (Finmap.mem_keys.1 hid)

/-- Player 7 joins: one game, kept by that JOIN. -/
theorem games_kept_by_messages_join : ∃ t, LTS.Run (LoopStep threePawns) .initial ([] ++ [t])
      (opened threePawns 7 0) ∧
    LTS.Accounted (Round.KeepsAt threePawns.timeoutMs t.label.received.sweptAt) ([] ++ [t])
      (fun id => (opened threePawns 7 0).activeGames.lookup id) := by
  obtain ⟨out, hturn⟩ := exists_turn_opened threePawns (show (7 : UInt32) ≠ 0 by decide) 0
  have hrun := LTS.Run.single hturn.loopStep
  refine ⟨_, hrun, (games_kept_by_messages threePawns hrun ?_).1⟩
  intro a ha
  obtain rfl := Received.arrived.inj ha
  exact UInt64.le_refl _

end Kayles
