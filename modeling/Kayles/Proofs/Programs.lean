import Kayles.Implementation.Programs
import Kayles.Proofs.Availability
import Kayles.Proofs.Configuration
import Kayles.Proofs.Reports
import Kayles.Proofs.Requests

set_option autoImplicit false

/-! # The two programs as a whole

`main` of the server refines the transition system that the other modules are about: what it prints
and sends, turn by turn, is a run of the loop, and it ends only for the reasons listed. So what
holds of every run holds of the program, from the command line on. -/

namespace Kayles

open Fallible

/-! ## The turns of the loop -/

/-- What the program takes and gives in a turn is what a turn of the loop takes and gives. -/
inductive IsRound (c : TurnCalls) (o : TurnOutput) (l : Round) : Prop
  | timedOut (hrecv : c.recvfrom = .timedOut) (hl : l.received = .timedOut c.sweptAt)
      (hlines : o.lines = l.swept.log.map .game) (hsent : o.sent = [])
  | received (datagram : Bytes) (sender : SocketAddress) (d : Datagram)
      (hrecv : c.recvfrom = .received datagram sender)
      (hl : l.received = .arrived ⟨c.sweptAt, c.handledAt, d⟩)
      (hbytes : d.buf.take d.len = datagram.take (bufferSize - 1))
      (hlines : o.lines = .received d.len sender :: (l.swept.log ++ l.answered.log).map .game)
      (hsent : o.sent = l.answered.sent.map fun message => (sender, message))

/-- What can end the program in a turn that finds the state `s`, and what the turn has printed and
    sent until then. -/
inductive TurnEnds (srv : Server) (s : ServerState) (c : TurnCalls) : TurnOutput → ProgramEnd → Prop
  | recvfrom (h : c.recvfrom = .failed) : TurnEnds srv s c {} (.exit (.syserr "recvfrom failed"))
  | handling {mid : ServerState} {swept out : Output} {datagram : Bytes} {sender : SocketAddress}
      {d : Datagram} {ready : Bool} {e : ProgramEnd} (hrecv : c.recvfrom = .received datagram sender)
      (hbytes : d.buf.take d.len = datagram.take (bufferSize - 1))
      (hsweep : Sweeps srv c.sweptAt s mid swept) (h : HandlingEnds srv mid c ready d out e) :
      TurnEnds srv s c
        { lines := .received d.len sender :: (swept.log ++ out.log).map .game,
          sent := out.sent.map fun message => (sender, message) } e

/-- A turn of the loop in which no allocation fails. -/
def CompletedLoopStep (srv : Server) (s : ServerState) (l : Round) (s' : ServerState) : Prop :=
  ∃ mid, Sweeps srv l.received.sweptAt s mid l.swept ∧
    match l.received with
    | .timedOut _ => s' = mid ∧ l.answered = {}
    | .arrived arrival => ∃ alloc : Allocation, alloc.Succeeds ∧
        Handles srv arrival.handledAt alloc arrival.d mid s' l.answered

section Loop

variable {srv : Server} {s s' : ServerState} {l : Round}
  {tr : List (LTS.Transition ServerState Round)}

theorem LoopStep.reachable (hs : Reachable srv s) (h : LoopStep srv s l s') : Reachable srv s' := by
  obtain ⟨mid, hsweep, hrest⟩ := h
  have hmid : Reachable srv mid := hs.snoc hsweep.step
  cases hl : l.received with
  | timedOut sweptAt =>
      simp only [hl] at hrest
      exact hrest.1 ▸ hmid
  | arrived arrival =>
      simp only [hl] at hrest
      obtain ⟨alloc, hhandles⟩ := hrest
      exact hmid.snoc hhandles.step

theorem CompletedLoopStep.reachable (hs : ReachableCompleted srv s)
    (h : CompletedLoopStep srv s l s') : ReachableCompleted srv s' := by
  obtain ⟨mid, hsweep, hrest⟩ := h
  have hmid : ReachableCompleted srv mid :=
    hs.snoc (l := ⟨.sweep l.received.sweptAt, l.swept⟩) ⟨trivial, hsweep⟩
  cases hl : l.received with
  | timedOut sweptAt =>
      simp only [hl] at hrest
      exact hrest.1 ▸ hmid
  | arrived arrival =>
      simp only [hl] at hrest
      obtain ⟨alloc, halloc, hhandles⟩ := hrest
      exact hmid.handling halloc hhandles.handling

theorem CompletedLoopStep.loopStep (h : CompletedLoopStep srv s l s') : LoopStep srv s l s' := by
  obtain ⟨mid, hsweep, hrest⟩ := h
  refine ⟨mid, hsweep, ?_⟩
  cases hl : l.received with
  | timedOut sweptAt => simpa only [hl] using hrest
  | arrived arrival =>
      simp only [hl] at hrest
      obtain ⟨alloc, -, hhandles⟩ := hrest
      exact ⟨alloc, hhandles⟩

/-- Before the first JOIN there is nothing to sweep. -/
theorem sweeps_initial (srv : Server) (now : UInt64) : Sweeps srv now .initial .initial {} :=
  sweeps_of_none fun _ g hg => absurd hg (Option.some_ne_none g).symm

/-- The first turn of a server, in which `p` joins. -/
theorem exists_turn_opened (srv : Server) {p : UInt32} (hp : p ≠ 0) (now : UInt64) :
    ∃ out, CompletedLoopStep srv .initial ⟨.arrived ⟨now, now, .join p⟩, {}, out⟩
      (opened srv p now) := by
  have hinit : ReachableCompleted srv .initial := LTS.Reachable.refl
  exact ⟨_, .initial, sweeps_initial srv now, .ok, Allocation.ok_succeeds,
    hinit.handles (handling_opened srv hp now)⟩

/-! ## The number of games -/

theorem Sweeps.card_keys_le {now : UInt64} {out : Output} (h : Sweeps srv now s s' out) :
    s'.activeGames.keys.card ≤ s.activeGames.keys.card := by
  refine Finset.card_le_card fun id hid => ?_
  obtain ⟨g, hg⟩ := Finmap.mem_iff.1 (Finmap.mem_keys.1 hid)
  exact Finmap.mem_keys.2 (Finmap.mem_of_lookup_eq_some (h.lookup_eq_some.1 hg).1)

theorem card_keys_insert_le (m : ActiveGames) (id : UInt32) (g : GameState) :
    (m.insert id g).keys.card ≤ m.keys.card + 1 := by
  refine (Finset.card_le_card fun k hk => ?_).trans (Finset.card_insert_le id m.keys)
  rcases (Finmap.mem_insert (s := m)).1 (Finmap.mem_keys.1 hk) with rfl | hmem
  · exact Finset.mem_insert_self _ _
  · exact Finset.mem_insert_of_mem (Finmap.mem_keys.2 hmem)

/-- A handling adds at most one game. -/
theorem Handling.card_keys_le {tmpl : GameState} {now : UInt64} {alloc : Allocation} {d : Datagram}
    {out : Output} (h : Handling tmpl now alloc d s s' out) :
    s'.activeGames.keys.card ≤ s.activeGames.keys.card + 1 := by
  cases h <;> first | exact card_keys_insert_le _ _ _ | exact Nat.le_succ _

/-- There are no more games than turns. -/
theorem card_keys_le_of_run (h : LTS.Run (CompletedLoopStep srv) .initial tr s) :
    s.activeGames.keys.card ≤ tr.length := by
  induction h with
  | refl => exact Nat.le_refl 0
  | @snoc tr s₁ s₂ l _ hstep ih =>
      obtain ⟨mid, hsweep, hrest⟩ := hstep
      have hmid := hsweep.card_keys_le
      rw [List.length_append, List.length_singleton]
      cases hl : l.received with
      | timedOut sweptAt =>
          simp only [hl] at hrest
          rw [hrest.1]
          omega
      | arrived arrival =>
          simp only [hl] at hrest
          obtain ⟨alloc, -, hhandles⟩ := hrest
          have hcard := hhandles.handling.card_keys_le
          omega

/-- A datagram gets no answer only if there is no room for another game. -/
theorem CompletedLoopStep.sent_ne_nil (h : CompletedLoopStep srv s l s') {a : Arrival}
    (hl : l.received = .arrived a) (hroom : s.HasRoom) : l.answered.sent ≠ [] := by
  obtain ⟨mid, hsweep, hrest⟩ := h
  simp only [hl] at hrest
  obtain ⟨alloc, halloc, hhandles⟩ := hrest
  have hmid : mid.HasRoom := Nat.lt_of_le_of_lt hsweep.card_keys_le hroom
  cases hhandles.handling.replied with
  | nothing hcannot _ =>
      rcases hcannot.2.2 with hfull | hfail
      · exact absurd hmid hfull
      · exact absurd halloc hfail
  | wrong _ _ hsent => simp [hsent]
  | twice _ _ _ _ hsent => simp [hsent]
  | gameState _ _ _ _ _ hsent => simp [hsent]

end Loop

section Turns

variable {srv : Server} {config : AppConfig} {c : TurnCalls} {s : ServerState} {m : ServerMemory}
  {d : Datagram}

theorem take_receive (buffer : RecvBuffer) (datagram : Bytes) :
    (Datagram.receive buffer datagram).buf.take (Datagram.receive buffer datagram).len =
      datagram.take (bufferSize - 1) := by
  show (datagram.take (bufferSize - 1) ++ _).take (min datagram.length (bufferSize - 1)) = _
  rw [Nat.min_comm, ← List.length_take, List.take_left']
  rfl

/-- The sweep of the program is one of the system. -/
theorem sweep_eq (hms : timeoutMs config.timeout = some srv.timeoutMs) (c : TurnCalls)
    (s : ServerState) : ∃ mid log, sweep config c s = .ok (mid, log) ∧
      Sweeps srv c.sweptAt s mid { log := log } := by
  refine ⟨_, _, ?_, c.sweepOrder.list s.activeGames, c.sweepOrder.isTraversal _, rfl, rfl⟩
  simp only [sweep, hms]

/-- **A turn of the program** is a turn of the loop, or ends the program. -/
theorem serverTurn_cases (hms : timeoutMs config.timeout = some srv.timeoutMs)
    (hs : Reachable srv m.state) (c : TurnCalls) :
    (∃ m' o l, serverTurn config srv.template c m = (o, .ok m') ∧ IsRound c o l ∧
      LoopStep srv m.state l m'.state ∧
      (c.alloc.Succeeds → CompletedLoopStep srv m.state l m'.state)) ∨
    ∃ o e, serverTurn config srv.template c m = (o, .error e) ∧ TurnEnds srv m.state c o e := by
  obtain ⟨mid, log, hsweep, hsweeps⟩ := sweep_eq hms c m.state
  have hmid : Reachable srv mid := hs.snoc hsweeps.step
  cases hrecv : c.recvfrom with
  | failed => exact .inr ⟨_, _, by simp only [serverTurn, hrecv], .recvfrom hrecv⟩
  | timedOut =>
      refine .inl ⟨{ m with state := mid }, { lines := log.map .game },
        ⟨.timedOut c.sweptAt, { log := log }, {}⟩, ?_, .timedOut hrecv rfl rfl rfl,
        ⟨mid, hsweeps, rfl, rfl⟩, fun _ => ⟨mid, hsweeps, rfl, rfl⟩⟩
      simp only [serverTurn, hrecv, hsweep]
  | received datagram sender =>
      have hbytes := take_receive m.buffer datagram
      generalize hd : Datagram.receive m.buffer datagram = d at hbytes
      rcases handle_cases hmid c m.handlersReady d with
        ⟨s', out, hhandle, hhandles⟩ | ⟨out, e, hhandle, hends⟩
      · refine .inl ⟨⟨⟨d.buf, d.buf_length⟩, m.handlersReady || d.len != 0, s'⟩,
          { lines := .received d.len sender :: (log ++ out.log).map .game,
            sent := out.sent.map fun message => (sender, message) },
          ⟨.arrived ⟨c.sweptAt, c.handledAt, d⟩, { log := log }, out⟩, ?_,
          .received datagram sender d hrecv rfl hbytes rfl rfl, ⟨mid, hsweeps, c.alloc, hhandles⟩,
          fun halloc => ⟨mid, hsweeps, c.alloc, halloc, hhandles⟩⟩
        simp only [serverTurn, hrecv, hsweep, hd, hhandle]
        rfl
      · refine .inr ⟨_, e, ?_, .handling hrecv hbytes hsweeps hends⟩
        simp only [serverTurn, hrecv, hsweep, hd, hhandle]
        rfl

end Turns

/-! ## The server -/

/-- The server accepts its options and creates its socket. -/
def Starts (opts : List Opt) (calls : SocketCalls) (config : AppConfig) : Prop :=
  Program.server.parse opts = .ok config ∧ ∃ port, createSeverSocket calls config = .ok port

/-- After `n` turns that have gone on, in the state `s`, the program has taken all its turns, or its
    next turn has ended it. What that turn has printed and sent is the last output. -/
def ServerRun.EndsAs (run : ServerRun) (srv : Server) (turns : List TurnCalls) (n : ℕ)
    (s : ServerState) : Prop :=
  match run.result with
  | .ok m => m.state = s ∧ n = turns.length ∧ run.turns.length = n
  | .error e => ∃ c o, turns[n]? = some c ∧ run.turns[n]? = some o ∧ run.turns.length = n + 1 ∧
      TurnEnds srv s c o e

section Server

variable {opts : List Opt} {calls : ServerCalls} {config : AppConfig}

/-- A timeout that is NaN creates no socket. -/
theorem Starts.timeout_ne_nan (h : Starts opts calls.socket config) : config.timeout ≠ .nan := by
  intro hnan
  obtain ⟨-, port, hport⟩ := h
  obtain ⟨_, hprepare, -⟩ := bind_eq_ok_iff.1 hport
  unfold prepareSocket at hprepare
  rw [hnan] at hprepare
  split at hprepare
  · exact absurd hprepare (by simp)
  · exact absurd hprepare (by simp [timeval, Double.toInt64])

/-- The server that the program runs. -/
theorem Starts.exists_server (h : Starts opts calls.socket config) (uninitialised : GameState) :
    ∃ srv : Server, srv.pawnRow = config.pawnRow ∧ srv.uninitialised = uninitialised ∧
      timeoutMs config.timeout = some srv.timeoutMs := by
  have hno : ∀ text, .flag .t text ∈ opts → ¬ IsNanText text :=
    fun text hmem htext => h.timeout_ne_nan (timeout_of_nan h.1 hmem htext)
  exact (soundConfig_of_parse h.1 hno).exists_server uninitialised

/-- The program runs the loop from an empty map. -/
theorem Starts.serverMain_eq (h : Starts opts calls.socket config) {srv : Server}
    (hrow : srv.pawnRow = config.pawnRow) (buffer : RecvBuffer) :
    (serverMain opts srv.uninitialised buffer calls).turns =
        (Driver.run (serverTurn config srv.template) calls.turns ⟨buffer, false, .initial⟩).1 ∧
      (serverMain opts srv.uninitialised buffer calls).result =
        (Driver.run (serverTurn config srv.template) calls.turns ⟨buffer, false, .initial⟩).2 := by
  obtain ⟨hparse, port, hport⟩ := h
  have hinit := srv.init
  rw [hrow] at hinit
  simp only [serverMain, hparse, hinit, runServer, hport]
  exact ⟨trivial, trivial⟩

/-- How the driver has ended is how the program has ended. -/
theorem Starts.endsAs (h : Starts opts calls.socket config) {srv : Server}
    (hrow : srv.pawnRow = config.pawnRow) (hms : timeoutMs config.timeout = some srv.timeoutMs)
    {buffer : RecvBuffer} {I : ServerState → Prop} (hreach : ∀ s, I s → Reachable srv s) {n : ℕ}
    {s : ServerState} (hends : Driver.Ends (serverTurn config srv.template)
      (fun (m : ServerMemory) s => m.state = s ∧ I s) calls.turns ⟨buffer, false, .initial⟩ n s) :
    I s ∧ (serverMain opts srv.uninitialised buffer calls).EndsAs srv calls.turns n s := by
  obtain ⟨hturns, hresult⟩ := h.serverMain_eq hrow buffer
  unfold Driver.Ends at hends
  unfold ServerRun.EndsAs
  rw [hresult, hturns]
  cases hrest :
      (Driver.run (serverTurn config srv.template) calls.turns ⟨buffer, false, .initial⟩).2 with
  | ok m =>
      rw [hrest] at hends
      obtain ⟨⟨hm, hs⟩, hn, hlen⟩ := hends
      exact ⟨hs, hm, hn, hlen⟩
  | error e =>
      rw [hrest] at hends
      obtain ⟨c, m, o, hc, ⟨rfl, hs⟩, herror, ho, hlen⟩ := hends
      refine ⟨hs, c, o, hc, ho, hlen, ?_⟩
      rcases serverTurn_cases hms (hreach _ hs) c with
        ⟨m₁, o₁, l, hturn, -⟩ | ⟨o', e', herror', hwhy⟩
      · exact absurd (hturn.symm.trans herror) (by simp)
      · obtain ⟨rfl, heq⟩ := Prod.mk.inj (herror'.symm.trans herror)
        exact Except.error.inj heq ▸ hwhy

variable (step : ServerState → Round → ServerState → Prop) (I : ServerState → Prop)
  (P : TurnCalls → Prop)

/-- The turns of the program are a run of any system whose steps the turns of the loop are, as long
    as the calls satisfy `P`, and which keeps an invariant `I`. -/
theorem Starts.exists_run (h : Starts opts calls.socket config) {srv : Server}
    (hrow : srv.pawnRow = config.pawnRow) (hms : timeoutMs config.timeout = some srv.timeoutMs)
    (buffer : RecvBuffer) (hinit : I .initial) (hreach : ∀ s, I s → Reachable srv s)
    (hstep : ∀ c s l s', P c → I s → LoopStep srv s l s' →
      (c.alloc.Succeeds → CompletedLoopStep srv s l s') → step s l s' ∧ I s')
    (hcalls : ∀ c ∈ calls.turns, P c) :
    ∃ tr s, LTS.Run step .initial tr s ∧ I s ∧
      (serverMain opts srv.uninitialised buffer calls).EndsAs srv calls.turns tr.length s ∧
      ∀ (k : ℕ) c o u, calls.turns[k]? = some c →
        (serverMain opts srv.uninitialised buffer calls).turns[k]? = some o → tr[k]? = some u →
        IsRound c o u.label := by
  have hturns := (h.serverMain_eq hrow buffer).1
  have hturn : ∀ (c : TurnCalls) (m : ServerMemory) (s : ServerState) (m' : ServerMemory)
      (o : TurnOutput), P c → m.state = s ∧ I s →
      serverTurn config srv.template c m = (o, .ok m') →
      ∃ l s', step s l s' ∧ (m'.state = s' ∧ I s') ∧ IsRound c o l := by
    intro c m s m' o hc hm hok
    obtain ⟨rfl, hs⟩ := hm
    rcases serverTurn_cases hms (hreach _ hs) c with
      ⟨m₁, o₁, l, hturn, hround, hloop, hcompleted⟩ | ⟨o₁, e, herror, -⟩
    · obtain ⟨rfl, heq⟩ := Prod.mk.inj (hturn.symm.trans hok)
      obtain rfl := Except.ok.inj heq
      obtain ⟨hst, hs'⟩ := hstep c _ l _ hc hs hloop hcompleted
      exact ⟨l, _, hst, ⟨rfl, hs'⟩, hround⟩
    · exact absurd (herror.symm.trans hok) (by simp)
  obtain ⟨tr, s, hrun, hends, hall⟩ := Driver.run_refines step
    (fun (m : ServerMemory) s => m.state = s ∧ I s) P IsRound hturn calls.turns
    ⟨buffer, false, .initial⟩ .initial hcalls ⟨rfl, hinit⟩
  obtain ⟨hs, hends⟩ := h.endsAs hrow hms hreach hends
  exact ⟨tr, s, hrun, hs, hends, hturns ▸ hall⟩

end Server

/-- **The server refines the transition system**: once it has started, what it prints and sends turn
    by turn is a run of the loop of the server that its options describe. It ends only because a
    call fails, for want of memory for the map of handlers or for a reply, or in a handling that
    cannot return; and what it has printed and sent in the turn that ends it is what the loop does
    up to that point. -/
theorem server_refines {opts : List Opt} {calls : ServerCalls} {config : AppConfig}
    (h : Starts opts calls.socket config) (uninitialised : GameState) (buffer : RecvBuffer) :
    ∃ (srv : Server) (tr : List (LTS.Transition ServerState Round)) (s : ServerState),
      srv.pawnRow = config.pawnRow ∧ timeoutMs config.timeout = some srv.timeoutMs ∧
      LTS.Run (LoopStep srv) .initial tr s ∧
      (serverMain opts uninitialised buffer calls).EndsAs srv calls.turns tr.length s ∧
      ∀ (k : ℕ) c o u, calls.turns[k]? = some c →
        (serverMain opts uninitialised buffer calls).turns[k]? = some o → tr[k]? = some u →
        IsRound c o u.label := by
  obtain ⟨srv, hrow, rfl, hms⟩ := h.exists_server uninitialised
  obtain ⟨tr, s, hrun, -, hends, hall⟩ := h.exists_run (LoopStep srv) (Reachable srv) (fun _ => True)
    hrow hms buffer .refl (fun _ hs => hs)
    (fun _ _ _ _ _ hs hloop _ => ⟨hloop, hloop.reachable hs⟩) (fun _ _ => trivial)
  exact ⟨srv, tr, s, hrow, hms, hrun, hends, hall⟩

/-- A system whose calls succeed. -/
def SocketCalls.ok : SocketCalls where
  socket := true
  setsockopt _ := true
  getaddrinfo _ := true
  attach := true
  getsockname := some 10000

/-- A turn in which player 7 joins. -/
def TurnCalls.join (now : UInt64) : TurnCalls :=
  .succeeding (.received (0 :: htonl 7) ⟨2130706433, 40000⟩) now

theorem starts_serverArguments : Starts serverArguments .ok
    { address := ['h'], pawnRow := ['1', '0', '1'], port := 0, timeout := .finite 10 } := by
  refine ⟨?_, some 10000, ?_⟩
  · decide +kernel
  · decide +kernel

/-- A buffer that was all zero. -/
def RecvBuffer.zero : RecvBuffer := ⟨List.replicate bufferSize 0, List.length_replicate⟩

theorem server_refines_join : ∃ calls srv tr s, calls.turns.length = 1 ∧
    LTS.Run (LoopStep srv) .initial tr s ∧
    (serverMain serverArguments valueInitialised .zero calls).EndsAs srv calls.turns tr.length s := by
  obtain ⟨srv, tr, s, -, -, hrun, hends, -⟩ := @server_refines serverArguments
    ⟨.ok, [.join 0]⟩ _ starts_serverArguments valueInitialised .zero
  exact ⟨_, srv, tr, s, rfl, hrun, hends⟩

/-- Nothing the turn depends on fails. -/
structure TurnCalls.Succeed (c : TurnCalls) : Prop extends c.Delivers where
  recvfrom : c.recvfrom ≠ .failed
  alloc : c.alloc.Succeeds

theorem TurnCalls.succeed_succeeding {recvfrom : RecvResult} (h : recvfrom ≠ .failed)
    (now : UInt64) : (TurnCalls.succeeding recvfrom now).Succeed where
  toDelivers := TurnCalls.delivers_succeeding recvfrom now
  recvfrom := h
  alloc := Allocation.ok_succeeds

/-- A datagram that has been received is answered, and all answers go to its sender. -/
def IsAnswered (c : TurnCalls) (o : TurnOutput) : Prop :=
  ∀ datagram sender, c.recvfrom = .received datagram sender →
    o.sent ≠ [] ∧ ∀ reply ∈ o.sent, reply.1 = sender

section Answers

variable {srv : Server} {config : AppConfig} {c : TurnCalls} {o : TurnOutput} {l : Round}
  {s s' : ServerState}

theorem IsRound.isAnswered (h : IsRound c o l) (hstep : CompletedLoopStep srv s l s')
    (hroom : s.HasRoom) : IsAnswered c o := by
  intro datagram sender hrecv
  cases h with
  | timedOut hrecv' _ _ _ => exact absurd (hrecv.symm.trans hrecv') (by simp)
  | received datagram' sender' d hrecv' hl _ _ hsent =>
      obtain ⟨-, rfl⟩ := RecvResult.received.inj (hrecv.symm.trans hrecv')
      rw [hsent]
      refine ⟨?_, by simp⟩
      rw [ne_eq, List.map_eq_nil_iff]
      exact hstep.sent_ne_nil hl hroom

/-- With fewer than 256 pawns, a turn whose calls succeed goes on. -/
theorem not_turnEnds (hs : ReachableCompleted srv s) (hrow : srv.pawnRow.length ≠ 256)
    (hc : c.Succeed) {e : ProgramEnd} : ¬ TurnEnds srv s c o e := by
  intro h
  cases h with
  | recvfrom h => exact hc.recvfrom h
  | @handling mid swept out datagram sender d _ _ _ _ hsweep h =>
      have hmid : ReachableCompleted srv mid :=
        hs.snoc (l := ⟨.sweep c.sweptAt, swept⟩) ⟨trivial, hsweep⟩
      cases h with
      | handlersMap _ _ hno => exact absurd (hno.symm.trans hc.handlersMap) (by decide)
      | response _ _ _ hno => exact absurd (hno.symm.trans (hc.response _)) (by decide)
      | sendto _ _ hno => exact absurd (hno.symm.trans (hc.sendto _)) (by decide)
      | hangs h => exact not_endless_of_length hmid.reachable hrow h
      | overruns h => exact not_rowless_of_completed hmid h

end Answers

/-- **The server stays up**: on fewer than 256 pawns, as long as the calls and allocations of its
    turns succeed, the program never ends, and it answers every datagram to its sender, up to the
    number of games it has room for. -/
theorem server_stays_up {opts : List Opt} {calls : ServerCalls} {config : AppConfig}
    (h : Starts opts calls.socket config) (hrow : config.pawnRow.length ≠ 256)
    (hcalls : ∀ c ∈ calls.turns, c.Succeed) (hfew : calls.turns.length < uint32Max.toNat)
    (uninitialised : GameState) (buffer : RecvBuffer) :
    (∃ m, (serverMain opts uninitialised buffer calls).result = .ok m) ∧
      List.Forall₂ IsAnswered calls.turns (serverMain opts uninitialised buffer calls).turns := by
  obtain ⟨srv, hrow', rfl, hms⟩ := h.exists_server uninitialised
  obtain ⟨tr, s, hrun, hs, hends, hall⟩ := h.exists_run (CompletedLoopStep srv)
    (ReachableCompleted srv) TurnCalls.Succeed hrow' hms buffer .refl (fun _ hs => hs.reachable)
    (fun _ _ _ _ hc hs _ hcompleted => ⟨hcompleted hc.alloc, (hcompleted hc.alloc).reachable hs⟩)
    hcalls
  rw [← hrow'] at hrow
  unfold ServerRun.EndsAs at hends
  cases hresult : (serverMain opts srv.uninitialised buffer calls).result with
  | error e =>
      rw [hresult] at hends
      obtain ⟨c, o, hc, -, -, hwhy⟩ := hends
      exact absurd hwhy (not_turnEnds hs hrow (hcalls c (List.mem_of_getElem? hc)))
  | ok m =>
      rw [hresult] at hends
      obtain ⟨-, hn, hlen⟩ := hends
      refine ⟨⟨m, rfl⟩, List.forall₂_iff_get.2 ⟨hn.symm.trans hlen.symm, fun k hk hk' => ?_⟩⟩
      obtain ⟨u, hu⟩ : ∃ u, tr[k]? = some u := ⟨_, List.getElem?_eq_getElem (hn ▸ hk)⟩
      have hround := hall k _ _ u (List.getElem?_eq_getElem hk) (List.getElem?_eq_getElem hk') hu
      -- there are no more games than turns before this one
      obtain ⟨before, after, rfl⟩ := List.append_of_mem (List.mem_of_getElem? hu)
      obtain ⟨s₁, hbefore, hafter⟩ := hrun.split
      obtain ⟨rfl, hstep, -⟩ := hafter.uncons
      refine hround.isAnswered hstep (Nat.lt_of_le_of_lt (card_keys_le_of_run hbefore) ?_)
      rw [List.length_append, List.length_cons] at hn
      omega

theorem server_stays_up_join : ∃ calls m,
    (serverMain serverArguments valueInitialised .zero calls).result = .ok m ∧
    (serverMain serverArguments valueInitialised .zero calls).turns.length = 1 ∧
    List.Forall₂ IsAnswered calls.turns
      (serverMain serverArguments valueInitialised .zero calls).turns := by
  have hcalls : ∀ c ∈ [TurnCalls.join 0], c.Succeed := by
    intro c hc
    obtain rfl := List.mem_singleton.1 hc
    exact TurnCalls.succeed_succeeding (by simp) 0
  obtain ⟨⟨m, hm⟩, hanswered⟩ := @server_stays_up serverArguments ⟨.ok, [.join 0]⟩ _
    starts_serverArguments (by decide) hcalls (by show 1 < 4294967295; decide) valueInitialised
    .zero
  exact ⟨_, m, hm, hanswered.length_eq.symm, hanswered⟩

/-! ## The client -/

section Client

open Client (serializeMessage serializers serializeFields)

variable {m : List Char} {payload : Bytes} {t b : UInt8} {d : Datagram}

/-- Every serializer resizes the payload to the server's size of its type. -/
theorem serializers_size (ht : t ≤ 4) : ∃ expectedParts usage fields pawn,
    serializers t =
        some (serializeFields expectedParts (Datagram.messageSize t) usage fields pawn) ∧
      Datagram.messageSize t = 4 * fields.length + pawn.toList.length + 1 := by
  rcases toNat_of_le_four ht with rfl | rfl | rfl | rfl | rfl
  all_goals exact ⟨_, _, _, _, rfl, rfl⟩

theorem length_of_serializeFields {expectedParts size : ℕ} {usage : String}
    {fields : List Client.Field} {pawn : Option Client.Field} {p : List (List Char)}
    (hsize : size = 4 * fields.length + pawn.toList.length + 1)
    (h : serializeFields expectedParts size usage fields pawn p [b] = .ok payload) :
    payload.length = size ∧ payload.head? = some b := by
  by_cases hp : p.length = expectedParts
  · rw [Client.serializeFields_eq hsize hp] at h
    obtain ⟨vals, hvals, h⟩ := bind_eq_ok_iff.1 h
    obtain ⟨pawns, hpawns, h⟩ := bind_eq_ok_iff.1 h
    obtain rfl := Except.ok.inj h
    have hlen := (mapM_eq_ok_iff.1 hvals).length_eq
    have hlen' := (mapM_eq_ok_iff.1 hpawns).length_eq
    refine ⟨?_, rfl⟩
    rw [List.length_cons, List.length_append, Client.length_flatMap_htonl, List.length_map]
    omega
  · exact absurd ((if_pos hp).symm.trans h) (by simp)

/-- What the client writes is a message of one of the types, with the length of its type. -/
theorem serializeMessage_size (h : serializeMessage m = .ok payload) :
    ∃ t ≤ 4, payload.length = Datagram.messageSize t ∧ payload.head? = some t := by
  rcases Client.serializeMessage_type m with ⟨message, hfatal⟩ | ⟨first, texts, t, hsplit, ht, htype⟩
  · exact absurd (hfatal.symm.trans h) (by simp)
  · obtain ⟨expectedParts, usage, fields, pawn, hserializer, hsize⟩ := serializers_size ht
    rw [Client.serializeMessage_eq hsplit ht htype hserializer] at h
    exact ⟨t, ht, length_of_serializeFields hsize h⟩

/-- The first byte of what was received is the type. -/
theorem msgType_of_head (hlen : 0 < d.len) (h : (d.buf.take d.len).head? = some t) :
    d.msgType = t := by
  rw [List.head?_eq_getElem?, List.getElem?_take_of_lt hlen] at h
  rw [Datagram.msgType, List.getD_eq_getElem?_getD, h]
  rfl

theorem known_of_serializeMessage (h : serializeMessage m = .ok payload)
    (hd : d.buf.take d.len = payload) : d.Known ∧ d.len = Datagram.messageSize d.msgType := by
  obtain ⟨t, ht, hlen, hhead⟩ := serializeMessage_size h
  have hle : d.len ≤ d.buf.length := d.buf_length ▸ d.len_le.trans (Nat.sub_le _ _)
  rw [← hd, List.length_take, Nat.min_eq_left hle] at hlen
  have hpos : 0 < d.len := by
    rw [hlen]
    rcases toNat_of_le_four ht with rfl | rfl | rfl | rfl | rfl <;> decide
  have htype : d.msgType = t := msgType_of_head hpos (hd ▸ hhead)
  exact ⟨⟨hpos.ne', htype ▸ ht⟩, htype ▸ hlen⟩

/-- The client writes what its serializer makes of its option. -/
theorem serializeMessage_of_written {opts : List Opt} {calls : ClientCalls}
    (h : (clientMain opts calls).written = some payload) : ∃ config,
    Program.client.parse opts = .ok config ∧ serializeMessage config.message = .ok payload ∧
      (clientMain opts calls).result =
        (receiveAndDisplayMessage calls.recvBuffer calls.read).mapError .exit := by
  unfold clientMain at h ⊢
  split at h
  · exact absurd h (by simp)
  · next config hparse =>
      split at h
      · exact absurd h (by simp)
      · next hserialize =>
          split at h
          · exact absurd h (by simp)
          · split at h
            · exact absurd h (by simp)
            · next hwrite =>
                obtain rfl := Option.some.inj h
                refine ⟨config, hparse, hserialize, ?_⟩
                rw [if_neg hwrite]

end Client

/-- **The client's requests are well-formed**, up to the ids that the user gives: whatever the command
line and the answers of the system, what the client writes has one of the five types and the length of
its type, so the server refuses it only for its player id or its game id. -/
theorem client_requests (opts : List Opt) (calls : ClientCalls) {payload : Bytes}
    (h : (clientMain opts calls).written = some payload) {d : Datagram}
    (hd : d.buf.take d.len = payload) :
    d.Known ∧ d.len = Datagram.messageSize d.msgType ∧
    ∀ srv s, Reachable srv s → ∀ now alloc s' out, Handles srv now alloc d s s' out →
      ∀ reply ∈ out.sent, IsWrongMsg reply → reply[13]? = some 1 ∨ reply[13]? = some 5 := by
  obtain ⟨config, -, hmessage, -⟩ := serializeMessage_of_written h
  obtain ⟨hknown, hlen⟩ := known_of_serializeMessage hmessage hd
  refine ⟨hknown, hlen, ?_⟩
  intro srv s hs now alloc s' out hhandles reply hreply hwrong
  cases hhandles.handling.replied with
  | nothing _ hsent => simp [hsent] at hreply
  | wrong hbad _ hsent =>
      rw [hsent, List.mem_singleton] at hreply
      have hindex : d.errorIndex = 1 := by
        rw [Datagram.errorIndex, if_neg (not_not.2 hknown), if_neg (not_not.2 hlen)]
      rw [hreply, hindex]
      exact .inl (pointsAt_wrongMessage d 1).index
  | twice _ _ _ _ hsent =>
      rw [hsent, List.mem_pair] at hreply
      rcases hreply with rfl | rfl
      · unfold ServerState.lookupErrorIndex
        split
        · exact .inl (pointsAt_wrongMessage d 1).index
        · exact .inr (pointsAt_wrongMessage d 5).index
      · exact .inr (pointsAt_wrongMessage d 5).index
  | gameState id g _ _ hg hsent =>
      rw [hsent, List.mem_singleton] at hreply
      have hstatus := ((hs.handles hhandles).entryInv hg).status
      exact absurd (hreply ▸ hwrong) (not_isWrongMsg_gameStateMessage hstatus id)

/-- A client that joins as player 7. -/
def joinArguments : List Opt :=
  [.flag .m ['0', '/', '7'], .flag .a ['h'], .flag .p ['1'], .flag .t ['1']]

theorem client_requests_join :
    (clientMain joinArguments ⟨.ok, fun _ => true, [], .timedOut⟩).written = some (0 :: htonl 7) ∧
      (Datagram.join 7).Known ∧ (Datagram.join 7).len = 5 := by
  have hwritten : (clientMain joinArguments ⟨.ok, fun _ => true, [], .timedOut⟩).written =
      some (0 :: htonl 7) := by decide +kernel
  obtain ⟨hknown, hlen, -⟩ := client_requests joinArguments _ hwritten (d := .join 7) rfl
  exact ⟨hwritten, hknown, hlen⟩

end Kayles
