import Kayles.Proofs.Programs
import Kayles.Proofs.Service

set_option autoImplicit false

/-! # Calls of the client

The client program, the server and the service together. A user writes a request on the command line
and reads a display; in between the request is parsed, written, received, handled and answered, and
the answer is written, received and printed. As long as no allocation fails, what the user sees is
the response of the service to the request that was written, or, for player 0, an error report:
`client_calls_service`. -/

namespace Kayles

/-! ## The request in the datagram -/

section Request

variable {t i : UInt8} {p g : UInt32} {d : Datagram}

theorem length_of_requestBytes (ht : t ≤ 4) (hd : d.buf.take d.len = requestBytes t p g i) :
    d.len = Datagram.messageSize t := by
  have hle : d.len ≤ d.buf.length := d.buf_length ▸ d.len_le.trans (Nat.sub_le _ _)
  rw [← length_requestBytes ht p g i, ← hd, List.length_take_of_le hle]

theorem messageSize_bounds (ht : t ≤ 4) :
    0 < Datagram.messageSize t ∧ Datagram.messageSize t ≤ 12 := by
  rcases toNat_of_le_four ht with rfl | rfl | rfl | rfl | rfl <;> decide

theorem msgType_of_requestBytes (ht : t ≤ 4) (hd : d.buf.take d.len = requestBytes t p g i) :
    d.msgType = t := by
  obtain ⟨tail, htail⟩ := requestBytes_playerId t p g i
  refine msgType_of_head ?_ (by rw [hd, htail]; rfl)
  rw [length_of_requestBytes ht hd]
  exact (messageSize_bounds ht).1

theorem playerId_of_requestBytes (ht : t ≤ 4) (hd : d.buf.take d.len = requestBytes t p g i) :
    d.playerId = p :=
  Except.ok.inj ((d.readU32_buf (by decide)).symm.trans (readBack_of_bytes ht hd).playerId)

theorem known_of_requestBytes (ht : t ≤ 4) (hd : d.buf.take d.len = requestBytes t p g i) :
    d.Known ∧ d.len = Datagram.messageSize d.msgType := by
  have htype := msgType_of_requestBytes ht hd
  have hlen := length_of_requestBytes ht hd
  refine ⟨⟨?_, htype ▸ ht⟩, htype ▸ hlen⟩
  rw [hlen]
  exact (messageSize_bounds ht).1.ne'

/-- A request is a well-formed message, unless it is one of player 0. -/
theorem wellFormed_iff_of_requestBytes (ht : t ≤ 4) (hd : d.buf.take d.len = requestBytes t p g i) :
    d.WellFormed ↔ p ≠ 0 := by
  obtain ⟨hknown, hlen⟩ := known_of_requestBytes ht hd
  rw [← playerId_of_requestBytes ht hd]
  exact ⟨fun h => h.player, fun hp => ⟨hknown, hlen, hp⟩⟩

/-- The service is asked what the client was asked. -/
theorem request_of_requestBytes (ht : t ≤ 4) (hd : d.buf.take d.len = requestBytes t p g i) :
    d.request = serviceRequest t p g i := by
  have hback := readBack_of_bytes ht hd
  have hgame : t ≠ 0 → d.gameId = g := fun ht =>
    Except.ok.inj ((d.readU32_buf (by decide)).symm.trans (hback.gameId ht))
  have hpawn : t = 1 ∨ t = 2 → d.pawnIdx = i := fun ht =>
    Except.ok.inj ((d.loadByte_buf (by decide)).symm.trans (hback.pawnIdx ht))
  rw [Datagram.request, msgType_of_requestBytes ht hd, playerId_of_requestBytes ht hd]
  rcases toNat_of_le_four ht with rfl | rfl | rfl | rfl | rfl
  · rfl
  · rw [hgame (by decide), hpawn (by decide)]
  · rw [hgame (by decide), hpawn (by decide)]
  · rw [hgame (by decide)]
    rfl
  · rw [hgame (by decide)]
    rfl

/-- The bytes of a request that a MSG_WRONG_MSG echoes. -/
def requestEcho (t : UInt8) (p g : UInt32) (i : UInt8) : Bytes :=
  requestBytes t p g i ++ List.replicate (12 - Datagram.messageSize t) 0

theorem echo_of_requestBytes (ht : t ≤ 4) (hd : d.buf.take d.len = requestBytes t p g i) :
    d.echo = requestEcho t p g i := by
  have hlen := length_of_requestBytes ht hd
  rw [Datagram.echo, Nat.min_eq_left (hlen ▸ (messageSize_bounds ht).2), hd, hlen, requestEcho]

/-- The handling of a request of a player answers it, unless it sends nothing. -/
theorem answers_of_requestBytes {srv : Server} (hrow : srv.pawnRow.length ≠ 256) (ht : t ≤ 4)
    (hp : p ≠ 0) (hd : d.buf.take d.len = requestBytes t p g i) {s s' : ServerState}
    (hs : ReachableCompleted srv s) {now : UInt64} {alloc : Allocation} {out : Output}
    (hsent : out.sent ≠ []) (h : CompletedStep srv s ⟨.datagram now alloc d, out⟩ s') :
    ∃ response, Service.Answer srv.board s.service (serviceRequest t p g i) s'.service response ∧
      FirstDisplays out.sent (render srv.template.maxPawn (requestEcho t p g i) response) := by
  obtain ⟨halloc, hstep⟩ := h
  have hhandling := Handles.handling hstep
  rcases hhandling.answers hs hrow halloc ((wellFormed_iff_of_requestBytes ht hd).2 hp) with
    ⟨-, -, -, hnone, -⟩ | hanswers
  · exact absurd hnone hsent
  · rwa [AnswersRequest, request_of_requestBytes ht hd, echo_of_requestBytes ht hd] at hanswers

/-- The handling of a request of player 0 reports the player id, and does nothing. -/
theorem reports_of_requestBytes {srv : Server} (ht : t ≤ 4)
    (hd : d.buf.take d.len = requestBytes t 0 g i) {s s' : ServerState} {now : UInt64}
    {alloc : Allocation} {out : Output} (h : Handles srv now alloc d s s' out) :
    s' = s ∧ out.sent = [d.wrongMessage 1] := by
  have hwf : ¬ d.WellFormed := fun hwf => (wellFormed_iff_of_requestBytes ht hd).1 hwf rfl
  obtain ⟨hknown, hlen⟩ := known_of_requestBytes ht hd
  have hindex : d.errorIndex = 1 := by
    rw [Datagram.errorIndex, if_neg (not_not.2 hknown), if_neg (not_not.2 hlen)]
  rw [← hindex]
  exact h.handling.of_malformed hwf

end Request

/-! ## One call -/

/-- The server handles the client's datagram, and the client reads the first reply. -/
def Exchange (srv : Server) (opts : List Opt) (calls : ClientCalls) (s s' : ServerState) : Prop :=
  ∃ (now : UInt64) (alloc : Allocation) (d : Datagram) (reply : Bytes) (rest : List Bytes)
    (log : List LogLine), (clientMain opts calls).written = some (d.buf.take d.len) ∧
    CompletedStep srv s ⟨.datagram now alloc d, { sent := reply :: rest, log := log }⟩ s' ∧
    reply <+: calls.recvBuffer ∧ calls.read = .received reply.length

/-- **A call of the client is a request to the service.** On fewer than 256 pawns, in every state
    reached while no allocation fails and whatever the request that the command line spells out: if
    the server handles the datagram that the client writes and the client reads the first reply,
    then the service answers that request, and what the client displays is the response. A request
    of player 0 is none to the service: it leaves the server as it is, and the client displays an
    error report at the player id. -/
theorem client_calls_service (srv : Server) (hrow : srv.pawnRow.length ≠ 256) {opts : List Opt}
    {config : AppConfig} {t i : UInt8} {p g : UInt32}
    (hopts : Program.client.parse opts = .ok config) (hm : IsRequest config.message t p g i)
    (ht : t ≤ 4) {calls : ClientCalls} (hbuffer : calls.recvBuffer.length = bufferSize)
    {s s' : ServerState} (hs : ReachableCompleted srv s) (h : Exchange srv opts calls s s') :
    (p ≠ 0 → ∃ response,
      Service.Answer srv.board s.service (serviceRequest t p g i) s'.service response ∧
      (clientMain opts calls).result =
        .ok (render srv.template.maxPawn (requestEcho t p g i) response)) ∧
    (p = 0 → s' = s ∧
      (clientMain opts calls).result = .ok (.wrongMessage (requestEcho t p g i) errorIdxPlayer)) := by
  obtain ⟨now, alloc, d, reply, rest, log, hwritten, hstep, hbegins, hread⟩ := h
  obtain ⟨config', hopts', hserialize, hresult⟩ := serializeMessage_of_written hwritten
  obtain rfl := Except.ok.inj (hopts.symm.trans hopts')
  have hd : d.buf.take d.len = requestBytes t p g i :=
    Except.ok.inj (hserialize.symm.trans (serializeMessage_of_isRequest ht hm))
  have hdisplay : ∀ D, FirstDisplays (reply :: rest) D → (clientMain opts calls).result = .ok D := by
    rintro D ⟨reply', rest', hsent, hdisplayed⟩
    obtain ⟨rfl, rfl⟩ := List.cons.inj hsent
    rw [hresult, hread, hdisplayed _ hbuffer hbegins]
    rfl
  constructor
  · intro hp
    obtain ⟨response, hanswer, hfirst⟩ :=
      answers_of_requestBytes hrow ht hp hd hs (List.cons_ne_nil _ _) hstep
    exact ⟨response, hanswer, hdisplay _ hfirst⟩
  · rintro rfl
    obtain ⟨rfl, hsent⟩ := reports_of_requestBytes ht hd hstep.2
    refine ⟨rfl, hdisplay _ ?_⟩
    change reply :: rest = _ at hsent
    rw [hsent, ← echo_of_requestBytes ht hd]
    exact firstDisplays_wrongMessage d _ []

/-- Player 7 joins a server that has just been started. -/
theorem client_calls_service_join : ∃ calls response,
    Service.Answer threePawns.board ServerState.initial.service (.join 7)
      (opened threePawns 7 0).service response ∧
    (clientMain joinArguments calls).result =
      .ok (render threePawns.template.maxPawn (requestEcho 0 7 0 0) response) := by
  let reply : Bytes := gameStateMessage (threePawns.template.open 7 0) 1
  let calls : ClientCalls := ⟨.ok, fun _ => true, reply ++ List.replicate 985 0, .received 15⟩
  have hopts : Program.client.parse joinArguments = .ok
      { address := ['h'], port := 1, timeout := .finite 1, message := ['0', '/', '7'] } := by
    decide +kernel
  have hwritten : (clientMain joinArguments calls).written = some (0 :: htonl 7) := by
    decide +kernel
  have hm : IsRequest ['0', '/', '7'] 0 7 0 0 :=
    ⟨['0'], [['7']], rfl, isDecimal_toDigits 0, .cons (isDecimal_toDigits 7) .nil⟩
  have hbuffer : calls.recvBuffer.length = bufferSize := by
    show (reply ++ List.replicate 985 0).length = 1000
    rw [List.length_append, List.length_replicate]
    rfl
  have hinit : ReachableCompleted threePawns .initial := LTS.Reachable.refl
  have hstep := hinit.step Allocation.ok_succeeds
    (handling_opened threePawns (show (7 : UInt32) ≠ 0 by decide) 0)
  obtain ⟨hanswers, -⟩ := client_calls_service threePawns (by decide) hopts hm (by decide) hbuffer
    hinit ⟨0, .ok, .join 7, reply, [], _, hwritten, hstep, List.prefix_append _ _, rfl⟩
  exact ⟨calls, hanswers (by decide)⟩

/-! ## Many calls at a time

The network may deliver a request twice, and the two error reports that are sent to a stranger in
either order. -/

/-- What a client may be shown for a response. A stranger may see the second report first, which says
    that there is no such game. -/
def MayDisplay (maxPawn : UInt8) (echo : Bytes) (response : Service.Response UInt32 UInt32 ℕ)
    (D : Display) : Prop :=
  D = render maxPawn echo response ∨ response = .stranger ∧ D = render maxPawn echo .noGame

section Linearizable

variable {srv : Server} {t i : UInt8} {p g : UInt32} {s s' : ServerState} {now : UInt64}
  {alloc : Allocation} {d : Datagram} {out : Output} {reply recvBuffer : Bytes} {D : Display}

/-- A buffer can hold an error report. -/
theorem render_eq_of_wrongMessage {e : UInt8}
    (h : ∀ recvBuffer : Bytes, recvBuffer.length = bufferSize → d.wrongMessage e <+: recvBuffer →
      receiveAndDisplayMessage recvBuffer (.received (d.wrongMessage e).length) = .ok D) :
    D = .wrongMessage d.echo e := by
  have hbegins : d.wrongMessage e <+: d.wrongMessage e ++ List.replicate 986 0 :=
    List.prefix_append _ _
  have hbuffer : (d.wrongMessage e ++ List.replicate 986 0).length = bufferSize := by
    rw [List.length_append, (pointsAt_wrongMessage d e).length, List.length_replicate]
  exact display_of_wrongMessage hbuffer hbegins (h _ hbuffer hbegins)

/-- A reply that is not the first is the second of two error reports. -/
theorem mayDisplay_of_mem {response : Service.Response UInt32 UInt32 ℕ}
    (h : Handling srv.template now alloc d s s' out)
    (hfirst : FirstDisplays out.sent (render srv.template.maxPawn d.echo response))
    (hreply : reply ∈ out.sent) (hbuffer : recvBuffer.length = bufferSize)
    (hbegins : reply <+: recvBuffer)
    (hdisplay : receiveAndDisplayMessage recvBuffer (.received reply.length) = .ok D) :
    MayDisplay srv.template.maxPawn d.echo response D := by
  obtain ⟨first, rest, hsent, hdisplayed⟩ := hfirst
  rw [hsent] at hreply
  rcases List.mem_cons.1 hreply with rfl | hrest
  · exact .inl (Except.ok.inj (hdisplay.symm.trans (hdisplayed _ hbuffer hbegins)))
  cases h.replied with
  | nothing _ hnone => exact absurd (hsent.symm.trans hnone) (List.cons_ne_nil _ _)
  | wrong _ _ hone | gameState _ _ _ _ _ hone =>
      obtain ⟨-, rfl⟩ := List.cons.inj (hsent.symm.trans hone)
      exact absurd hrest List.not_mem_nil
  | twice _ _ _ _ htwo =>
      obtain ⟨rfl, rfl⟩ := List.cons.inj (hsent.symm.trans htwo)
      obtain rfl := List.mem_singleton.1 hrest
      have hsecond : D = .wrongMessage d.echo 5 := display_of_wrongMessage hbuffer hbegins hdisplay
      have hfirst := render_eq_of_wrongMessage hdisplayed
      cases response with
      | game id g => exact absurd hfirst (by simp [render])
      | noGame => exact .inl hsecond
      | stranger => exact .inr ⟨rfl, hsecond⟩

/-- What a transition of the system is to the service: nothing, unless it is a step of the server. -/
def NetRealises (srv : Server) (t : NetTransition)
    (o : Option (Service.Label UInt32 UInt32 ℕ)) : Prop :=
  match Network.serverTransition t with
  | none => o = none
  | some u => Realises srv u.pre u.label o

/-- A transition of the system is a step of the service, or none. -/
theorem service_of_step {net net' : Network.State ServerState SocketAddress Bytes Bytes}
    {a : Network.Action Label SocketAddress Bytes Bytes} (hs : ReachableCompleted srv net.server)
    (hrow : srv.pawnRow.length ≠ 256) (h : Network.Step (netServer srv) net a net') :
    ∃ o, LTS.Stutters (Service.Step srv.board) net.server.service o net'.server.service ∧
      NetRealises srv ⟨net, a, net'⟩ o := by
  cases h with
  | send _ _ => exact ⟨none, rfl, rfl⟩
  | serve _ _ l s' _ _ hstep => exact CompletedStep.realises hs hrow hstep
  | idle l s' _ hstep => exact CompletedStep.realises hs hrow hstep
  | receive _ _ _ => exact ⟨none, rfl, rfl⟩

end Linearizable

/-- **The service is linearizable.** On fewer than 256 pawns, in every run of the server, any number
    of clients and the network in which no allocation fails, every transition is a step of the
    service or none, as its label says; and whatever is displayed of a request of a player that a
    client sends from a new address, there is a transition after the request was sent and before the
    reply was received at which the service answers this request, and the display is that answer.
    What is displayed of a request of player 0 is an error report at the player id. -/
theorem calls_linearizable (srv : Server) (hrow : srv.pawnRow.length ≠ 256)
    {before during : List NetTransition} (hrun : NetRun srv (before ++ during)) :
    (∀ t ∈ before ++ during, ∃ o,
      LTS.Stutters (Service.Step srv.board) t.pre.server.service o t.post.server.service ∧
        NetRealises srv t o) ∧
    ∀ (k : SocketAddress) (ty : UInt8) (p g : UInt32) (i : UInt8), ty ≤ 4 →
      (∀ request, ¬ Network.Sent before k request) →
      (∀ request, Network.Sent during k request → request = requestBytes ty p g i) →
      ∀ D, Displays during k D →
        (p ≠ 0 → ∃ sent t received response, during = sent ++ t :: received ∧
          Network.Sent sent k (requestBytes ty p g i) ∧ Displays received k D ∧
          Service.Answer srv.board t.pre.server.service (serviceRequest ty p g i)
            t.post.server.service response ∧
          MayDisplay srv.template.maxPawn (requestEcho ty p g i) response D) ∧
        (p = 0 → D = .wrongMessage (requestEcho ty p g i) errorIdxPlayer) := by
  obtain ⟨net, hnet⟩ := hrun
  have hreach : ∀ t ∈ before ++ during, ReachableCompleted srv t.pre.server := by
    intro t ht
    obtain ⟨tr, tr', heq⟩ := List.append_of_mem ht
    rw [heq] at hnet
    obtain ⟨mid, htr, hrest⟩ := hnet.split
    obtain ⟨rfl, -, -⟩ := hrest.uncons
    exact ⟨_, Network.run_served htr⟩
  constructor
  · intro t ht
    exact service_of_step (hreach t ht) hrow (hnet.step_of_mem t ht)
  · rintro k ty p g i hty hnew honly D ⟨reply, recvBuffer, hreceived, hbuffer, hbegins, hdisplay⟩
    obtain ⟨sent, t, received, request, l, rfl, -, hstep, ⟨now, alloc, d, hevent, hbytes⟩, hreply,
      hsent, hreceived⟩ := Network.call_served hnet hnew hreceived
    have hs := hreach t (List.mem_append_right _ (List.mem_append_right _ List.mem_cons_self))
    obtain rfl := honly request hsent.append
    have hd : d.buf.take d.len = requestBytes ty p g i := by
      rw [hbytes, List.take_of_length_le]
      rw [length_requestBytes hty p g i]
      exact (messageSize_bounds hty).2.trans (by decide)
    obtain ⟨event, out⟩ := l
    obtain rfl : event = .datagram now alloc d := hevent
    constructor
    · intro hp
      obtain ⟨response, hanswer, hfirst⟩ := answers_of_requestBytes hrow hty hp hd hs
        (List.ne_nil_of_mem hreply) hstep
      refine ⟨sent, t, received, response, rfl, hsent, ?_, hanswer, ?_⟩
      · exact ⟨reply, recvBuffer, hreceived, hbuffer, hbegins, hdisplay⟩
      · rw [← echo_of_requestBytes hty hd] at hfirst ⊢
        exact mayDisplay_of_mem (Handles.handling hstep.2) hfirst hreply hbuffer hbegins hdisplay
    · rintro rfl
      obtain ⟨-, hreports⟩ := reports_of_requestBytes hty hd hstep.2
      obtain rfl : reply = d.wrongMessage 1 := List.mem_singleton.1 (hreports ▸ hreply)
      rw [← echo_of_requestBytes hty hd]
      exact display_of_wrongMessage hbuffer hbegins hdisplay

/-- Player 9 is shown the game in which it has just been seated. -/
theorem calls_linearizable_started : ∃ (tr sent received : List NetTransition) (t : NetTransition)
    (response : Service.Response UInt32 UInt32 ℕ), NetRun threePawns tr ∧
    tr = sent ++ t :: received ∧ Service.Answer threePawns.board t.pre.server.service (.join 9)
      t.post.server.service response ∧
    MayDisplay 2 (requestEcho 0 9 0 0) response
      (((threePawns.template.open 7 0).seat 9 0).display 1) := by
  obtain ⟨tr, hrun, -, honly, -, hD⟩ := exists_netRun_started
  have hrun' : NetRun threePawns ([] ++ tr) := hrun
  have hnew : ∀ request, ¬ Network.Sent ([] : List NetTransition) ⟨2130706433, 40001⟩ request :=
    fun _ ⟨_, ht, _⟩ => absurd ht List.not_mem_nil
  obtain ⟨-, hcalls⟩ := calls_linearizable threePawns (by decide) hrun'
  obtain ⟨hcall, -⟩ := hcalls _ 0 9 0 0 (by decide) hnew honly _ hD
  obtain ⟨sent, t, received, response, heq, -, -, hanswer, hdisplay⟩ := hcall (by decide)
  exact ⟨tr, sent, received, t, response, hrun, heq, hanswer, hdisplay⟩

end Kayles
