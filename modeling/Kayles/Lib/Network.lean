import Kayles.Lib.Run

set_option autoImplicit false

/-! # A server behind a datagram network

Clients, told apart by their addresses, send requests to a server, and the server sends replies to the
addresses that requests came from. The network loses, duplicates, delays and reorders what it carries:
it keeps every datagram that was ever sent and delivers any of them at any time, or never, as often as
it likes. A property of every run of this system therefore holds whatever the network does.

The server is any labelled transition system. Its own run is read off a run of the system (`served`),
and `call_served` traces every reply that a client receives back to a step of that run. -/

namespace Network

variable {σ ℓ κ α β : Type*}

/-- A server as the network sees it. -/
structure Server (σ ℓ α β : Type*) where
  step : σ → ℓ → σ → Prop
  /-- A step with this label handles the request. -/
  receives : ℓ → α → Prop
  /-- A step with this label handles no request. -/
  idle : ℓ → Prop
  sends : ℓ → List β

/-- The server, and all that was ever sent, with the address of the client it came from or goes to. -/
structure State (σ κ α β : Type*) where
  server : σ
  requests : List (κ × α)
  replies : List (κ × β)

/-- Nothing has been sent. -/
def State.start (s : σ) : State σ κ α β := ⟨s, [], []⟩

/-- What the clients, the server and the network do; an idle server acts on its own. -/
inductive Action (ℓ κ α β : Type*) where
  | send (client : κ) (request : α)
  | serve (client : κ) (request : α) (l : ℓ)
  | idle (l : ℓ)
  | receive (client : κ) (reply : β)

/-- The transitions of the system. What has been delivered stays in the network. -/
inductive Step (srv : Server σ ℓ α β) : State σ κ α β → Action ℓ κ α β → State σ κ α β → Prop
  | send (net : State σ κ α β) (client : κ) (request : α) :
      Step srv net (.send client request)
        { net with requests := net.requests ++ [(client, request)] }
  | serve (net : State σ κ α β) (client : κ) (request : α) (l : ℓ) (s' : σ)
      (hsent : (client, request) ∈ net.requests) (hreceives : srv.receives l request)
      (hstep : srv.step net.server l s') :
      Step srv net (.serve client request l)
        { net with
          server := s'
          replies := net.replies ++ (srv.sends l).map fun reply => (client, reply) }
  | idle (net : State σ κ α β) (l : ℓ) (s' : σ) (hidle : srv.idle l)
      (hstep : srv.step net.server l s') :
      Step srv net (.idle l) { net with server := s' }
  | receive (net : State σ κ α β) (client : κ) (reply : β) (hsent : (client, reply) ∈ net.replies) :
      Step srv net (.receive client reply) net

/-- The transition of the server that a transition of the system is, if it is one. -/
def serverTransition (t : LTS.Transition (State σ κ α β) (Action ℓ κ α β)) :
    Option (LTS.Transition σ ℓ) :=
  match t.label with
  | .serve _ _ l => some ⟨t.pre.server, l, t.post.server⟩
  | .idle l => some ⟨t.pre.server, l, t.post.server⟩
  | _ => none

/-- The run of the server in a run of the system. -/
def served (tr : List (LTS.Transition (State σ κ α β) (Action ℓ κ α β))) :
    List (LTS.Transition σ ℓ) := tr.filterMap serverTransition

/-- The client has sent the request. -/
def Sent (tr : List (LTS.Transition (State σ κ α β) (Action ℓ κ α β))) (client : κ) (request : α) :
    Prop := ∃ t ∈ tr, t.label = .send client request

/-- The client has received the reply. -/
def Received (tr : List (LTS.Transition (State σ κ α β) (Action ℓ κ α β))) (client : κ) (reply : β) :
    Prop := ∃ t ∈ tr, t.label = .receive client reply

/-- A step of the server has handled a request of the client and sent the reply. -/
def RepliedTo (srv : Server σ ℓ α β) (tr : List (LTS.Transition (State σ κ α β) (Action ℓ κ α β)))
    (client : κ) (reply : β) (u : LTS.Transition σ ℓ) : Prop :=
  u ∈ served tr ∧ ∃ request, Sent tr client request ∧ srv.receives u.label request ∧
    reply ∈ srv.sends u.label

section Rules

variable {srv : Server σ ℓ α β} {net net' : State σ κ α β} {a : Action ℓ κ α β}
  {tr tr' : List (LTS.Transition (State σ κ α β) (Action ℓ κ α β))} {client : κ} {request : α}
  {reply : β} {u : LTS.Transition σ ℓ} {s : σ}

theorem served_append : served (tr ++ tr') = served tr ++ served tr' := List.filterMap_append

theorem Sent.append (h : Sent tr client request) : Sent (tr ++ tr') client request := by
  obtain ⟨t, ht, hlabel⟩ := h
  exact ⟨t, List.mem_append_left _ ht, hlabel⟩

/-- **The server's run**: what the network does in between is not seen by the server. -/
theorem run_served (h : LTS.Run (Step srv) net tr net') :
    LTS.Run srv.step net.server (served tr) net'.server := by
  induction h with
  | refl => exact .refl
  | snoc _ hst ih =>
      rw [served_append]
      cases hst with
      | send client request =>
          change LTS.Run srv.step net.server (served _ ++ []) _
          rwa [List.append_nil]
      | serve client request l s' _ _ hstep => exact ih.snoc hstep
      | idle l s' _ hstep => exact ih.snoc hstep
      | receive client reply _ =>
          change LTS.Run srv.step net.server (served _ ++ []) _
          rwa [List.append_nil]

/-! ## What is in the network

What a step takes from the network was there, and what is there was put there by a step. -/

theorem Step.mem_requests (h : Step srv net a net') (hmem : (client, request) ∈ net'.requests) :
    (client, request) ∈ net.requests ∨ a = .send client request := by
  cases h with
  | send client' request' =>
      rcases List.mem_append.1 hmem with hmem | hmem
      · exact .inl hmem
      · obtain ⟨rfl, rfl⟩ := Prod.mk.inj (List.mem_singleton.1 hmem)
        exact .inr rfl
  | serve _ _ _ _ _ _ _ => exact .inl hmem
  | idle _ _ _ _ => exact .inl hmem
  | receive _ _ _ => exact .inl hmem

theorem Step.mem_replies (h : Step srv net a net') (hmem : (client, reply) ∈ net'.replies) :
    (client, reply) ∈ net.replies ∨
      ∃ request l, a = .serve client request l ∧ reply ∈ srv.sends l := by
  cases h with
  | send _ _ => exact .inl hmem
  | serve client' request l _ _ _ _ =>
      rcases List.mem_append.1 hmem with hmem | hmem
      · exact .inl hmem
      · obtain ⟨reply', hreply, heq⟩ := List.mem_map.1 hmem
        obtain ⟨rfl, rfl⟩ := Prod.mk.inj heq
        exact .inr ⟨request, l, rfl, hreply⟩
  | idle _ _ _ _ => exact .inl hmem
  | receive _ _ _ => exact .inl hmem

theorem Step.of_serve {l : ℓ} (h : Step srv net (.serve client request l) net') :
    (client, request) ∈ net.requests ∧ srv.receives l request ∧ srv.step net.server l net'.server := by
  cases h with
  | serve _ _ _ _ hsent hreceives hstep => exact ⟨hsent, hreceives, hstep⟩

theorem Step.of_receive (h : Step srv net (.receive client reply) net') :
    (client, reply) ∈ net.replies := by
  cases h with
  | receive _ _ hsent => exact hsent

theorem mem_requests_of_run (h : LTS.Run (Step srv) net tr net')
    (hmem : (client, request) ∈ net'.requests) :
    (client, request) ∈ net.requests ∨ Sent tr client request := by
  induction h with
  | refl => exact .inl hmem
  | snoc _ hst ih =>
      rcases hst.mem_requests hmem with hmem | rfl
      · exact (ih hmem).imp_right Sent.append
      · exact .inr ⟨_, List.mem_append_right _ List.mem_cons_self, rfl⟩

theorem mem_replies_of_run (h : LTS.Run (Step srv) net tr net')
    (hmem : (client, reply) ∈ net'.replies) :
    (client, reply) ∈ net.replies ∨
      ∃ t ∈ tr, ∃ request l, t.label = .serve client request l ∧ reply ∈ srv.sends l := by
  induction h with
  | refl => exact .inl hmem
  | snoc _ hst ih =>
      rcases hst.mem_replies hmem with hmem | ⟨request, l, rfl, hreply⟩
      · rcases ih hmem with hold | ⟨t, ht, hserve⟩
        · exact .inl hold
        · exact .inr ⟨t, List.mem_append_left _ ht, hserve⟩
      · exact .inr ⟨_, List.mem_append_right _ List.mem_cons_self, request, l, rfl, hreply⟩

/-! ## Calls

A client that uses an address for the first time receives only replies to what it has sent itself, so
the server has taken a step for it in the meantime. -/

theorem not_mem_requests_of_new (h : LTS.Run (Step srv) (State.start s) tr net)
    (hnew : ∀ request, ¬ Sent tr client request) : (client, request) ∉ net.requests := by
  intro hmem
  rcases mem_requests_of_run h hmem with hmem | hsent
  · exact absurd hmem List.not_mem_nil
  · exact hnew request hsent

theorem not_mem_replies_of_new (h : LTS.Run (Step srv) (State.start s) tr net)
    (hnew : ∀ request, ¬ Sent tr client request) : (client, reply) ∉ net.replies := by
  intro hmem
  rcases mem_replies_of_run h hmem with hmem | ⟨t, ht, request, l, hserve, -⟩
  · exact absurd hmem List.not_mem_nil
  · obtain ⟨before, after, rfl⟩ := List.append_of_mem ht
    obtain ⟨mid, hbefore, hafter⟩ := h.split
    obtain ⟨rfl, hstep, -⟩ := hafter.uncons
    rw [hserve] at hstep
    exact not_mem_requests_of_new hbefore (fun request hsent => hnew request hsent.append)
      hstep.of_serve.1

/-- **A call takes effect while it lasts.** What a client receives at an address it had not used
    before was sent by a step of the server that handled a request of the client, after the client
    had sent it. -/
theorem call_served {before during : List (LTS.Transition (State σ κ α β) (Action ℓ κ α β))}
    (h : LTS.Run (Step srv) (State.start s) (before ++ during) net)
    (hnew : ∀ request, ¬ Sent before client request) (hreceived : Received during client reply) :
    ∃ sent t received request l, during = sent ++ t :: received ∧
      t.label = .serve client request l ∧ srv.step t.pre.server l t.post.server ∧
      srv.receives l request ∧ reply ∈ srv.sends l ∧ Sent sent client request ∧
      Received received client reply := by
  obtain ⟨mid, hbefore, hduring⟩ := h.split
  obtain ⟨r, hr, hreceive⟩ := hreceived
  obtain ⟨served, after, rfl⟩ := List.append_of_mem hr
  obtain ⟨mid', hserved, hafter⟩ := hduring.split
  obtain ⟨rfl, hstep, -⟩ := hafter.uncons
  rw [hreceive] at hstep
  rcases mem_replies_of_run hserved hstep.of_receive with hold | ⟨t, ht, request, l, hserve, hreply⟩
  · exact absurd hold (not_mem_replies_of_new hbefore hnew)
  · obtain ⟨sent, rest, rfl⟩ := List.append_of_mem ht
    obtain ⟨mid'', hsent, hrest⟩ := hserved.split
    obtain ⟨rfl, hst, -⟩ := hrest.uncons
    rw [hserve] at hst
    obtain ⟨hmem, hreceives, hst⟩ := hst.of_serve
    refine ⟨sent, t, rest ++ r :: after, request, l, ?_, hserve, hst, hreceives, hreply, ?_, ?_⟩
    · rw [List.append_assoc, List.cons_append]
    · exact (mem_requests_of_run hsent hmem).resolve_left (not_mem_requests_of_new hbefore hnew)
    · exact ⟨r, List.mem_append_right _ List.mem_cons_self, hreceive⟩

/-- Every reply that a client receives was sent for a request of that client. -/
theorem repliedTo_of_received (h : LTS.Run (Step srv) (State.start s) tr net)
    (hreply : Received tr client reply) : ∃ u, RepliedTo srv tr client reply u := by
  have hnone : ∀ request, ¬ Sent ([] : List (LTS.Transition (State σ κ α β) (Action ℓ κ α β)))
      client request := fun _ ⟨_, ht, _⟩ => absurd ht List.not_mem_nil
  have hrun : LTS.Run (Step srv) (State.start s) ([] ++ tr) net := h
  obtain ⟨sent, t, received, request, l, rfl, hserve, -, hreceives, hreply, hsent, -⟩ :=
    call_served hrun hnone hreply
  refine ⟨⟨t.pre.server, l, t.post.server⟩, ?_, request, hsent.append, hreceives, hreply⟩
  rw [served_append]
  exact List.mem_append_right _ (List.mem_filterMap.2 ⟨t, List.mem_cons_self, by
    rw [serverTransition, hserve]⟩)

end Rules

end Network
