import LiteChat.Proofs.Client.Numbers
import LiteChat.Proofs.Client.Unheld

/-!
# What a step sends

Requests to endpoints are sent by calls, and calls are under way in errands and in outboxes
(`Errand.exchange?`, `Outbox.exchange?`).  Every action sends at most one request, which is that
of the call that it moves (`Engine.sends`), and nothing else is added to the requests that were
sent (`Engine.requests_step`).  A call goes on by its own steps, and where another one comes from
is known: an errand begins it (`Engine.exchange?_stepErrand`), or an outbox does, for a chat
message (`Engine.exchange?_of_mem_step`).
-/

namespace LiteChat

/-! ## Requests -/

/-- A request as it is recorded. -/
def Request.entry (r : Request) : String × Json := (r.endpoint.path, r.body)

namespace Transport

theorem requests_request (t : Transport) (path : String) (body : Json) :
    (t.request path body).1.requests = t.requests ++ [(path, body)] := by
  simp [requests, request, exchange]

theorem requests_upload (t : Transport) (url contentType : String) (data : ByteArray) :
    (t.upload url contentType data).1.requests = t.requests := by
  simp [requests, upload, exchange]

theorem requests_sendMaps (t : Transport) (maps : List ChannelMap) :
    (t.sendMaps maps).requests = t.requests := by
  simp [requests, sendMaps]

theorem mem_requestsTo_iff {t : Transport} {path : String} {body : Json} :
    body ∈ t.requestsTo path ↔ (path, body) ∈ t.requests := by
  simp [requestsTo]

end Transport

theorem Endpoint.path_injective : Function.Injective Endpoint.path := by
  have hdistinct : (Endpoint.all.map Endpoint.path).Nodup := by decide +kernel
  have hall : ∀ e : Endpoint, e ∈ Endpoint.all := fun e => by cases e <;> decide
  exact fun e e' h => List.inj_on_of_nodup_map hdistinct (hall e) (hall e') h

/-! ## Calls under way -/

/-- The request that a call sends in its next step. -/
def Exchange.request? : Exchange → Option Request
  | .send request => some request
  | _ => none

/-- The call that a claim is at. -/
def Claim.exchange? : Claim → Option Exchange
  | .lookUp x => some x
  | .announce x => some x
  | _ => none

/-- The call that an errand is at. -/
def Errand.exchange? : Errand → Option Exchange
  | .exchange x => some x
  | .claim c => c.exchange?
  | _ => none

/-- The call that an outbox is at. -/
def Outbox.exchange? (o : Outbox) : Option Exchange := o.current.map Prod.snd

section Steps
variable (c : Client) (isHeld : Bool)

theorem Exchange.requests_step (x : Exchange) :
    (x.step c).1.transport.requests =
      c.transport.requests ++ x.request?.toList.map Request.entry := by
  cases x with
  | send request => exact c.transport.requests_request request.endpoint.path request.body
  | identify isActive timeout =>
    rw [step]
    split <;> exact (List.append_nil _).symm
  | _ => exact (List.append_nil _).symm

theorem Exchange.request?_of_outcome? {x : Exchange} {outcome : Except ClientError Message}
    (h : x.outcome? = some outcome) : x.request? = none := by
  cases x with
  | done outcome => rfl
  | _ => cases h

theorem Claim.requests_step (x : Claim) :
    (x.step c).1.transport.requests =
      c.transport.requests ++ (x.exchange?.bind Exchange.request?).toList.map Request.entry := by
  cases x with
  | decide =>
    rw [step]
    dsimp only
    split <;> exact (List.append_nil _).symm
  | lookUp e =>
    rw [step, exchange?, Option.bind_some]
    split
    · rename_i outcome houtcome
      rw [Exchange.request?_of_outcome? houtcome]
      exact (List.append_nil _).symm
    · exact e.requests_step c
  | announce e =>
    rw [step, exchange?, Option.bind_some]
    split
    · rename_i outcome houtcome
      rw [Exchange.request?_of_outcome? houtcome]
      exact (List.append_nil _).symm
    · exact e.requests_step c
  | _ => exact (List.append_nil _).symm

theorem Upload.requests_step (x : Upload) :
    (x.step c).1.transport.requests = c.transport.requests := by
  cases x with
  | announce data filename => exact Transport.requests_upload ..
  | put data url => exact Transport.requests_upload ..
  | readAddress data url reply =>
    rw [step]
    split <;> rfl
  | _ => rfl

theorem Outbox.requests_step (o : Outbox) :
    (o.step c isHeld).client.transport.requests =
      c.transport.requests ++ (o.exchange?.bind Exchange.request?).toList.map Request.entry := by
  unfold step exchange?
  split
  · rename_i job x hcurrent
    have hstep := x.requests_step c
    rw [hcurrent, Option.map_some, Option.bind_some]
    dsimp only
    split <;> exact hstep
  · rename_i hcurrent
    rw [hcurrent, Option.map_none, Option.bind_none]
    split
    · split <;> exact (List.append_nil _).symm
    · split <;> exact (List.append_nil _).symm

/-- An outbox goes on with its call, or begins with a chat message. -/
theorem Outbox.exchange?_step {o o' : Outbox} (h : (o.step c isHeld).outbox = some o')
    {x' : Exchange} (hx : o'.exchange? = some x') :
    (∃ x, o.exchange? = some x ∧ x' = (x.step c).2) ∨
      ∃ call, x' = .build call ∧ call.endpoint = .sendChatMessage := by
  unfold step at h
  split at h
  · rename_i job x hcurrent
    dsimp only at h
    split at h
    · cases h
      cases hx
    · cases h
      cases hx
      exact Or.inl ⟨x, by rw [exchange?, hcurrent, Option.map_some], rfl⟩
  · rename_i hcurrent
    have hnone : o.exchange? = none := by rw [exchange?, hcurrent, Option.map_none]
    split at h
    · split at h
      · cases h
        cases hx
        exact Or.inr ⟨_, rfl, rfl⟩
      · cases h
        have hsame : o.exchange? = some x' := hx
        rw [hnone] at hsame
        cases hsame
    · split at h
      · cases h
        rw [hnone] at hx
        cases hx
      · cases h

theorem Listener.requests_step (l : Listener) :
    (l.step c isHeld).1.transport.requests = c.transport.requests := by
  rcases l.transport_step c isHeld with ⟨feed, hstep, -⟩ | ⟨maps, hstep⟩
  · rw [hstep]
    rfl
  · rw [hstep, Transport.requests_sendMaps]

end Steps

/-! ## Engines -/

namespace Engine

variable {e : Engine} {a : Action}

/-- The request that is sent in an action. -/
def sends (e : Engine) : Action → Option Request
  | .move (.errand n) =>
    ((Keyed.get? n e.errands).bind Errand.exchange?).bind Exchange.request?
  | .move (.outbox n) =>
    ((Keyed.get? n e.outboxes).bind Outbox.exchange?).bind Exchange.request?
  | _ => none

/-- What time it is makes no difference. -/
theorem rest_withClock (e : Engine) (clock : Clock) :
    (e.withClient { e.client with clock := clock }).client.transport.requests =
        e.client.transport.requests ∧
      (e.withClient { e.client with clock := clock }).outboxes = e.outboxes := ⟨rfl, rfl⟩

theorem requests_dropListener (e : Engine) :
    e.dropListener.client.transport.requests = e.client.transport.requests := by
  unfold dropListener
  split <;> rfl

theorem requests_stepErrand (e : Engine) (t : Errand) :
    (e.stepErrand t).1.client.transport.requests =
      e.client.transport.requests ++
        (t.exchange?.bind Exchange.request?).toList.map Request.entry := by
  cases t with
  | exchange x => exact x.requests_step e.client
  | claim x => exact x.requests_step e.client
  | upload x => exact (x.requests_step e.client).trans (List.append_nil _).symm
  | connect x =>
    refine Eq.trans ?_ (List.append_nil _).symm
    cases x with
    | listen =>
      rw [stepErrand, stepConnection, Transport.listen]
      cases e.client.transport.refusal <;> rfl
    | install r => exact e.requests_dropListener
    | _ => rfl

/-- What was sent grows by the request of the call that moves, if it sends one. -/
theorem requests_step (e : Engine) (a : Action) :
    (e.step a).client.transport.requests =
      e.client.transport.requests ++ (e.sends a).toList.map Request.entry := by
  cases a with
  | move m =>
    cases m with
    | listener =>
      refine Eq.trans ?_ (List.append_nil _).symm
      rw [step, move]
      split
      · rename_i l _
        exact l.requests_step e.client e.isHeld
      · rfl
    | outbox n =>
      rw [step, move, sends]
      cases ho : Keyed.get? n e.outboxes with
      | none => exact (List.append_nil _).symm
      | some o =>
        rw [Option.bind_some]
        dsimp only
        rw [(e.moveOutbox_rest n o).1]
        exact o.requests_step e.client e.isHeld
    | errand n =>
      rw [step, move, sends]
      cases ht : Keyed.get? n e.errands with
      | none => exact (List.append_nil _).symm
      | some t =>
        rw [Option.bind_some]
        exact e.requests_stepErrand t
  | post c message requestId =>
    have hclient := (e.post_rest c message requestId).1
    exact (congrArg (fun c => c.transport.requests) hclient).trans (List.append_nil _).symm
  | wait span => exact (e.rest_withClock _).1.trans (List.append_nil _).symm
  | disconnect => exact e.requests_dropListener.trans (List.append_nil _).symm
  | stop =>
    have hclient := congrArg (fun c => c.transport.requests) e.stop_client
    exact (hclient.trans e.requests_dropListener).trans (List.append_nil _).symm
  | _ => exact (List.append_nil _).symm

/-! ## What becomes of calls -/

/-- An errand goes on with its call, or begins one or another, which has neither an identity nor a
body yet. -/
theorem exchange?_stepErrand (e : Engine) {t : Errand} {x' : Exchange}
    (h : (e.stepErrand t).2.exchange? = some x') :
    (∃ x, t.exchange? = some x ∧ x' = (x.step e.client).2) ∨
      (∃ isActive timeout, x' = .identify isActive timeout) ∨ x' = .build .getSelfInfo := by
  cases t with
  | exchange x =>
    cases h
    exact Or.inl ⟨x, rfl, rfl⟩
  | connect x => cases h
  | upload x => cases h
  | claim x =>
    have hclaim : (x.step e.client).2.exchange? = some x' := h
    cases x with
    | decide =>
      rw [Claim.step] at hclaim
      dsimp only at hclaim
      split at hclaim
      · cases hclaim
      · cases hclaim
      · cases hclaim
        exact Or.inr (Or.inr rfl)
      · cases hclaim
        exact Or.inr (Or.inl ⟨_, _, rfl⟩)
    | lookUp y =>
      rw [Claim.step] at hclaim
      split at hclaim
      · rename_i reply _
        dsimp only at hclaim
        rw [Claim.afterLookUp] at hclaim
        split at hclaim
        · cases hclaim
          exact Or.inr (Or.inl ⟨_, _, rfl⟩)
        · split at hclaim
          · cases hclaim
          · cases hclaim
            exact Or.inr (Or.inl ⟨_, _, rfl⟩)
      · cases hclaim
        exact Or.inl ⟨y, rfl, rfl⟩
    | store email =>
      cases hclaim
      exact Or.inr (Or.inl ⟨_, _, rfl⟩)
    | announce y =>
      rw [Claim.step] at hclaim
      split at hclaim
      · cases hclaim
      · cases hclaim
        exact Or.inl ⟨y, rfl, rfl⟩
    | done outcome => cases hclaim

theorem outboxes_stepErrand (e : Engine) (t : Errand) :
    (e.stepErrand t).1.outboxes = e.outboxes := by
  cases t with
  | connect x => exact (e.aside_stepConnection x).desk.outboxes_eq
  | _ => rfl

/-- Posting a message changes no call. -/
theorem exchange?_of_mem_post {c : String} {message : OutgoingMessage} {requestId : Nat}
    {p : Nat × Outbox} (hp : p ∈ (e.post c message requestId).outboxes) {x : Exchange}
    (hx : p.2.exchange? = some x) : ∃ q ∈ e.outboxes, q.2.exchange? = some x := by
  cases hbox : e.outboxOf? c with
  | none =>
    rw [(post_of_none hbox).outboxes_eq] at hp
    rcases Keyed.mem_of_mem_insert hp with rfl | hp
    · cases hx
    · exact ⟨p, hp, hx⟩
  | some found =>
    obtain ⟨n, o⟩ := found
    rw [(post_of_some hbox).outboxes_eq] at hp
    rcases Keyed.mem_of_mem_insert hp with rfl | hp
    · obtain ⟨k, -, hk⟩ := Option.bind_eq_some_iff.mp hbox
      obtain ⟨o', ho', hfound⟩ := Option.map_eq_some_iff.mp hk
      cases hfound
      exact ⟨_, Keyed.mem_of_get?_eq_some ho', hx⟩
    · exact ⟨p, hp, hx⟩

/-- Closing the outboxes changes no call. -/
theorem exchange?_of_mem_closeOutboxes {p : Nat × Outbox} (hp : p ∈ e.closeOutboxes.outboxes)
    {x : Exchange} (hx : p.2.exchange? = some x) : ∃ q ∈ e.outboxes, q.2.exchange? = some x := by
  obtain ⟨q, hq, rfl⟩ := List.mem_map.mp hp
  exact ⟨q, hq, hx⟩

/-- An outbox goes on with its call, or begins with a chat message. -/
theorem exchange?_of_mem_step {p : Nat × Outbox} (hp : p ∈ (e.step a).outboxes) {x' : Exchange}
    (hx : p.2.exchange? = some x') :
    (∃ q ∈ e.outboxes, q.2.exchange? = some x') ∨
      (∃ q ∈ e.outboxes, ∃ x, q.2.exchange? = some x ∧ x' = (x.step e.client).2) ∨
      ∃ call, x' = .build call ∧ call.endpoint = .sendChatMessage := by
  cases a with
  | post c message requestId => exact Or.inl (exchange?_of_mem_post hp hx)
  | release => exact Or.inl (exchange?_of_mem_closeOutboxes hp hx)
  | wait span =>
    have houtboxes : (e.step (.wait span)).outboxes = e.outboxes := (e.rest_withClock _).2
    rw [houtboxes] at hp
    exact Or.inl ⟨p, hp, hx⟩
  | disconnect =>
    obtain ⟨q, hq, hqx⟩ := exchange?_of_mem_closeOutboxes hp hx
    rw [e.aside_dropListener.desk.outboxes_eq] at hq
    exact Or.inl ⟨q, hq, hqx⟩
  | stop =>
    obtain ⟨postings, hstop⟩ := e.stop_eq
    rw [step, hstop] at hp
    cases hp
  | move m =>
    cases m with
    | listener =>
      rw [step, move] at hp
      split at hp
      · exact Or.inl ⟨p, hp, hx⟩
      · exact Or.inl ⟨p, hp, hx⟩
    | errand n =>
      rw [step, move] at hp
      split at hp
      · rename_i t _
        have hp' : p ∈ (e.stepErrand t).1.outboxes := hp
        rw [e.outboxes_stepErrand t] at hp'
        exact Or.inl ⟨p, hp', hx⟩
      · exact Or.inl ⟨p, hp, hx⟩
    | outbox n =>
      rw [step, move] at hp
      split at hp
      · rename_i o ho
        rcases mem_moveOutbox hp with ⟨o', hnext, -, rfl⟩ | hp
        · rcases Outbox.exchange?_step e.client e.isHeld hnext hx with ⟨x, hox, hx'⟩ | hbegun
          · exact Or.inr (Or.inl ⟨(n, o), Keyed.mem_of_get?_eq_some ho, x, hox, hx'⟩)
          · exact Or.inr (Or.inr hbegun)
        · exact Or.inl ⟨p, hp, hx⟩
      · exact Or.inl ⟨p, hp, hx⟩
  | _ => exact Or.inl ⟨p, hp, hx⟩

end Engine

end LiteChat
