import LiteChat.Proofs.Client.Ledger

/-!
# The order of chat messages

What a run does with the chat messages that are posted in it, as far as the service and the
callers can see it (`Engine.Orderly`).  All of it is read off the ledger of the run: the
requests for a conversation are those of the first messages posted to it, one for one and
in order, and every receipt tells what became of its own message.
-/

namespace LiteChat

/-- The conversation in the body of a request for a chat message. -/
def Json.chatConversation? : Json → Option String
  | .array elements =>
    match elements[7]? with
    | some (Json.array (Json.array [Json.string c] :: _)) => some c
    | _ => none
  | _ => none

theorem Job.chatConversation?_body (job : Job) (c : String) (config : ClientConfig)
    (id : Option String) : ((job.call c).request config id).body.chatConversation? = some c :=
  rfl

/-- If every request says for which conversation it is, then the requests for one conversation
are found by what they say. -/
theorem Chronicle.filter_requests {ch : Chronicle} (f : Request → Option String)
    (hall : ∀ p ∈ ch, ∀ r, p.2.request? = some r → f r = some p.1) (c : String) :
    ch.requests.filter (fun r => decide (f r = some c)) =
      (ch.eventsOf c).filterMap OutboxEvent.request? := by
  induction ch with
  | nil => rfl
  | cons p rest ih =>
    have hrest := ih fun q hq => hall q (List.mem_cons_of_mem _ hq)
    rw [requests, eventsOf] at hrest ⊢
    rw [List.filterMap_cons, List.filter_cons]
    cases hr : p.2.request? with
    | none => by_cases hc : p.1 = c <;> simp [hc, hr, hrest]
    | some r =>
      have hhead := hall p List.mem_cons_self r hr
      by_cases hc : p.1 = c <;> simp [hc, hr, hhead, hrest]

namespace Engine

/-- The bodies of the requests for chat messages to a conversation, in the order in which they
were sent. -/
def sentTo (e : Engine) (c : String) : List Json :=
  e.client.transport.chatBodies.filter fun body => decide (body.chatConversation? = some c)

/-! ## What the ledger says -/

section Ledger
variable {config : ClientConfig} {e : Engine} {ch : Chronicle} {posted : List Posting}

theorem Ledger.chatConversation?_of_mem (h : Ledger config e ch posted) {c : String}
    {event : OutboxEvent} (hevent : (c, event) ∈ ch) {r : Request} (hr : event.request? = some r) :
    r.body.chatConversation? = some c := by
  obtain ⟨t, ht⟩ := h.turns c
  cases event with
  | sent job request reply =>
    cases hr
    obtain ⟨-, id, rfl⟩ := ht.sent_cases (Chronicle.mem_eventsOf.mpr hevent)
    exact job.chatConversation?_body c config id
  | _ => cases hr

/-- If the requests in the log are those of the outboxes, and each says for which conversation it
is, then the ones for a conversation are those that its outboxes have sent. -/
theorem sentTo_eq (hbodies : e.client.transport.chatBodies = ch.requests.map Request.body)
    (haddressed : ∀ p ∈ ch, ∀ r, p.2.request? = some r → r.body.chatConversation? = some p.1)
    (c : String) :
    e.sentTo c = ((ch.eventsOf c).filterMap OutboxEvent.request?).map Request.body := by
  rw [sentTo, hbodies, List.filter_map, ← Chronicle.filter_requests _ haddressed c]
  rfl

/-- The requests for a conversation are those that its outbox has sent. -/
theorem Ledger.sentTo_eq (h : Ledger config e ch posted) (c : String) :
    e.sentTo c = ((ch.eventsOf c).filterMap OutboxEvent.request?).map Request.body :=
  Engine.sentTo_eq h.bodies (fun _ hp _ hr => h.chatConversation?_of_mem hp hr) c

/-- The requests for a conversation are those of the first messages posted to it. -/
theorem Ledger.recorded (h : Ledger config e ch posted) (c : String) :
    List.Forall₂ (fun body job => ∃ id, body = ((Job.call job c).request config id).body)
      (e.sentTo c) ((Posting.jobsTo c posted).take (e.sentTo c).length) := by
  obtain ⟨t, ht⟩ := h.turns c
  rw [h.sentTo_eq, List.length_map, List.forall₂_map_left_iff]
  refine ht.sent.imp ?_
  rintro r job ⟨id, rfl⟩
  exact ⟨id, rfl⟩

/-- A message is known by its ticket. -/
theorem Ledger.job_eq (h : Ledger config e ch posted) {i : Nat} {p : Posting}
    (hp : e.postings[i]? = some p) {c : String} {job : Job} (hjob : job ∈ Posting.jobsTo c posted)
    (hticket : job.ticket = i) : c = p.conversation ∧ job = ⟨i, p.message, p.requestId⟩ := by
  obtain ⟨q, hq, hconversation, hmessage, hrequestId⟩ := Posting.mem_jobsTo_iff.mp hjob
  have hblank : posted[i]? = some p.blank := by
    rw [← h.postings_eq, List.getElem?_map, hp, Option.map_some]
  rw [hticket, hblank] at hq
  cases hq
  obtain ⟨ticket, message, requestId⟩ := job
  dsimp only at hticket hmessage hrequestId
  subst hticket hmessage hrequestId
  exact ⟨hconversation.symm, rfl⟩

/-- What an event settles is the outcome for good. -/
theorem Ledger.outcomeOf?_eq (h : Ledger config e ch posted) {c : String} {event : OutboxEvent}
    (hevent : (c, event) ∈ ch) {ticket : Nat} {outcome : Except ClientError Message}
    (hsettled : event.settled? c = some (ticket, outcome)) :
    ch.outcomeOf? ticket = some outcome := by
  cases houtcome : ch.outcomeOf? ticket with
  | none =>
    have hnone := List.findSome?_eq_none_iff.mp houtcome _ hevent
    rw [hsettled, Option.bind_some, if_pos rfl] at hnone
    cases hnone
  | some outcome' =>
    obtain ⟨c', event', hevent', hsettled'⟩ := Chronicle.exists_of_outcomeOf? houtcome
    -- both events are of the conversation that the message was posted to
    obtain ⟨job, hjob, hticket⟩ := h.exists_job hevent hsettled
    obtain ⟨job', hjob', hticket'⟩ := h.exists_job hevent' hsettled'
    obtain ⟨q, hq, hc, -⟩ := Posting.mem_jobsTo_iff.mp hjob
    obtain ⟨q', hq', hc', -⟩ := Posting.mem_jobsTo_iff.mp hjob'
    rw [hticket] at hq
    rw [hticket', hq] at hq'
    cases hq'
    obtain rfl : c' = c := hc'.symm.trans hc
    obtain ⟨t, ht⟩ := h.turns c'
    rw [ht.settled_unique (Posting.nodup_jobsTo c' posted) (Chronicle.mem_eventsOf.mpr hevent)
      (Chronicle.mem_eventsOf.mpr hevent') hsettled hsettled']

/-- A receipt tells what the service has answered to its message, or that the message was not
sent. -/
theorem Ledger.receipt (h : Ledger config e ch posted) {i : Nat} {p : Posting}
    (hp : e.postings[i]? = some p) {outcome : Except ClientError Message}
    (hreceipt : p.receipt = .settled outcome) :
    (∃ id reply, (p.conversation, .sent ⟨i, p.message, p.requestId⟩
          ((Job.call ⟨i, p.message, p.requestId⟩ p.conversation).request config id) reply) ∈ ch ∧
        outcome = Endpoint.sendChatMessage.readReply reply) ∨
      (outcome = .error (.outboxClosed p.conversation) ∧
        ∀ request reply, (p.conversation, .sent ⟨i, p.message, p.requestId⟩ request reply) ∉ ch) := by
  have houtcome : ch.outcomeOf? i = some outcome := by
    rw [← Chronicle.receiptOf_eq_settled_iff, ← hreceipt]
    exact h.informed.receiptOf_eq hp (by simp [hreceipt])
  obtain ⟨c, event, hevent, hsettled⟩ := Chronicle.exists_of_outcomeOf? houtcome
  obtain ⟨t, ht⟩ := h.turns c
  have hjobs := ht.jobs_eq
  rcases ht.settled (Chronicle.mem_eventsOf.mpr hevent) hsettled with
    ⟨d, hd, hticket, rfl⟩ | ⟨job, hjob, hticket, rfl⟩
  · have hmem : d.job ∈ Posting.jobsTo c posted := by
      rw [hjobs]
      simp [List.mem_map_of_mem hd]
    obtain ⟨rfl, hd'⟩ := h.job_eq hp hmem hticket
    obtain ⟨id, hrequest⟩ := ht.requests d hd
    refine Or.inl ⟨id, d.reply, ?_, rfl⟩
    rw [← hd', ← hrequest]
    exact Chronicle.mem_eventsOf.mp (ht.sent_of_delivery hd).1
  · have hmem : job ∈ Posting.jobsTo c posted := by
      rw [hjobs]
      simp [hjob]
    obtain ⟨rfl, rfl⟩ := h.job_eq hp hmem hticket
    refine Or.inr ⟨rfl, fun request reply hsent => ?_⟩
    obtain ⟨hturn, -⟩ := ht.sent_cases (Chronicle.mem_eventsOf.mpr hsent)
    exact (ht.nodup (Posting.nodup_jobsTo _ posted)).2 _ hturn _ hjob rfl

/-- A message of which nothing has come is still in the outbox of its conversation. -/
theorem Ledger.waiting (h : Ledger config e ch posted) {i : Nat} {p : Posting}
    (hp : e.postings[i]? = some p) (hreceipt : p.receipt = .waiting) :
    ∃ n o, (n, o) ∈ e.outboxes ∧ o.conversation = p.conversation ∧
      ⟨i, p.message, p.requestId⟩ ∈ (o.current.map Prod.fst).toList ++ o.queue := by
  have houtcome : ch.outcomeOf? i = none := by
    rw [← Chronicle.receiptOf_eq_waiting_iff, ← hreceipt]
    exact h.informed.receiptOf_eq hp (by simp [hreceipt])
  have hmem : ⟨i, p.message, p.requestId⟩ ∈ Posting.jobsTo p.conversation posted := by
    refine Posting.mem_jobsTo_iff.mpr ⟨p.blank, ?_, rfl, rfl, rfl⟩
    rw [← h.postings_eq, List.getElem?_map, hp, Option.map_some]
  obtain ⟨t, ht⟩ := h.turns p.conversation
  rw [ht.jobs_eq, List.mem_append, List.mem_append, List.mem_append] at hmem
  -- a message that is over has an outcome
  have hunsettled : ∀ event ∈ ch.eventsOf p.conversation, ∀ outcome,
      event.settled? p.conversation ≠ some (i, outcome) := by
    intro event hevent outcome hsettled
    rw [h.outcomeOf?_eq (Chronicle.mem_eventsOf.mp hevent) hsettled] at houtcome
    cases houtcome
  have hlane : ⟨i, p.message, p.requestId⟩ ∈
      ((e.lane p.conversation).current.map Prod.fst).toList ++ (e.lane p.conversation).queue := by
    rcases hmem with ((hdone | hcurrent) | hrefused) | hqueue
    · obtain ⟨d, hd, hjob⟩ := List.mem_map.mp hdone
      have hanswered := (ht.sent_of_delivery hd).2
      rw [hjob] at hanswered
      exact absurd rfl (hunsettled _ hanswered _)
    · exact List.mem_append_left _ hcurrent
    · exact absurd rfl (hunsettled _ (ht.refused_of_refusal hrefused) _)
    · exact List.mem_append_right _ hqueue
  rcases e.lane_cases p.conversation with hempty | ⟨n, o, ho, hc, heq⟩
  · rw [hempty] at hlane
    cases hlane
  · rw [heq] at hlane
    exact ⟨n, o, ho, hc, hlane⟩

/-- The receipt of a message that was refused says so. -/
theorem Ledger.refused (h : Ledger config e ch posted) {c : String} {job : Job}
    (hrefused : (c, .refused job) ∈ ch) :
    ∃ p, e.postings[job.ticket]? = some p ∧
      (p.receipt = .dropped ∨ p.receipt = .settled (.error (.outboxClosed c))) := by
  obtain ⟨job', hjob', hticket⟩ := h.exists_job hrefused rfl
  obtain ⟨q, hq, -⟩ := Posting.mem_jobsTo_iff.mp hjob'
  rw [hticket, ← h.postings_eq, List.getElem?_map] at hq
  obtain ⟨p, hp, -⟩ := Option.map_eq_some_iff.mp hq
  refine ⟨p, hp, (h.informed _ p hp).imp_right fun hreceipt => hreceipt.trans ?_⟩
  exact Chronicle.receiptOf_eq_settled_iff.mpr (h.outcomeOf?_eq hrefused rfl)

end Ledger

/-! ## What a run comes to -/

/-- What can be said of the chat messages of a run.  The events of its outboxes are those of
its chronicle. -/
structure Orderly (config : ClientConfig) (clock : Clock) (actions : List Action) (e : Engine) :
    Prop where
  /-- The requests in the log are those that the outboxes have sent. -/
  logged : e.client.transport.chatBodies =
    ((Engine.new config clock).chronicle actions).requests.map Request.body
  /-- Every request says for which conversation it is. -/
  addressed : ∀ body ∈ e.client.transport.chatBodies, ∃ c, body.chatConversation? = some c
  /-- The requests for a conversation are those of the first messages posted to it, each of them
  once and in order. -/
  recorded : ∀ c, List.Forall₂
    (fun body job => ∃ id, body = ((Job.call job c).request config id).body)
    (e.sentTo c) ((Posting.jobsTo c (Action.posted actions)).take (e.sentTo c).length)
  /-- A conversation has one outbox at most, and so one message in hand at most. -/
  apart : ∀ p ∈ e.outboxes, ∀ q ∈ e.outboxes, p.2.conversation = q.2.conversation → p = q
  /-- The outbox of a conversation takes its messages in turn: it begins with the next one after
  it has read the reply to the one before. -/
  in_turn : ∀ c, ∃ t : Turns, t.Explain config c (e.lane c)
    (((Engine.new config clock).chronicle actions).eventsOf c)
    (Posting.jobsTo c (Action.posted actions)) e.isHeld
  /-- A receipt tells what the service has answered to the request of its own message, or that
  its message was not sent. -/
  receipts : ∀ (i : Nat) (p : Posting) (outcome : Except ClientError Message),
    e.postings[i]? = some p → p.receipt = .settled outcome →
      (∃ id reply, (p.conversation, .sent ⟨i, p.message, p.requestId⟩
            ((Job.call ⟨i, p.message, p.requestId⟩ p.conversation).request config id) reply) ∈
              (Engine.new config clock).chronicle actions ∧
          outcome = Endpoint.sendChatMessage.readReply reply) ∨
        (outcome = .error (.outboxClosed p.conversation) ∧
          ∀ request reply, (p.conversation, .sent ⟨i, p.message, p.requestId⟩ request reply) ∉
            (Engine.new config clock).chronicle actions)
  /-- No message is lost: one of which nothing has come is still in an outbox. -/
  waiting : ∀ (i : Nat) (p : Posting), e.postings[i]? = some p → p.receipt = .waiting →
    ∃ n o, (n, o) ∈ e.outboxes ∧ o.conversation = p.conversation ∧
      ⟨i, p.message, p.requestId⟩ ∈ (o.current.map Prod.fst).toList ++ o.queue
  /-- The client would be the same if no receipt had been dropped. -/
  undisturbed :
    ((Engine.new config clock).run (actions.filter fun a => !a.isDrop)).client = e.client
  /-- Once nobody holds the client, neither a caller nor anything at work, nothing is sent any
  more. -/
  silent : e.isHeld = false → ∀ {actions' e'}, e.Reaches actions' e' →
    e'.client.transport.log = e.client.transport.log
  /-- Once nobody holds the client, nothing is in hand, and the message in a place of an outbox
  is refused as soon as the outbox has moved so often. -/
  refused : e.isHeld = false → ∀ n o, (n, o) ∈ e.outboxes → o.current = none ∧
    ∀ (k : Nat) (job : Job), o.queue[k]? = some job → ∀ {actions' e'}, e.Reaches actions' e' →
      k < actions'.countP (Action.movesOutbox n) →
        (o.conversation, .refused job) ∈ e.chronicle actions' ∧
          ∃ p, e'.postings[job.ticket]? = some p ∧
            (p.receipt = .dropped ∨ p.receipt = .settled (.error (.outboxClosed o.conversation)))

section Orderly
variable {config : ClientConfig} {clock : Clock} {actions : List Action} {e : Engine}

theorem Ledger.addressed {ch : Chronicle} {posted : List Posting}
    (h : Ledger config e ch posted) {body : Json} (hbody : body ∈ e.client.transport.chatBodies) :
    ∃ c, body.chatConversation? = some c := by
  rw [h.bodies] at hbody
  obtain ⟨r, hr, rfl⟩ := List.mem_map.mp hbody
  obtain ⟨⟨c, event⟩, hevent, hrequest⟩ := List.mem_filterMap.mp hr
  exact ⟨c, h.chatConversation?_of_mem hevent hrequest⟩

/-- Two letters to one conversation and one to another.  The first is on its way when the last
caller lets the client go, and the others are refused after it. -/
def letters : List Action :=
  [.post "a" (.ofText "first") 1, .post "b" (.ofText "second") 2, .dropReceipt 1,
   .post "a" (.ofText "third") 3, .move (.outbox 0), .move (.outbox 0), .move (.outbox 0),
   .release, .move (.outbox 0), .move (.outbox 1), .move (.outbox 0)]

example : (((Engine.new .standard ⟨0⟩).run letters).sentTo "a").length = 1 := by decide +kernel

end Orderly

end Engine

end LiteChat
