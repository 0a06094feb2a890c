import LiteChat.Proofs.Client.Aside
import LiteChat.Proofs.Client.Lanes

/-!
# Chat messages in turn

What happens on the lane of a conversation is a row of turns.  A turn begins with a
message, sends its request and reads the reply, and only then comes the next one; once
nobody holds the client, the messages that are left are refused one after another
(`Turns.Explain`).  Every step on a lane goes on with that row (`Turns.Explain.step`), and
posting does not touch it (`Turns.Explain.put`).
-/

namespace LiteChat

/-! ## Steps on a lane -/

/-- What a step of an outbox makes of its lane, and the event that comes with it. -/
inductive Lane.Step (c : Client) (isHeld : Bool) (conversation : String) :
    Lane → Option OutboxEvent → Lane → Prop where
  | build {job : Job} {call : Call} {queue : List Job} :
    Step c isHeld conversation ⟨some (job, .build call), queue⟩ none
      ⟨some (job, .send (c.request call)), queue⟩
  | send {job : Job} {request : Request} {queue : List Job} {reply : Reply}
    (h : reply = c.transport.nextReply request.endpoint.path) :
    Step c isHeld conversation ⟨some (job, .send request), queue⟩
      (some (.sent job request reply)) ⟨some (job, .await request.endpoint reply), queue⟩
  | answer {job : Job} {endpoint : Endpoint} {reply : Reply} {queue : List Job} :
    Step c isHeld conversation ⟨some (job, .await endpoint reply), queue⟩
      (some (.answered job (endpoint.readReply reply))) ⟨none, queue⟩
  | begin {job : Job} {rest : List Job} (h : isHeld = true) :
    Step c isHeld conversation ⟨none, job :: rest⟩ (some (.begun job))
      ⟨some (job, .build (job.call conversation)), rest⟩
  | refuse {job : Job} {rest : List Job} (h : isHeld = false) :
    Step c isHeld conversation ⟨none, job :: rest⟩ (some (.refused job)) ⟨none, rest⟩
  | rest : Step c isHeld conversation ⟨none, []⟩ none ⟨none, []⟩

/-! ## Turns -/

/-- A chat message whose reply has been read. -/
structure Delivery where
  job : Job
  request : Request
  reply : Reply

/-- The events of a turn. -/
def Delivery.events (d : Delivery) : List OutboxEvent :=
  [.begun d.job, .sent d.job d.request d.reply,
   .answered d.job (Endpoint.sendChatMessage.readReply d.reply)]

/-- The events so far of a turn that is under way, by how far its message is. -/
inductive Underway (config : ClientConfig) (c : String) :
    Option (Job × Exchange) → List OutboxEvent → Prop where
  | idle : Underway config c none []
  | building (job : Job) :
    Underway config c (some (job, .build (job.call c))) [.begun job]
  | sending (job : Job) (id : Option String) :
    Underway config c (some (job, .send ((job.call c).request config id))) [.begun job]
  | awaiting (job : Job) (id : Option String) (reply : Reply) :
    Underway config c (some (job, .await .sendChatMessage reply))
      [.begun job, .sent job ((job.call c).request config id) reply]

section Underway
variable {config : ClientConfig} {c : String} {job : Job} {events : List OutboxEvent}

theorem Underway.of_none (h : Underway config c none events) : events = [] := by
  cases h
  rfl

theorem Underway.of_build {call : Call}
    (h : Underway config c (some (job, .build call)) events) :
    events = [.begun job] ∧ call = job.call c := by
  cases h
  exact ⟨rfl, rfl⟩

theorem Underway.of_send {request : Request}
    (h : Underway config c (some (job, .send request)) events) :
    events = [.begun job] ∧ ∃ id, request = (job.call c).request config id := by
  cases h
  exact ⟨rfl, _, rfl⟩

theorem Underway.of_await {endpoint : Endpoint} {reply : Reply}
    (h : Underway config c (some (job, .await endpoint reply)) events) :
    endpoint = .sendChatMessage ∧
      ∃ id, events = [.begun job, .sent job ((job.call c).request config id) reply] := by
  cases h
  exact ⟨rfl, _, rfl⟩

end Underway

/-- The turns of a lane. -/
structure Turns where
  /-- The turns that are over. -/
  deliveries : List Delivery
  /-- The events of the turn that is under way. -/
  underway : List OutboxEvent
  /-- The messages that were refused. -/
  refusals : List Job

namespace Turns

/-- The events of turns. -/
def events (t : Turns) : List OutboxEvent :=
  t.deliveries.flatMap Delivery.events ++ t.underway ++ t.refusals.map .refused

/-- Turns are what has happened on the lane of a conversation, and they took the messages
that were posted to it one by one. -/
structure Explain (t : Turns) (config : ClientConfig) (c : String) (l : Lane)
    (events : List OutboxEvent) (jobs : List Job) (isHeld : Bool) : Prop where
  events_eq : events = t.events
  /-- Every message is over, in hand, refused or waiting, in this order. -/
  jobs_eq : jobs =
    t.deliveries.map Delivery.job ++ (l.current.map Prod.fst).toList ++ t.refusals ++ l.queue
  /-- Every request is that of its message, made with some client id. -/
  requests : ∀ d ∈ t.deliveries, ∃ id, d.request = (d.job.call c).request config id
  underway : Underway config c l.current t.underway
  /-- A message is refused only if nobody holds the client, and nothing is in hand then. -/
  refusals : t.refusals ≠ [] → isHeld = false ∧ l.current = none

variable {t : Turns} {config : ClientConfig} {c : String} {l l' : Lane}
  {events : List OutboxEvent} {jobs : List Job} {isHeld isHeld' : Bool}

theorem explain_empty (config : ClientConfig) (c : String) (isHeld : Bool) :
    Explain ⟨[], [], []⟩ config c .empty [] [] isHeld where
  events_eq := rfl
  jobs_eq := rfl
  requests := fun _ hd => absurd hd List.not_mem_nil
  underway := .idle
  refusals := fun h => absurd rfl h

/-- While a message is in hand, none has been refused. -/
theorem Explain.refusals_eq_nil (h : t.Explain config c l events jobs isHeld)
    (hl : l.current ≠ none) : t.refusals = [] :=
  Classical.byContradiction fun hne => hl (h.refusals hne).2

/-- A posted message waits behind all others. -/
theorem Explain.put (h : t.Explain config c l events jobs isHeld) (job : Job) :
    t.Explain config c (l.put job) events (jobs ++ [job]) isHeld where
  events_eq := h.events_eq
  jobs_eq := by
    rw [h.jobs_eq, List.append_assoc]
    rfl
  requests := h.requests
  underway := h.underway
  refusals := h.refusals

/-- A client that nobody holds is not taken up again. -/
theorem Explain.letGo (h : t.Explain config c l events jobs isHeld)
    (hheld : isHeld = false → isHeld' = false) :
    t.Explain config c l events jobs isHeld' where
  events_eq := h.events_eq
  jobs_eq := h.jobs_eq
  requests := h.requests
  underway := h.underway
  refusals := fun hne => ⟨hheld (h.refusals hne).1, (h.refusals hne).2⟩

/-- A step on a lane goes on with the turns. -/
theorem Explain.step (h : t.Explain config c l events jobs isHeld) {client : Client}
    (hconfig : client.config = config) {event : Option OutboxEvent}
    (hstep : Lane.Step client isHeld c l event l') :
    ∃ t' : Turns, t'.Explain config c l' (events ++ event.toList) jobs isHeld := by
  obtain ⟨deliveries, underway, refusals⟩ := t
  have hrefusals := h.refusals_eq_nil
  obtain ⟨hevents, hjobs, hrequests, hunderway, hrefused⟩ := h
  dsimp only [Turns.events] at hevents hjobs hrequests hunderway hrefused hrefusals
  -- only a read reply ends a turn; until then the events of the step join those under way
  cases hstep with
  | @build job call queue =>
    obtain ⟨rfl, rfl⟩ := hunderway.of_build
    refine ⟨⟨deliveries, [.begun job], refusals⟩, ⟨?_, hjobs, hrequests, ?_, ?_⟩⟩
    · rw [hevents]
      exact List.append_nil _
    · rw [← hconfig]
      exact .sending job client.session.clientId
    · exact fun hne => absurd (hrefusals (by simp)) hne
  | @send job request queue reply hreply =>
    have hnil := hrefusals (by simp)
    subst hnil
    obtain ⟨rfl, id, rfl⟩ := hunderway.of_send
    refine ⟨⟨deliveries, [.begun job, .sent job _ reply], []⟩,
      ⟨?_, hjobs, hrequests, .awaiting job id reply, fun hne => absurd rfl hne⟩⟩
    rw [hevents]
    simp [Turns.events]
  | @answer job endpoint reply queue =>
    have hnil := hrefusals (by simp)
    subst hnil
    obtain ⟨rfl, id, rfl⟩ := hunderway.of_await
    -- the turn is over
    refine ⟨⟨deliveries ++ [⟨job, (job.call c).request config id, reply⟩], [], []⟩,
      ⟨?_, ?_, ?_, .idle, fun hne => absurd rfl hne⟩⟩
    · rw [hevents]
      simp [Turns.events, Delivery.events]
    · rw [hjobs]
      simp
    · intro d hd
      rcases List.mem_append.mp hd with hd | hd
      · exact hrequests d hd
      · cases List.mem_singleton.mp hd
        exact ⟨id, rfl⟩
  | @begin job rest hheld =>
    -- nothing has been refused, since somebody holds the client
    have hnil : refusals = [] := Classical.byContradiction fun hne =>
      Bool.false_ne_true ((hrefused hne).1.symm.trans hheld)
    subst hnil
    cases hunderway.of_none
    refine ⟨⟨deliveries, [.begun job], []⟩,
      ⟨?_, ?_, hrequests, .building job, fun hne => absurd rfl hne⟩⟩
    · rw [hevents]
      simp [Turns.events]
    · rw [hjobs]
      simp
  | @refuse job rest hheld =>
    cases hunderway.of_none
    refine ⟨⟨deliveries, [], refusals ++ [job]⟩,
      ⟨?_, ?_, hrequests, .idle, fun _ => ⟨hheld, rfl⟩⟩⟩
    · rw [hevents]
      simp [Turns.events]
    · rw [hjobs]
      simp
  | rest =>
    refine ⟨⟨deliveries, underway, refusals⟩, ⟨?_, hjobs, hrequests, hunderway, hrefused⟩⟩
    rw [hevents]
    exact List.append_nil _

/-! ### What follows from turns -/

theorem filterMap_request?_deliveries (deliveries : List Delivery) :
    (deliveries.flatMap Delivery.events).filterMap OutboxEvent.request? =
      deliveries.map Delivery.request := by
  induction deliveries with
  | nil => rfl
  | cons d rest ih =>
    rw [List.flatMap_cons, List.filterMap_append, ih]
    rfl

theorem filterMap_request?_refusals (jobs : List Job) :
    (jobs.map OutboxEvent.refused).filterMap OutboxEvent.request? = [] := by
  induction jobs with
  | nil => rfl
  | cons job rest ih => exact ih

theorem forall₂_take {α β : Type} {r : α → β → Prop} {as : List α} {bs all : List β}
    (hall : ∃ rest, all = bs ++ rest) (h : List.Forall₂ r as bs) :
    List.Forall₂ r as (all.take as.length) := by
  obtain ⟨rest, rfl⟩ := hall
  rwa [h.length_eq, List.take_left]

/-- The requests that were sent are those of the first messages, in order. -/
theorem Explain.sent (h : t.Explain config c l events jobs isHeld) :
    List.Forall₂ (fun r job => ∃ id, r = (Job.call job c).request config id)
      (events.filterMap OutboxEvent.request?)
      (jobs.take (events.filterMap OutboxEvent.request?).length) := by
  have hdone : List.Forall₂ (fun r job => ∃ id, r = (Job.call job c).request config id)
      (t.deliveries.map Delivery.request) (t.deliveries.map Delivery.job) := by
    rw [List.forall₂_map_left_iff, List.forall₂_map_right_iff]
    exact List.forall₂_same.mpr h.requests
  have hsent : events.filterMap OutboxEvent.request? =
      t.deliveries.map Delivery.request ++ t.underway.filterMap OutboxEvent.request? := by
    rw [h.events_eq, Turns.events, List.filterMap_append, List.filterMap_append,
      filterMap_request?_deliveries, filterMap_request?_refusals, List.append_nil]
  have hjobs := h.jobs_eq
  have hunderway := h.underway
  rw [hsent]
  generalize l.current = current at hjobs hunderway
  generalize t.underway = underway at hunderway
  cases hunderway with
  | awaiting job id reply =>
    -- the message in hand has been sent
    have hlast : List.Forall₂ (fun r job => ∃ id, r = (Job.call job c).request config id)
        [(job.call c).request config id] [job] := .cons ⟨id, rfl⟩ .nil
    refine forall₂_take ⟨t.refusals ++ l.queue, ?_⟩ (List.rel_append hdone hlast)
    rw [hjobs]
    simp
  | idle =>
    refine forall₂_take ⟨t.refusals ++ l.queue, ?_⟩ (List.rel_append hdone .nil)
    rw [hjobs]
    simp
  | building job =>
    refine forall₂_take ⟨job :: (t.refusals ++ l.queue), ?_⟩ (List.rel_append hdone .nil)
    rw [hjobs]
    simp
  | sending job id =>
    refine forall₂_take ⟨job :: (t.refusals ++ l.queue), ?_⟩ (List.rel_append hdone .nil)
    rw [hjobs]
    simp

/-- An event belongs to a turn that is over, to the one that is under way, or to a refusal. -/
theorem Explain.mem_events (h : t.Explain config c l events jobs isHeld) {event : OutboxEvent}
    (hevent : event ∈ events) :
    (∃ d ∈ t.deliveries, event = .begun d.job ∨ event = .sent d.job d.request d.reply ∨
        event = .answered d.job (Endpoint.sendChatMessage.readReply d.reply)) ∨
      (∃ job ∈ l.current.map Prod.fst, event = .begun job ∨
        ∃ id reply, event = .sent job ((job.call c).request config id) reply) ∨
      ∃ job ∈ t.refusals, event = .refused job := by
  rw [h.events_eq, Turns.events, List.mem_append, List.mem_append] at hevent
  rcases hevent with (hevent | hevent) | hevent
  · obtain ⟨d, hd, hevent⟩ := List.mem_flatMap.mp hevent
    simp only [Delivery.events, List.mem_cons, List.not_mem_nil, or_false] at hevent
    exact Or.inl ⟨d, hd, hevent⟩
  · refine Or.inr (Or.inl ?_)
    have hunderway := h.underway
    generalize l.current = current at hunderway ⊢
    generalize t.underway = underway at hunderway hevent
    cases hunderway with
    | idle => cases hevent
    | building job => exact ⟨job, rfl, Or.inl (List.mem_singleton.mp hevent)⟩
    | sending job id => exact ⟨job, rfl, Or.inl (List.mem_singleton.mp hevent)⟩
    | awaiting job id reply =>
      simp only [List.mem_cons, List.not_mem_nil, or_false] at hevent
      exact ⟨job, rfl, hevent.imp_right fun heq => ⟨id, reply, heq⟩⟩
  · obtain ⟨job, hjob, rfl⟩ := List.mem_map.mp hevent
    exact Or.inr (Or.inr ⟨job, hjob, rfl⟩)

/-- A request that was sent is that of a message in a turn. -/
theorem Explain.sent_cases (h : t.Explain config c l events jobs isHeld) {job : Job}
    {request : Request} {reply : Reply} (hevent : .sent job request reply ∈ events) :
    job ∈ t.deliveries.map Delivery.job ++ (l.current.map Prod.fst).toList ∧
      ∃ id, request = (job.call c).request config id := by
  rcases h.mem_events hevent with ⟨d, hd, heq | heq | heq⟩ | ⟨job', hjob, heq | ⟨id, reply', heq⟩⟩ |
    ⟨job', hjob, heq⟩ <;> cases heq
  · exact ⟨List.mem_append_left _ (List.mem_map_of_mem hd), h.requests d hd⟩
  · exact ⟨List.mem_append_right _ (Option.mem_toList.mpr hjob), id, rfl⟩

/-- An outcome is that of a turn, or of a message that was refused. -/
theorem Explain.settled (h : t.Explain config c l events jobs isHeld) {event : OutboxEvent}
    (hevent : event ∈ events) {ticket : Nat} {outcome : Except ClientError Message}
    (hsettled : event.settled? c = some (ticket, outcome)) :
    (∃ d ∈ t.deliveries, d.job.ticket = ticket ∧
        outcome = Endpoint.sendChatMessage.readReply d.reply) ∨
      ∃ job ∈ t.refusals, job.ticket = ticket ∧ outcome = .error (.outboxClosed c) := by
  rcases h.mem_events hevent with ⟨d, hd, rfl | rfl | rfl⟩ | ⟨job, hjob, rfl | ⟨id, reply, rfl⟩⟩ |
    ⟨job, hjob, rfl⟩ <;> cases hsettled
  · exact Or.inl ⟨d, hd, rfl, rfl⟩
  · exact Or.inr ⟨job, hjob, rfl, rfl⟩

theorem Explain.sent_of_delivery (h : t.Explain config c l events jobs isHeld) {d : Delivery}
    (hd : d ∈ t.deliveries) :
    .sent d.job d.request d.reply ∈ events ∧
      .answered d.job (Endpoint.sendChatMessage.readReply d.reply) ∈ events := by
  have hsub : ∀ event ∈ d.events, event ∈ events := by
    intro event hevent
    rw [h.events_eq]
    exact List.mem_append_left _ (List.mem_append_left _ (List.mem_flatMap.mpr ⟨d, hd, hevent⟩))
  exact ⟨hsub _ (by simp [Delivery.events]), hsub _ (by simp [Delivery.events])⟩

theorem Explain.refused_of_refusal (h : t.Explain config c l events jobs isHeld) {job : Job}
    (hjob : job ∈ t.refusals) : .refused job ∈ events := by
  rw [h.events_eq]
  exact List.mem_append_right _ (List.mem_map_of_mem hjob)

/-- The tickets of messages in turns, of refused messages and of messages that wait are all
different. -/
theorem Explain.nodup (h : t.Explain config c l events jobs isHeld)
    (hjobs : (jobs.map Job.ticket).Nodup) :
    (t.deliveries.map fun d => d.job.ticket).Nodup ∧
      ∀ job ∈ t.deliveries.map Delivery.job ++ (l.current.map Prod.fst).toList,
        ∀ job' ∈ t.refusals, job.ticket ≠ job'.ticket := by
  rw [h.jobs_eq, List.map_append, List.map_append] at hjobs
  obtain ⟨hturns, -, hapart⟩ := List.nodup_append.mp (List.nodup_append.mp hjobs).1
  rw [List.map_append, List.map_map] at hturns
  refine ⟨(List.nodup_append.mp hturns).1, fun job hjob job' hjob' => ?_⟩
  exact hapart _ (List.mem_map_of_mem hjob) _ (List.mem_map_of_mem hjob')

/-- A ticket is settled once. -/
theorem Explain.settled_unique (h : t.Explain config c l events jobs isHeld)
    (hjobs : (jobs.map Job.ticket).Nodup) {event event' : OutboxEvent} (hevent : event ∈ events)
    (hevent' : event' ∈ events) {ticket : Nat} {outcome outcome' : Except ClientError Message}
    (hsettled : event.settled? c = some (ticket, outcome))
    (hsettled' : event'.settled? c = some (ticket, outcome')) : outcome = outcome' := by
  obtain ⟨hnodup, hapart⟩ := h.nodup hjobs
  have hturn : ∀ d ∈ t.deliveries,
      d.job ∈ t.deliveries.map Delivery.job ++ (l.current.map Prod.fst).toList :=
    fun d hd => List.mem_append_left _ (List.mem_map_of_mem hd)
  rcases h.settled hevent hsettled with ⟨d, hd, rfl, rfl⟩ | ⟨job, hjob, rfl, rfl⟩ <;>
    rcases h.settled hevent' hsettled' with ⟨d', hd', hticket, rfl⟩ | ⟨job', hjob', hticket, rfl⟩
  · rw [List.inj_on_of_nodup_map hnodup hd' hd hticket]
  · exact absurd hticket.symm (hapart _ (hturn d hd) _ hjob')
  · exact absurd hticket (hapart _ (hturn d' hd') _ hjob)
  · rfl

end Turns

/-! ## Steps of an outbox -/

/-- A step of an outbox that has a message of its own in hand is a step on its lane.  It
settles what its event says and sends what its event says. -/
theorem Outbox.lane_step {config : ClientConfig} {o : Outbox} {events : List OutboxEvent}
    (hunderway : Underway config o.conversation o.current events) (c : Client) (isHeld : Bool) :
    Lane.Step c isHeld o.conversation o.lane (o.event? c isHeld) (o.step c isHeld).lane ∧
      (o.step c isHeld).settled = (o.event? c isHeld).bind (·.settled? o.conversation) ∧
      (o.step c isHeld).client.config = c.config ∧
      (o.step c isHeld).client.transport.chatBodies = c.transport.chatBodies ++
        ((o.event? c isHeld).bind OutboxEvent.request?).toList.map Request.body := by
  obtain ⟨conversation, queue, current, isOpen⟩ := o
  dsimp only at hunderway
  cases hunderway with
  | idle =>
    cases queue with
    | nil =>
      cases isOpen
      all_goals exact ⟨.rest, rfl, rfl, (List.append_nil _).symm⟩
    | cons job rest =>
      cases isHeld with
      | true => exact ⟨.begin rfl, rfl, rfl, (List.append_nil _).symm⟩
      | false => exact ⟨.refuse rfl, rfl, rfl, (List.append_nil _).symm⟩
  | building job => exact ⟨.build, rfl, rfl, (List.append_nil _).symm⟩
  | sending job id =>
    exact ⟨.send rfl, rfl, rfl, c.transport.chatBodies_request .sendChatMessage _⟩
  | awaiting job id reply => exact ⟨.answer, rfl, rfl, (List.append_nil _).symm⟩

end LiteChat
