import LiteChat.Proofs.Client.Order
import LiteChat.Proofs.Client.Runs
import LiteChat.Proofs.Client.Tended

/-!
# The journal of a conversation

What was posted to a conversation, what its outboxes did and what is left for it fit together also
when the connection is ended in between (`Engine.Journal`), provided that no outbox is opened for
it before the ones that were left behind have nothing left to send (`Engine.renews`).  Every
action keeps it so (`Journal.step`).  Of other conversations no more is kept than that their
requests say whose they are.
-/

namespace LiteChat

/-! ## Steps of an outbox by itself -/

/-- The turn under way goes on with every step on a lane. -/
theorem Lane.Step.underway {config : ClientConfig} {client : Client} {isHeld : Bool} {c : String}
    {l l' : Lane} {event : Option OutboxEvent} (h : Lane.Step client isHeld c l event l')
    (hconfig : client.config = config) {events : List OutboxEvent}
    (hunderway : Underway config c l.current events) :
    ∃ events', Underway config c l'.current events' := by
  cases h with
  | @build job call queue =>
    obtain ⟨-, rfl⟩ := hunderway.of_build
    rw [← hconfig]
    exact ⟨_, .sending job client.session.clientId⟩
  | @send job request queue reply hreply =>
    obtain ⟨-, id, rfl⟩ := hunderway.of_send
    exact ⟨_, .awaiting job id reply⟩
  | answer => exact ⟨_, .idle⟩
  | @begin job rest hheld => exact ⟨_, .building job⟩
  | refuse hheld => exact ⟨_, .idle⟩
  | rest => exact ⟨_, .idle⟩

/-- A request that an outbox sends is that of a message, and says for which conversation it
is. -/
theorem Outbox.chatConversation?_of_event {config : ClientConfig} {o : Outbox}
    {events : List OutboxEvent} (hunderway : Underway config o.conversation o.current events)
    {c : Client} {isHeld : Bool} {event : OutboxEvent} (hevent : o.event? c isHeld = some event)
    {r : Request} (hr : event.request? = some r) :
    r.body.chatConversation? = some o.conversation := by
  obtain ⟨conversation, queue, current, isOpen⟩ := o
  dsimp only at hunderway ⊢
  cases hunderway with
  | idle =>
    cases queue with
    | nil => cases hevent
    | cons job rest =>
      cases isHeld <;> cases hevent <;> cases hr
  | building job => cases hevent
  | sending job id =>
    cases hevent
    cases hr
    exact job.chatConversation?_body conversation config id
  | awaiting job id reply =>
    cases hevent
    cases hr

/-- An outbox that has nothing left to send has nothing on its lane. -/
theorem Outbox.lane_eq_empty {o : Outbox} (h : o.tickets = []) : o.lane = .empty := by
  obtain ⟨conversation, queue, current, isOpen⟩ := o
  obtain ⟨hcurrent, hqueue⟩ := List.append_eq_nil_iff.mp h
  dsimp only at hcurrent hqueue
  rw [Outbox.lane]
  dsimp only
  rw [List.map_eq_nil_iff.mp hqueue]
  cases current with
  | none => rfl
  | some x => cases hcurrent

/-- On an empty lane nothing happens. -/
theorem Lane.Step.of_empty {client : Client} {isHeld : Bool} {c : String} {l : Lane}
    {event : Option OutboxEvent} (h : Lane.Step client isHeld c .empty event l) :
    event = none ∧ l = .empty := by
  cases h
  exact ⟨rfl, rfl⟩

namespace Engine

/-! ## The journal of a conversation -/

/-- What was posted to a conversation and what the outboxes did fit together, whether or not the
connection has been ended. -/
structure Journal (config : ClientConfig) (c : String) (e : Engine) (ch : Chronicle)
    (posted : List Posting) : Prop where
  filed : e.Filed
  quiet : e.Quiet
  config_eq : e.client.config = config
  length_eq : posted.length = e.postings.length
  /-- Every outbox is at a message of its own conversation. -/
  underway : ∀ n o, (n, o) ∈ e.outboxes → ∃ events, Underway config o.conversation o.current events
  /-- Every request says for which conversation it is. -/
  addressed : ∀ p ∈ ch, ∀ r, p.2.request? = some r → r.body.chatConversation? = some p.1
  bodies : e.client.transport.chatBodies = ch.requests.map Request.body
  /-- What is left for the conversation is where its turns have led. -/
  turns : ∃ live, e.Tended c live ∧ ∃ t : Turns,
    t.Explain config c (e.laneAt live) (ch.eventsOf c) (Posting.jobsTo c posted) e.isHeld

theorem journal_new (config : ClientConfig) (clock : Clock) (c : String) :
    Journal config c (.new config clock) [] [] where
  filed := filed_new config clock
  quiet := fun _ hp => absurd hp List.not_mem_nil
  config_eq := rfl
  length_eq := rfl
  underway := fun _ _ ho => absurd ho List.not_mem_nil
  addressed := fun _ hp => absurd hp List.not_mem_nil
  bodies := rfl
  turns := ⟨none, tended_new config clock c, _, Turns.explain_empty config c _⟩

/-- Whether no outbox of a conversation has anything left to send. -/
def Drained (e : Engine) (c : String) : Prop :=
  ∀ p ∈ e.outboxes, p.2.conversation = c → p.2.tickets = []

/-- Whether an action can come about, and opens an outbox for a conversation only after the ones
that were left behind have nothing left to send. -/
def renews (c : String) (e : Engine) : Action → Prop
  | .disconnect => True
  | .post c' _ _ => e.hasCaller = true ∧ (c' = c → e.outboxOf? c' = none → e.Drained c)
  | a => e.permits a

instance (e : Engine) (c : String) : Decidable (e.Drained c) :=
  inferInstanceAs (Decidable (∀ p ∈ e.outboxes, p.2.conversation = c → p.2.tickets = []))

instance (c : String) (e : Engine) : (a : Action) → Decidable (e.renews c a)
  | .disconnect => .isTrue trivial
  | .post c' _ _ => inferInstanceAs
    (Decidable (e.hasCaller = true ∧ (c' = c → e.outboxOf? c' = none → e.Drained c)))
  | .start errand => inferInstanceAs (Decidable (e.hasCaller = true ∧ errand.isQuiet = true))
  | .stop => .isFalse id
  | .push _ | .close | .layDown .. | .refuse _ | .slow _ | .wait _ | .dropReceipt _ | .release
  | .move _ => .isTrue trivial

section Journal
variable {config : ClientConfig} {c : String} {e : Engine} {ch : Chronicle} {posted : List Posting}

theorem permits_of_renews {a : Action} (ha : e.renews c a) (hne : a ≠ .disconnect) :
    e.permits a := by
  cases a with
  | disconnect => exact absurd rfl hne
  | post c' message requestId => exact ha.1
  | _ => exact ha

theorem isHeld_closeOutboxes (e : Engine) : e.closeOutboxes.isHeld = e.isHeld := by
  rw [isHeld, isHeld, Engine.closeOutboxes, List.any_map]
  rfl

theorem isHeld_dropListener (h : e.isHeld = false) : e.dropListener.isHeld = false := by
  obtain ⟨hcaller, -, houtboxes, herrands⟩ := unheld_iff.mpr h
  unfold dropListener
  split
  · exact unheld_iff.mp ⟨hcaller, nofun, houtboxes, herrands⟩
  · exact h

/-- What goes on beside the outboxes leaves the journal as it is. -/
theorem Journal.of_aside (h : Journal config c e ch posted) {e' : Engine} (haside : e.Aside e')
    (hheld : e.isHeld = false → e'.isHeld = false) : Journal config c e' ch posted := by
  obtain ⟨live, htended, t, ht⟩ := h.turns
  refine ⟨h.filed.of_sameDesk haside.desk, haside.quiet h.quiet,
    haside.beside.config_eq.trans h.config_eq, haside.postings_eq ▸ h.length_eq, ?_, h.addressed,
    haside.beside.chat_eq.trans h.bodies,
    ⟨live, htended.of_sameDesk haside.desk, t, ?_⟩⟩
  · rw [haside.desk.outboxes_eq]
    exact h.underway
  · rw [haside.desk.laneAt_eq]
    exact ht.letGo hheld

theorem Journal.dropReceipt (h : Journal config c e ch posted) (ticket : Nat) :
    Journal config c (e.step (.dropReceipt ticket)) ch posted := by
  obtain ⟨live, htended, t, ht⟩ := h.turns
  have hdesk : e.SameDesk (e.step (.dropReceipt ticket)) := ⟨rfl, rfl, rfl, rfl⟩
  refine ⟨h.filed.of_sameDesk hdesk, h.quiet, h.config_eq, ?_, h.underway, h.addressed, h.bodies,
    ⟨live, htended.of_sameDesk hdesk, t, ht⟩⟩
  exact h.length_eq.trans (List.length_modify _ _ _).symm

/-- Outboxes that are closed keep what they hold. -/
theorem Journal.closeOutboxes (h : Journal config c e ch posted) :
    Journal config c e.closeOutboxes ch posted := by
  obtain ⟨live, htended, t, ht⟩ := h.turns
  refine ⟨h.filed.closeOutboxes, h.quiet, h.config_eq, h.length_eq, ?_, h.addressed, h.bodies,
    ⟨live, htended.closeOutboxes, t, ?_⟩⟩
  · intro n b hb
    obtain ⟨b', hb', hconv, hlane⟩ := mem_closeOutboxes hb
    obtain ⟨events, hunderway⟩ := h.underway n b' hb'
    have hcurrent : b.current = b'.current := congrArg Lane.current hlane
    rw [hconv, hcurrent]
    exact ⟨events, hunderway⟩
  · rw [laneAt_closeOutboxes, isHeld_closeOutboxes]
    exact ht

/-- The last caller lets the client go. -/
theorem Journal.leave (h : Journal config c e ch posted)
    (hheld : e.isHeld = false → isHeld { e with hasCaller := false } = false) :
    Journal config c { e with hasCaller := false } ch posted := by
  obtain ⟨live, htended, t, ht⟩ := h.turns
  exact ⟨⟨h.filed.sorted, h.filed.fresh, h.filed.recent, h.filed.directed⟩, h.quiet, h.config_eq,
    h.length_eq, h.underway, h.addressed, h.bodies,
    ⟨live, ⟨htended.old, htended.home, htended.idle, htended.listed⟩, t, ht.letGo hheld⟩⟩

theorem Filed.of_outboxOf? (h : e.Filed) {c' : String} {k : Nat} {o : Outbox}
    (hbox : e.outboxOf? c' = some (k, o)) :
    (k, o) ∈ e.outboxes ∧ o.conversation = c' ∧ Keyed.get? c' e.directory = some k := by
  obtain ⟨n, hn, hbox⟩ := Option.bind_eq_some_iff.mp hbox
  obtain ⟨b, hb, hbox⟩ := Option.map_eq_some_iff.mp hbox
  cases hbox
  have hmem := Keyed.mem_of_get?_eq_some hb
  exact ⟨hmem, h.directed c' k o hn hmem, hn⟩

/-- A message is posted to the outbox that tends its conversation, or opens a new one when there
is nothing left for the conversation. -/
theorem Journal.turns_post (h : Journal config c e ch posted) {c' : String}
    (message : OutgoingMessage) (requestId : Nat)
    (hdrained : c' = c → e.outboxOf? c' = none → e.Drained c) :
    ∃ live, (e.post c' message requestId).Tended c live ∧ ∃ t : Turns,
      t.Explain config c ((e.post c' message requestId).laneAt live) (ch.eventsOf c)
        (Posting.jobsTo c (posted ++ [.new c' message requestId])) e.isHeld := by
  obtain ⟨live, htended, t, ht⟩ := h.turns
  have hjobs : Posting.jobsTo c (posted ++ [.new c' message requestId]) =
      Posting.jobsTo c posted ++
        if c' = c then [⟨e.postings.length, message, requestId⟩] else [] := by
    rw [Posting.jobsTo_snoc, h.length_eq]
    rfl
  rw [hjobs]
  cases hbox : e.outboxOf? c' with
  | some p =>
    obtain ⟨k, o⟩ := p
    obtain ⟨ho, hconv, hlisted⟩ := h.filed.of_outboxOf? hbox
    have hdesk : (e.replaceOutbox k (o.enqueue ⟨e.postings.length, message, requestId⟩)).SameDesk
        (e.post c' message requestId) := post_of_some hbox
    have hsame : (o.enqueue ⟨e.postings.length, message, requestId⟩).conversation =
        o.conversation := rfl
    have hlive : o.conversation = c → live = some k := by
      rintro rfl
      exact htended.listed k o (hconv ▸ hlisted) ho
    refine ⟨live, (htended.replaceOutbox h.filed ho hsame ?_).of_sameDesk hdesk, t, ?_⟩
    · exact fun hc hne => absurd (hlive hc) hne
    · rw [hdesk.laneAt_eq]
      by_cases hc : c' = c
      · rw [if_pos hc]
        rw [hlive (hconv.trans hc), h.filed.laneAt_self ho] at ht
        rw [hlive (hconv.trans hc), laneAt_replaceOutbox_self]
        exact ht.put _
      · have hne : live ≠ some k := fun heq => hc (hconv.symm.trans (htended.home k o heq ho))
        rw [if_neg hc, List.append_nil, laneAt_replaceOutbox_of_ne hne]
        exact ht
  | none =>
    have hdesk : (e.addOutbox (.new c' ⟨e.postings.length, message, requestId⟩)).SameDesk
        (e.post c' message requestId) := post_of_none hbox
    by_cases hc : c' = c
    · have hidle : ∀ n b, (n, b) ∈ e.outboxes → b.conversation = c → b.lane = .empty :=
        fun n b hb hbc => Outbox.lane_eq_empty (hdrained hc hbox (n, b) hb hbc)
      rw [htended.laneAt_eq_empty hidle] at ht
      subst hc
      refine ⟨some e.nextOutbox, (h.filed.tended_addOutbox hidle).of_sameDesk hdesk, t, ?_⟩
      rw [hdesk.laneAt_eq, laneAt_addOutbox, if_pos rfl]
      exact ht.put _
    · have hother : (Outbox.new c' ⟨e.postings.length, message, requestId⟩).conversation ≠ c := hc
      obtain ⟨htended', hlane⟩ := htended.addOutbox_of_ne h.filed hother
      refine ⟨live, htended'.of_sameDesk hdesk, t, ?_⟩
      rw [hdesk.laneAt_eq, hlane, if_neg hc, List.append_nil]
      exact ht

/-- Posting touches no message that is under way. -/
theorem Journal.underway_post (h : Journal config c e ch posted) (c' : String)
    (message : OutgoingMessage) (requestId : Nat) :
    ∀ n o, (n, o) ∈ (e.post c' message requestId).outboxes →
      ∃ events, Underway config o.conversation o.current events := by
  intro n o ho
  cases hbox : e.outboxOf? c' with
  | some p =>
    obtain ⟨k, b⟩ := p
    rw [(post_of_some hbox).outboxes_eq] at ho
    rcases h.filed.mem_replaceOutbox_iff.mp ho with ⟨-, rfl⟩ | ⟨-, ho⟩
    · exact h.underway k b (h.filed.of_outboxOf? hbox).1
    · exact h.underway n o ho
  | none =>
    rw [(post_of_none hbox).outboxes_eq] at ho
    rcases h.filed.mem_addOutbox_iff.mp ho with ⟨-, rfl⟩ | ho
    · exact ⟨[], .idle⟩
    · exact h.underway n o ho

theorem Filed.post (h : e.Filed) (c' : String) (message : OutgoingMessage) (requestId : Nat) :
    (e.post c' message requestId).Filed := by
  cases hbox : e.outboxOf? c' with
  | some p =>
    obtain ⟨k, b⟩ := p
    have hsame : (b.enqueue ⟨e.postings.length, message, requestId⟩).conversation =
        b.conversation := rfl
    exact (h.replaceOutbox (h.of_outboxOf? hbox).1 hsame).of_sameDesk (post_of_some hbox)
  | none => exact (h.addOutbox _).of_sameDesk (post_of_none hbox)

theorem Journal.post (h : Journal config c e ch posted) (hcaller : e.hasCaller = true)
    {c' : String} (message : OutgoingMessage) (requestId : Nat)
    (hdrained : c' = c → e.outboxOf? c' = none → e.Drained c) :
    Journal config c (e.post c' message requestId) ch (posted ++ [.new c' message requestId]) := by
  obtain ⟨hclient, herrands⟩ := e.post_rest c' message requestId
  obtain ⟨live, htended, t, ht⟩ := h.turns_post message requestId hdrained
  have hheld : e.isHeld = true := by simp [isHeld, hcaller]
  refine ⟨h.filed.post c' message requestId, ?_, hclient ▸ h.config_eq, ?_,
    h.underway_post c' message requestId, h.addressed, hclient ▸ h.bodies,
    ⟨live, htended, t, ht.letGo fun hfalse => ?_⟩⟩
  · rw [Quiet, herrands]
    exact h.quiet
  · rw [post_postings, List.length_append, List.length_append, h.length_eq]
  · exact absurd (hfalse.symm.trans hheld) Bool.false_ne_true

/-! ### Moves of outboxes -/

/-- What a move of an outbox makes of the outboxes.  One that tends another conversation, or that
has nothing left to send, is left so. -/
theorem Tended.moveOutbox {live : Option Nat} {k : Nat} {o : Outbox} (h : e.Tended c live)
    (hfiled : e.Filed) (ho : (k, o) ∈ e.outboxes)
    (hidle : o.conversation = c → live ≠ some k → (o.step e.client e.isHeld).lane = .empty) :
    (e.moveOutbox k o).Tended c live ∧ (e.moveOutbox k o).laneAt live =
      if live = some k then (o.step e.client e.isHeld).lane else e.laneAt live := by
  rcases o.step_outbox e.client e.isHeld with ⟨o', hstep, hconv, -⟩ | ⟨hstep, -⟩
  · have hdesk := moveOutbox_of_some (n := k) hstep
    have hlane : (o.step e.client e.isHeld).lane = o'.lane := by
      rw [Outbox.Result.lane, hstep]
      rfl
    rw [hlane] at hidle ⊢
    refine ⟨(h.replaceOutbox hfiled ho hconv hidle).of_sameDesk hdesk, ?_⟩
    rw [hdesk.laneAt_eq]
    split
    · rename_i hlive
      rw [hlive, laneAt_replaceOutbox_self]
    · rename_i hlive
      exact laneAt_replaceOutbox_of_ne hlive e o'
  · have hdesk := moveOutbox_of_none (n := k) hstep
    have hlane : (o.step e.client e.isHeld).lane = .empty := by
      rw [Outbox.Result.lane, hstep]
      rfl
    refine ⟨(h.eraseOutbox k).of_sameDesk hdesk, ?_⟩
    rw [hdesk.laneAt_eq, hlane]
    split
    · rename_i hlive
      rw [hlive, laneAt_eraseOutbox_self]
    · rename_i hlive
      exact laneAt_eraseOutbox_of_ne hlive e

theorem Filed.moveOutbox (h : e.Filed) {k : Nat} {o : Outbox} (ho : (k, o) ∈ e.outboxes) :
    (e.moveOutbox k o).Filed := by
  rcases o.step_outbox e.client e.isHeld with ⟨o', hstep, hconv, -⟩ | ⟨hstep, -⟩
  · exact (h.replaceOutbox ho hconv).of_sameDesk (moveOutbox_of_some hstep)
  · exact (h.eraseOutbox k).of_sameDesk (moveOutbox_of_none hstep)

/-- The move of an outbox goes on with the turns of its conversation, if it is the one that tends
it. -/
theorem Journal.turns_moveOutbox (h : Journal config c e ch posted) {k : Nat} {o : Outbox}
    (ho : (k, o) ∈ e.outboxes) :
    ∃ live, (e.moveOutbox k o).Tended c live ∧ ∃ t : Turns,
      t.Explain config c ((e.moveOutbox k o).laneAt live)
        (Chronicle.eventsOf c
          (ch ++ ((o.event? e.client e.isHeld).map fun event => (o.conversation, event)).toList))
        (Posting.jobsTo c posted) e.isHeld := by
  obtain ⟨live, htended, t, ht⟩ := h.turns
  obtain ⟨events, hunderway⟩ := h.underway k o ho
  obtain ⟨hstep, -⟩ := Outbox.lane_step hunderway e.client e.isHeld
  -- beside the one that tends the conversation there is nothing left to do
  have hrest : o.conversation = c → live ≠ some k →
      o.event? e.client e.isHeld = none ∧ (o.step e.client e.isHeld).lane = .empty := by
    intro hc hlive
    rw [htended.idle k o ho hc hlive] at hstep
    exact hstep.of_empty
  obtain ⟨htended', hlane⟩ := htended.moveOutbox h.filed ho fun hc hlive => (hrest hc hlive).2
  rw [Chronicle.eventsOf_append]
  by_cases hlive : live = some k
  · have hc : o.conversation = c := htended.home k o hlive ho
    rw [hlive, h.filed.laneAt_self ho] at ht
    subst hc
    obtain ⟨t', ht'⟩ := ht.step h.config_eq hstep
    refine ⟨live, htended', t', ?_⟩
    rw [hlane, if_pos hlive, Chronicle.eventsOf_self]
    exact ht'
  · refine ⟨live, htended', t, ?_⟩
    rw [hlane, if_neg hlive]
    by_cases hc : o.conversation = c
    · rw [(hrest hc hlive).1, Option.map_none, Option.toList_none]
      exact (List.append_nil (ch.eventsOf c)).symm ▸ ht
    · rw [Chronicle.eventsOf_of_ne hc, List.append_nil]
      exact ht

theorem Journal.moveOutbox (h : Journal config c e ch posted) {k : Nat} {o : Outbox}
    (ho : (k, o) ∈ e.outboxes)
    (hheld : e.isHeld = false → (e.moveOutbox k o).isHeld = false) :
    Journal config c (e.moveOutbox k o)
      (ch ++ ((o.event? e.client e.isHeld).map fun event => (o.conversation, event)).toList)
      posted := by
  obtain ⟨events, hunderway⟩ := h.underway k o ho
  obtain ⟨hstep, -, hconfig, hbodies⟩ := Outbox.lane_step hunderway e.client e.isHeld
  obtain ⟨hclient, -, -, herrands⟩ := e.moveOutbox_rest k o
  obtain ⟨live, htended, t, ht⟩ := h.turns_moveOutbox ho
  refine ⟨h.filed.moveOutbox ho, ?_, ?_, ?_, ?_, ?_, ?_, ⟨live, htended, t, ht.letGo hheld⟩⟩
  · rw [Quiet, herrands]
    exact h.quiet
  · rw [hclient, hconfig]
    exact h.config_eq
  · rw [h.length_eq, moveOutbox_postings]
    split
    · exact (List.length_modify _ _ _).symm
    · rfl
  · intro n b hb
    rcases mem_moveOutbox hb with ⟨o', hnext, hconv, heq⟩ | hb
    · cases heq
      have hlane : (o.step e.client e.isHeld).lane = b.lane := by
        rw [Outbox.Result.lane, hnext]
        rfl
      rw [hlane] at hstep
      rw [hconv]
      exact hstep.underway h.config_eq hunderway
    · exact h.underway n b hb
  · intro p hp r hr
    rcases List.mem_append.mp hp with hp | hp
    · exact h.addressed p hp r hr
    · obtain ⟨event, hevent, rfl⟩ := Option.map_eq_some_iff.mp (Option.mem_toList.mp hp)
      exact Outbox.chatConversation?_of_event hunderway hevent hr
  · rw [hclient, hbodies, h.bodies, Chronicle.requests_append, Chronicle.requests_of_event,
      List.map_append]

/-! ### Runs -/

/-- Every action keeps the journal. -/
theorem Journal.step (h : Journal config c e ch posted) {a : Action} (ha : e.renews c a) :
    Journal config c (e.step a) (ch ++ (e.event? a).toList) (posted ++ Action.posted [a]) := by
  by_cases hend : a = .disconnect
  · have hnothing : ch ++ (e.event? .disconnect).toList = ch := List.append_nil ch
    have hkept : posted ++ Action.posted [.disconnect] = posted := List.append_nil posted
    rw [hend, hnothing, hkept]
    exact (h.of_aside e.aside_dropListener isHeld_dropListener).closeOutboxes
  · have hpermits := permits_of_renews ha hend
    have hheld : e.isHeld = false → (e.step a).isHeld = false :=
      fun hfalse => unheld_iff.mp ((unheld_iff.mpr hfalse).step hpermits).1
    have hchange := e.step_cases h.quiet hpermits
    generalize e.step a = e' at hheld hchange ⊢
    have hquiet : e.event? a = none → ch ++ (e.event? a).toList = ch := by
      intro hnone
      rw [hnone]
      exact List.append_nil ch
    have hkept : Action.posted [a] = [] → posted ++ Action.posted [a] = posted := by
      intro hnil
      rw [hnil]
      exact List.append_nil posted
    cases hchange with
    | post hcaller =>
      rw [hquiet rfl]
      exact h.post hcaller _ _ ha.2
    | dropReceipt ticket =>
      rw [hquiet rfl, hkept rfl]
      exact h.dropReceipt ticket
    | release =>
      rw [hquiet rfl, hkept rfl]
      exact h.closeOutboxes.leave fun hfalse => hheld (e.isHeld_closeOutboxes.symm.trans hfalse)
    | @outbox n o ho =>
      rw [hkept rfl, event?, ho, Option.bind_some]
      exact h.moveOutbox (Keyed.mem_of_get?_eq_some ho) hheld
    | aside haside hevent hposted =>
      rw [hquiet hevent, hkept hposted]
      exact h.of_aside haside hheld

theorem Follows.chronicle_next {allowed : Engine → Action → Prop} {start : Engine}
    {actions : List Action} (h : start.Follows allowed actions e) (a : Action) :
    start.chronicle (actions ++ [a]) = start.chronicle actions ++ (e.event? a).toList := by
  rw [chronicle_append, ← h.eq_run, chronicle, chronicle, List.append_nil]

theorem Follows.journal {clock : Clock} {actions : List Action}
    (h : (Engine.new config clock).Follows (renews c) actions e) :
    Journal config c e ((Engine.new config clock).chronicle actions) (Action.posted actions) := by
  induction h with
  | refl => exact journal_new config clock c
  | next hr ha ih =>
    rw [hr.chronicle_next, Action.posted, List.filterMap_append]
    exact ih.step ha

end Journal

end Engine

end LiteChat
