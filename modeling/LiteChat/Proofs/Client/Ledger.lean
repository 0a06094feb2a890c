import Mathlib.Data.List.Induction
import LiteChat.Proofs.Client.Receipts
import LiteChat.Proofs.Client.Unheld

/-!
# The ledger of a run

What was posted, what the outboxes did, what is on the lanes, what the transport was given
and what the receipts say fit together in every state that a run leads to
(`Engine.Ledger`): each lane is where the turns of its conversation have led, the requests
in the log are those of the turns, and each receipt tells how the turn of its message
ended.  Every action keeps it so (`Ledger.step`).
-/

namespace LiteChat

/-! ## Messages for a conversation -/

/-- The posting as it was made. -/
def Posting.blank (p : Posting) : Posting := { p with receipt := .waiting }

namespace Posting

/-- The messages for a conversation, each with the number of its posting. -/
def jobsTo (c : String) (ps : List Posting) : List Job :=
  ps.zipIdx.filterMap fun p =>
    if p.1.conversation = c then some ⟨p.2, p.1.message, p.1.requestId⟩ else none

variable {c : String} {ps : List Posting} {job : Job}

theorem jobsTo_snoc (c : String) (ps : List Posting) (p : Posting) :
    jobsTo c (ps ++ [p]) = jobsTo c ps ++
      if p.conversation = c then [⟨ps.length, p.message, p.requestId⟩] else [] := by
  rw [jobsTo, List.zipIdx_append, List.filterMap_append, List.zipIdx_singleton, Nat.zero_add]
  congr 1
  split
  · rename_i h
    exact List.filterMap_cons_some (if_pos h)
  · rename_i h
    exact List.filterMap_cons_none (if_neg h)

/-- What happens to a receipt does not change what was posted. -/
theorem map_blank_modify (f : Posting → Posting) (hf : ∀ p, (f p).blank = p.blank) (i : Nat)
    (ps : List Posting) : (ps.modify i f).map blank = ps.map blank := by
  apply List.ext_getElem?
  intro j
  rw [List.getElem?_map, List.getElem?_map, List.getElem?_modify]
  cases ps[j]? with
  | none => rfl
  | some p => by_cases hij : i = j <;> simp [hij, hf]

theorem mem_jobsTo_iff : job ∈ jobsTo c ps ↔
    ∃ p, ps[job.ticket]? = some p ∧ p.conversation = c ∧ p.message = job.message ∧
      p.requestId = job.requestId := by
  rw [jobsTo, List.mem_filterMap]
  constructor
  · rintro ⟨⟨p, i⟩, hp, hjob⟩
    split at hjob
    · rename_i hc
      cases hjob
      exact ⟨p, List.mk_mem_zipIdx_iff_getElem?.mp hp, hc, rfl, rfl⟩
    · cases hjob
  · rintro ⟨p, hp, hc, hmessage, hrequestId⟩
    refine ⟨(p, job.ticket), List.mk_mem_zipIdx_iff_getElem?.mpr hp, ?_⟩
    rw [if_pos hc, hmessage, hrequestId]

/-- Every message has a ticket of its own. -/
theorem nodup_jobsTo (c : String) (ps : List Posting) : ((jobsTo c ps).map Job.ticket).Nodup := by
  induction ps using List.reverseRec with
  | nil => exact List.nodup_nil
  | append_singleton ps p ih =>
    rw [jobsTo_snoc]
    split
    · rw [List.map_append, List.nodup_append]
      refine ⟨ih, List.nodup_singleton _, ?_⟩
      intro ticket hticket last hlast
      obtain ⟨job, hjob, rfl⟩ := List.mem_map.mp hticket
      obtain ⟨q, hq, -⟩ := mem_jobsTo_iff.mp hjob
      obtain rfl : last = ps.length := List.mem_singleton.mp hlast
      exact (List.getElem?_eq_some_iff.mp hq).1.ne
    · rwa [List.append_nil]

end Posting

/-! ## The ledger -/

namespace Engine

/-- What was posted, what the outboxes did, and the state that a run has led to fit together. -/
structure Ledger (config : ClientConfig) (e : Engine) (ch : Chronicle) (posted : List Posting) :
    Prop where
  wired : e.Wired
  quiet : e.Quiet
  config_eq : e.client.config = config
  postings_eq : e.postings.map Posting.blank = posted
  /-- Each lane is where the turns of its conversation have led. -/
  turns : ∀ c, ∃ t : Turns,
    t.Explain config c (e.lane c) (ch.eventsOf c) (Posting.jobsTo c posted) e.isHeld
  /-- The requests in the log are those of the turns. -/
  bodies : e.client.transport.chatBodies = ch.requests.map Request.body
  informed : Informed e.postings ch

theorem ledger_new (config : ClientConfig) (clock : Clock) :
    Ledger config (.new config clock) [] [] where
  wired := wired_new config clock
  quiet := fun _ hp => absurd hp List.not_mem_nil
  config_eq := rfl
  postings_eq := rfl
  turns := fun c => ⟨_, Turns.explain_empty config c _⟩
  bodies := rfl
  informed := fun _ _ hp => by cases hp

section Ledger
variable {config : ClientConfig} {e : Engine} {ch : Chronicle} {posted : List Posting}

theorem Ledger.length_eq (h : Ledger config e ch posted) : posted.length = e.postings.length := by
  rw [← h.postings_eq, List.length_map]

/-- An outcome is that of a message that was posted to the conversation. -/
theorem Ledger.exists_job (h : Ledger config e ch posted) {c : String} {event : OutboxEvent}
    (hevent : (c, event) ∈ ch) {ticket : Nat} {outcome : Except ClientError Message}
    (hsettled : event.settled? c = some (ticket, outcome)) :
    ∃ job ∈ Posting.jobsTo c posted, job.ticket = ticket := by
  obtain ⟨t, ht⟩ := h.turns c
  have hmem := Chronicle.mem_eventsOf.mpr hevent
  rcases ht.settled hmem hsettled with ⟨d, hd, hticket, -⟩ | ⟨job, hjob, hticket, -⟩
  · refine ⟨d.job, ?_, hticket⟩
    rw [ht.jobs_eq]
    simp [List.mem_map_of_mem hd]
  · refine ⟨job, ?_, hticket⟩
    rw [ht.jobs_eq]
    simp [hjob]

/-- Nothing has come of a message that is yet to be posted. -/
theorem Ledger.outcomeOf?_length (h : Ledger config e ch posted) :
    ch.outcomeOf? e.postings.length = none := by
  cases houtcome : ch.outcomeOf? e.postings.length with
  | none => rfl
  | some outcome =>
    obtain ⟨c, event, hevent, hsettled⟩ := Chronicle.exists_of_outcomeOf? houtcome
    obtain ⟨job, hjob, hticket⟩ := h.exists_job hevent hsettled
    obtain ⟨p, hp, -⟩ := Posting.mem_jobsTo_iff.mp hjob
    have hlt := (List.getElem?_eq_some_iff.mp hp).1
    rw [hticket, h.length_eq] at hlt
    exact absurd hlt (Nat.lt_irrefl _)

/-! ### Steps -/

/-- What goes on beside the outboxes leaves the ledger as it is. -/
theorem Ledger.of_aside (h : Ledger config e ch posted) {e' : Engine} (haside : e.Aside e')
    (hheld : e.isHeld = false → e'.isHeld = false) : Ledger config e' ch posted where
  wired := h.wired.of_sameDesk haside.desk
  quiet := haside.quiet h.quiet
  config_eq := haside.beside.config_eq.trans h.config_eq
  postings_eq := haside.postings_eq ▸ h.postings_eq
  turns := by
    intro c
    obtain ⟨t, ht⟩ := h.turns c
    rw [haside.desk.lane_eq]
    exact ⟨t, ht.letGo hheld⟩
  bodies := haside.beside.chat_eq.trans h.bodies
  informed := haside.postings_eq ▸ h.informed

theorem Ledger.post (h : Ledger config e ch posted) (hcaller : e.hasCaller = true) (c : String)
    (message : OutgoingMessage) (requestId : Nat) :
    Ledger config (e.post c message requestId) ch (posted ++ [.new c message requestId]) := by
  obtain ⟨hclient, herrands⟩ := e.post_rest c message requestId
  obtain ⟨hwired, hlane⟩ := h.wired.post hcaller c message requestId
  have hheld : e.isHeld = true := by simp [isHeld, hcaller]
  refine ⟨hwired, ?_, hclient ▸ h.config_eq, ?_, ?_, hclient ▸ h.bodies, ?_⟩
  · rw [Quiet, herrands]
    exact h.quiet
  · rw [post_postings, List.map_append, h.postings_eq]
    rfl
  · intro c'
    obtain ⟨t, ht⟩ := h.turns c'
    have hgo : e.isHeld = false → (e.post c message requestId).isHeld = false :=
      fun hfalse => absurd (hfalse.symm.trans hheld) Bool.false_ne_true
    rw [Posting.jobsTo_snoc, hlane, h.length_eq]
    refine ⟨t, ?_⟩
    by_cases hc : c' = c
    · have hnew : (Posting.new c message requestId).conversation = c' := hc.symm
      rw [if_pos hc, if_pos hnew]
      rw [hc] at ht ⊢
      exact (ht.put _).letGo hgo
    · have hnew : (Posting.new c message requestId).conversation ≠ c' := Ne.symm hc
      rw [if_neg hc, if_neg hnew, List.append_nil]
      exact ht.letGo hgo
  · rw [post_postings]
    exact h.informed.post h.outcomeOf?_length c message requestId

theorem Ledger.dropReceipt (h : Ledger config e ch posted) (ticket : Nat) :
    Ledger config (e.step (.dropReceipt ticket)) ch posted where
  wired := h.wired.of_sameDesk ⟨rfl, rfl, rfl, rfl⟩
  quiet := h.quiet
  config_eq := h.config_eq
  postings_eq := by
    rw [← h.postings_eq]
    exact Posting.map_blank_modify (fun p => { p with receipt := .dropped }) (fun _ => rfl) _ _
  turns := h.turns
  bodies := h.bodies
  informed := h.informed.dropReceipt ticket

theorem Ledger.release (h : Ledger config e ch posted)
    (hheld : e.isHeld = false → (e.step .release).isHeld = false) :
    Ledger config (e.step .release) ch posted where
  wired := h.wired.release
  quiet := h.quiet
  config_eq := h.config_eq
  postings_eq := h.postings_eq
  turns := by
    intro c
    obtain ⟨t, ht⟩ := h.turns c
    have hlane : (e.step .release).lane c = e.lane c := e.lane_release c
    rw [hlane]
    exact ⟨t, ht.letGo hheld⟩
  bodies := h.bodies
  informed := h.informed

/-- The move of an outbox goes on with the turns of its conversation. -/
theorem Ledger.moveOutbox (h : Ledger config e ch posted) {n : Nat} {o : Outbox}
    (ho : (n, o) ∈ e.outboxes)
    (hheld : e.isHeld = false → (e.moveOutbox n o).isHeld = false) :
    Ledger config (e.moveOutbox n o)
      (ch ++ ((o.event? e.client e.isHeld).map fun event => (o.conversation, event)).toList)
      posted := by
  obtain ⟨t, ht⟩ := h.turns o.conversation
  rw [h.wired.lane_eq ho] at ht
  obtain ⟨hstep, hsettled, hconfig, hbodies⟩ := Outbox.lane_step ht.underway e.client e.isHeld
  obtain ⟨hwired, hlane⟩ := h.wired.moveOutbox ho
  obtain ⟨hclient, -, -, herrands⟩ := e.moveOutbox_rest n o
  refine ⟨hwired, ?_, ?_, ?_, ?_, ?_, ?_⟩
  -- the errands and the settings are those of before
  · rw [Quiet, herrands]
    exact h.quiet
  · rw [hclient, hconfig]
    exact h.config_eq
  · rw [← h.postings_eq, moveOutbox_postings]
    split
    · exact Posting.map_blank_modify (Posting.settle _) (fun _ => rfl) _ _
    · rfl
  -- the turns of this conversation go on, those of the others do not
  · intro c
    rw [Chronicle.eventsOf_append, hlane]
    by_cases hc : c = o.conversation
    · obtain ⟨t', ht'⟩ := ht.step h.config_eq hstep
      refine ⟨t', ?_⟩
      rw [if_pos hc, hc, Chronicle.eventsOf_self]
      exact ht'.letGo hheld
    · obtain ⟨t', ht'⟩ := h.turns c
      refine ⟨t', ?_⟩
      rw [if_neg hc, Chronicle.eventsOf_of_ne (Ne.symm hc), List.append_nil]
      exact ht'.letGo hheld
  -- the log and the receipts follow the event
  · rw [hclient, hbodies, h.bodies, Chronicle.requests_append, Chronicle.requests_of_event,
      List.map_append]
  · rw [moveOutbox_postings, hsettled]
    cases o.event? e.client e.isHeld with
    | none =>
      rw [Option.map_none, Option.toList_none, List.append_nil]
      exact h.informed
    | some event => exact h.informed.event o.conversation event

/-- Every action keeps the ledger. -/
theorem Ledger.step (h : Ledger config e ch posted) {a : Action} (ha : e.permits a) :
    Ledger config (e.step a) (ch ++ (e.event? a).toList) (posted ++ Action.posted [a]) := by
  have hheld : e.isHeld = false → (e.step a).isHeld = false :=
    fun hfalse => unheld_iff.mp ((unheld_iff.mpr hfalse).step ha).1
  have hchange := e.step_cases h.quiet ha
  generalize e.step a = e' at hheld hchange ⊢
  have hquiet : e.event? a = none → ch ++ (e.event? a).toList = ch := by
    intro hnone
    rw [hnone]
    exact List.append_nil ch
  have hkept : Action.posted [a] = [] → posted ++ Action.posted [a] = posted := by
    intro hnil
    rw [hnil]
    exact List.append_nil posted
  cases hchange with
  | post hcaller =>
    rw [hquiet rfl]
    exact h.post hcaller _ _ _
  | dropReceipt ticket =>
    rw [hquiet rfl, hkept rfl]
    exact h.dropReceipt ticket
  | release =>
    rw [hquiet rfl, hkept rfl]
    exact h.release hheld
  | @outbox n o ho =>
    rw [hkept rfl, event?, ho, Option.bind_some]
    exact h.moveOutbox (Keyed.mem_of_get?_eq_some ho) hheld
  | aside haside hevent hposted =>
    rw [hquiet hevent, hkept hposted]
    exact h.of_aside haside hheld

/-- A run from the start keeps the ledger of all that it has done. -/
theorem Reaches.ledger {clock : Clock} {actions : List Action}
    (h : (Engine.new config clock).Reaches actions e) :
    Ledger config e ((Engine.new config clock).chronicle actions) (Action.posted actions) := by
  induction h with
  | refl => exact ledger_new config clock
  | next hr ha ih =>
    rw [hr.chronicle_next, Action.posted, List.filterMap_append]
    exact ih.step ha

end Ledger

end Engine

end LiteChat
