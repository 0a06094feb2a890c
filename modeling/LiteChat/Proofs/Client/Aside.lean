import LiteChat.Proofs.Client.Chronicle
import LiteChat.Proofs.Keyed

/-!
# What goes on beside the outboxes

Pushes, the listener, errands and time leave the outboxes and the postings alone, and they
send no chat message: a listener sends maps, an upload sends bytes, and an errand that was
started without a chat message in it never gets one (`Engine.Quiet`).  `Engine.step_cases`
sums this up: an action is a posting, a dropped receipt, the release of the client or the
move of an outbox, or it goes on aside (`Engine.Aside`).
-/

namespace LiteChat

/-! ## Requests for chat messages -/

/-- The bodies of the requests for chat messages, in the order in which they were sent. -/
def Transport.chatBodies (t : Transport) : List Json :=
  t.requestsTo Endpoint.sendChatMessage.path

theorem Endpoint.path_eq_chat_iff {endpoint : Endpoint} :
    endpoint.path = Endpoint.sendChatMessage.path ↔ endpoint = .sendChatMessage := by
  cases endpoint <;> decide

namespace Transport

variable {t : Transport}

theorem chatBodies_of_log {t' : Transport} (h : t'.log = t.log) : t'.chatBodies = t.chatBodies := by
  rw [chatBodies, chatBodies, requestsTo, requestsTo, requests, requests, h]

theorem chatBodies_request (t : Transport) (endpoint : Endpoint) (body : Json) :
    (t.request endpoint.path body).1.chatBodies =
      t.chatBodies ++ if endpoint = .sendChatMessage then [body] else [] := by
  by_cases h : endpoint = .sendChatMessage
  · simp [chatBodies, requestsTo, requests, request, exchange, h]
  · have hpath : endpoint.path ≠ Endpoint.sendChatMessage.path :=
      fun he => h (Endpoint.path_eq_chat_iff.mp he)
    simp [chatBodies, requestsTo, requests, request, exchange, h, hpath]

theorem chatBodies_upload (t : Transport) (url contentType : String) (data : ByteArray) :
    (t.upload url contentType data).1.chatBodies = t.chatBodies := by
  simp [chatBodies, requestsTo, requests, upload, exchange]

theorem chatBodies_sendMaps (t : Transport) (maps : List ChannelMap) :
    (t.sendMaps maps).chatBodies = t.chatBodies := by
  simp [chatBodies, requestsTo, requests, sendMaps]

end Transport

/-! ## Clients -/

namespace Client

/-- A client has the settings of another and has sent the same chat messages. -/
structure Beside (c c' : Client) : Prop where
  config_eq : c'.config = c.config
  chat_eq : c'.transport.chatBodies = c.transport.chatBodies

variable {c c' c'' : Client}

theorem Beside.refl (c : Client) : c.Beside c := ⟨rfl, rfl⟩

theorem Beside.trans (h : c.Beside c') (h' : c'.Beside c'') : c.Beside c'' :=
  ⟨h'.config_eq.trans h.config_eq, h'.chat_eq.trans h.chat_eq⟩

/-- Nothing was sent at all. -/
theorem Beside.of_log (hconfig : c'.config = c.config) (hlog : c'.transport.log = c.transport.log) :
    c.Beside c' :=
  ⟨hconfig, Transport.chatBodies_of_log hlog⟩

theorem beside_send (c : Client) {r : Request} (hr : r.endpoint ≠ .sendChatMessage) :
    c.Beside (c.send r).1 := by
  refine ⟨rfl, ?_⟩
  have hchat := c.transport.chatBodies_request r.endpoint r.body
  rw [if_neg hr, List.append_nil] at hchat
  exact hchat

theorem beside_apply (c : Client) (update : StateUpdate) : c.Beside (c.apply update) :=
  .of_log rfl rfl

theorem beside_deliver (c : Client) (push : Option PushEvent) : c.Beside (c.deliver push) := by
  have hfold : ∀ (updates : List StateUpdate) (c : Client),
      c.Beside (updates.foldl Client.apply c) := by
    intro updates
    induction updates with
    | nil => exact .refl
    | cons update rest ih => exact fun c => (beside_apply c update).trans (ih _)
  unfold deliver
  split
  · exact hfold _ c
  · exact .refl c

end Client

/-! ## Things under way -/

theorem Exchange.beside_step (c : Client) {x : Exchange} (hx : x.isQuiet = true) :
    c.Beside (x.step c).1 ∧ (x.step c).2.isQuiet = true := by
  cases x with
  | identify isActive timeout =>
    rw [step]
    split
    · exact ⟨.refl c, rfl⟩
    · exact ⟨.refl c, rfl⟩
  | build call => exact ⟨.refl c, hx⟩
  | send request => exact ⟨c.beside_send (of_decide_eq_true hx), rfl⟩
  | await endpoint reply => exact ⟨.refl c, rfl⟩
  | done outcome => exact ⟨.refl c, rfl⟩

theorem Claim.isQuiet_afterLookUp (c : Client) (reply : Except ClientError Message) :
    (Claim.afterLookUp c reply).isQuiet = true := by
  unfold afterLookUp
  split
  · rfl
  · split <;> rfl

theorem Claim.beside_step (c : Client) {x : Claim} (hx : x.isQuiet = true) :
    c.Beside (x.step c).1 ∧ (x.step c).2.isQuiet = true := by
  cases x with
  | decide =>
    rw [step]
    dsimp only
    split
    all_goals exact ⟨.of_log rfl rfl, rfl⟩
  | lookUp e =>
    rw [step]
    split
    · exact ⟨.refl c, isQuiet_afterLookUp c _⟩
    · exact Exchange.beside_step c hx
  | store email => exact ⟨.of_log rfl rfl, rfl⟩
  | announce e =>
    rw [step]
    split
    · exact ⟨.refl c, rfl⟩
    · exact Exchange.beside_step c hx
  | done outcome => exact ⟨.refl c, rfl⟩

theorem Upload.beside_step (c : Client) (x : Upload) : c.Beside (x.step c).1 := by
  cases x with
  | announce data filename => exact ⟨rfl, Transport.chatBodies_upload ..⟩
  | readAddress data url reply =>
    rw [step]
    split
    · exact .refl c
    · exact .refl c
  | put data url => exact ⟨rfl, Transport.chatBodies_upload ..⟩
  | readPhoto url reply => exact .refl c
  | done outcome => exact .refl c

theorem Listener.beside_hear (c : Client) (event : TransportEvent) :
    c.Beside (Listener.hear c event).1 := by
  cases event with
  | message raw =>
    rw [hear]
    split
    · exact .refl c
    · exact .refl c
  | _ => exact .of_log rfl rfl

theorem Listener.beside_step (c : Client) (isHeld : Bool) (l : Listener) :
    c.Beside (l.step c isHeld).1 := by
  unfold step
  split
  · split
    · split
      · exact .of_log rfl rfl
      · exact .refl c
    · rename_i event _
      split
      · have htaken : c.Beside (c.takeEvent l.receiver) := .of_log rfl rfl
        exact htaken.trans (beside_hear (c.takeEvent l.receiver) event)
      · exact .of_log rfl rfl
  · split
    · split
      · exact .of_log rfl rfl
      · exact .refl c
    · exact .refl c
  · exact ⟨rfl, Transport.chatBodies_sendMaps ..⟩
  · exact c.beside_deliver _

/-! ## Engines -/

namespace Engine

/-- No errand sends a chat message. -/
def Quiet (e : Engine) : Prop := ∀ p ∈ e.errands, p.2.isQuiet = true

/-- An engine has the outboxes, the directory and the caller of another. -/
structure SameDesk (e e' : Engine) : Prop where
  hasCaller_eq : e'.hasCaller = e.hasCaller
  outboxes_eq : e'.outboxes = e.outboxes
  directory_eq : e'.directory = e.directory
  nextOutbox_eq : e'.nextOutbox = e.nextOutbox

/-- What an action leaves as it was if it has nothing to do with chat messages. -/
structure Aside (e e' : Engine) : Prop where
  desk : e.SameDesk e'
  postings_eq : e'.postings = e.postings
  beside : e.client.Beside e'.client
  quiet : e.Quiet → e'.Quiet

variable {e : Engine}

theorem SameDesk.refl (e : Engine) : e.SameDesk e := ⟨rfl, rfl, rfl, rfl⟩

/-- Only the client is another one. -/
theorem aside_withClient {c : Client} (h : e.client.Beside c) : e.Aside (e.withClient c) :=
  ⟨⟨rfl, rfl, rfl, rfl⟩, rfl, h, fun hquiet => hquiet⟩

theorem aside_dropListener (e : Engine) : e.Aside e.dropListener := by
  unfold dropListener
  split
  · exact ⟨⟨rfl, rfl, rfl, rfl⟩, rfl, .of_log rfl rfl, fun hquiet => hquiet⟩
  · exact ⟨.refl e, rfl, .refl _, fun hquiet => hquiet⟩

theorem aside_stepConnection (e : Engine) (x : Connection) : e.Aside (e.stepConnection x).1 := by
  cases x with
  | reset => exact ⟨⟨rfl, rfl, rfl, rfl⟩, rfl, .of_log rfl rfl, fun hquiet => hquiet⟩
  | listen =>
    have hlog : e.client.transport.listen.1.log = e.client.transport.log := by
      unfold Transport.listen
      split <;> rfl
    rw [stepConnection]
    dsimp only
    split
    all_goals exact ⟨⟨rfl, rfl, rfl, rfl⟩, rfl, .of_log rfl hlog, fun hquiet => hquiet⟩
  | install r =>
    obtain ⟨hdesk, hpostings, hbeside, hquiet⟩ := aside_dropListener e
    exact ⟨⟨hdesk.hasCaller_eq, hdesk.outboxes_eq, hdesk.directory_eq, hdesk.nextOutbox_eq⟩,
      hpostings, hbeside, hquiet⟩
  | done outcome => exact ⟨.refl e, rfl, .refl _, fun hquiet => hquiet⟩

theorem aside_stepErrand {t : Errand} (ht : t.isQuiet = true) :
    e.Aside (e.stepErrand t).1 ∧ (e.stepErrand t).2.isQuiet = true := by
  cases t with
  | exchange x =>
    obtain ⟨hbeside, hquiet⟩ := Exchange.beside_step e.client (x := x) ht
    exact ⟨aside_withClient hbeside, hquiet⟩
  | claim x =>
    obtain ⟨hbeside, hquiet⟩ := Claim.beside_step e.client (x := x) ht
    exact ⟨aside_withClient hbeside, hquiet⟩
  | connect x => exact ⟨aside_stepConnection e x, rfl⟩
  | upload x => exact ⟨aside_withClient (Upload.beside_step e.client x), rfl⟩

theorem quiet_insert {errands : List (Nat × Errand)} (h : ∀ p ∈ errands, p.2.isQuiet = true)
    {n : Nat} {t : Errand} (ht : t.isQuiet = true) :
    ∀ p ∈ Keyed.insert n t errands, p.2.isQuiet = true := by
  intro p hp
  rcases Keyed.mem_of_mem_insert hp with rfl | hp
  · exact ht
  · exact h p hp

/-- A move of anything but an outbox goes on aside. -/
theorem aside_move (he : e.Quiet) {m : Mover} (hm : ∀ n, m ≠ .outbox n) : e.Aside (e.move m) := by
  cases m with
  | listener =>
    rw [move]
    split
    · rename_i l hl
      exact ⟨⟨rfl, rfl, rfl, rfl⟩, rfl, l.beside_step e.client e.isHeld, fun hquiet => hquiet⟩
    · exact ⟨.refl e, rfl, .refl _, fun hquiet => hquiet⟩
  | outbox n => exact absurd rfl (hm n)
  | errand n =>
    rw [move]
    split
    · rename_i t ht
      obtain ⟨⟨hdesk, hpostings, hbeside, hquiet⟩, hstep⟩ :=
        aside_stepErrand (e := e) (he _ (Keyed.mem_of_get?_eq_some ht))
      exact ⟨⟨hdesk.hasCaller_eq, hdesk.outboxes_eq, hdesk.directory_eq, hdesk.nextOutbox_eq⟩,
        hpostings, hbeside, fun h => quiet_insert (hquiet h) hstep⟩
    · exact ⟨.refl e, rfl, .refl _, fun hquiet => hquiet⟩

theorem step_outbox_of_some {n : Nat} {o : Outbox} (h : Keyed.get? n e.outboxes = some o) :
    e.step (.move (.outbox n)) = e.moveOutbox n o := by
  rw [step, move, h]

theorem step_outbox_of_none {n : Nat} (h : Keyed.get? n e.outboxes = none) :
    e.step (.move (.outbox n)) = e := by
  rw [step, move, h]

/-- All that an action can do. -/
inductive Change (e : Engine) : Action → Engine → Prop where
  | post {c : String} {message : OutgoingMessage} {requestId : Nat} (h : e.hasCaller = true) :
    Change e (.post c message requestId) (e.post c message requestId)
  | dropReceipt (ticket : Nat) :
    Change e (.dropReceipt ticket)
      { e with postings := e.postings.modify ticket fun p => { p with receipt := .dropped } }
  | release : Change e .release { e.closeOutboxes with hasCaller := false }
  | outbox {n : Nat} {o : Outbox} (h : Keyed.get? n e.outboxes = some o) :
    Change e (.move (.outbox n)) (e.moveOutbox n o)
  | aside {a : Action} {e' : Engine} (h : e.Aside e') (hevent : e.event? a = none)
    (hposted : Action.posted [a] = []) : Change e a e'

theorem step_cases (he : e.Quiet) {a : Action} (ha : e.permits a) : e.Change a (e.step a) := by
  cases a with
  | post c message requestId => exact .post ha
  | dropReceipt ticket => exact .dropReceipt ticket
  | release => exact .release
  | disconnect => exact ha.elim
  | stop => exact ha.elim
  | start errand =>
    exact .aside ⟨⟨rfl, rfl, rfl, rfl⟩, rfl, .refl _, fun h => quiet_insert h ha.2⟩ rfl rfl
  | move m =>
    cases m with
    | outbox n =>
      cases hn : Keyed.get? n e.outboxes with
      | some o => exact step_outbox_of_some hn ▸ .outbox hn
      | none =>
        rw [step_outbox_of_none hn]
        exact .aside ⟨.refl e, rfl, .refl _, fun h => h⟩ (by rw [event?, hn]; rfl) rfl
    | listener =>
      have hmove : e.Aside (e.move .listener) := aside_move he fun n h => by cases h
      exact .aside hmove rfl rfl
    | errand n =>
      have hmove : e.Aside (e.move (.errand n)) := aside_move he fun k h => by cases h
      exact .aside hmove rfl rfl
  | _ => exact .aside (aside_withClient (.of_log rfl rfl)) rfl rfl

end Engine

end LiteChat
