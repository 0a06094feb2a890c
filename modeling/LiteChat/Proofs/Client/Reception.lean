import Mathlib.Data.List.Induction
import LiteChat.Client.Listener
import LiteChat.Proofs.Client.Untouched
import LiteChat.Proofs.Service.Tags

/-!
# What pushed events come to

An event that is pushed holds at most a client id and a batch of state updates, and each of
the two counts whether or not the other one can be read (`TransportEvent.clientId?`,
`TransportEvent.updates`).  What events come to, one after another and each worked off at once
(`Client.absorb`), is said by what they hold (`Demultiplexed`): which events are published and
which maps are sent, and what becomes of the session.  That a listener with other things going
on beside it comes to the same is the matter of the next module.
-/

namespace LiteChat

/-! ## What an event holds -/

namespace TransportEvent

/-- The members of the envelope in a pushed array, unless the array is empty, keeps the channel
alive, or has no proper wrapper. -/
def members? : TransportEvent → Option (List (String × Json))
  | .message (.string "noop" :: _) => none
  | .message (first :: _) => (Envelope.unwrap first).toOption
  | _ => none

/-- The client id that an event brings, if tag 3 of its envelope can be read. -/
def clientId? (event : TransportEvent) : Option String :=
  event.members?.bind fun members =>
    (Keyed.get? Tag.clientId.key members).bind fun tag => (Envelope.decodeClientId tag).toOption

/-- The payload that an event brings, if tag 2 of its envelope can be read. -/
def push? (event : TransportEvent) : Option PushEvent :=
  event.members?.bind fun members =>
    (Keyed.get? Tag.payload.key members).bind fun tag =>
      (Envelope.decodePush Service.schema tag).toOption

/-- The JSON array in tag 2 of the envelope of an event. -/
def payload? (event : TransportEvent) : Option Json :=
  event.members?.bind fun members =>
    (Keyed.get? Tag.payload.key members).bind fun tag =>
      (Envelope.innerText? tag).bind Json.ofText?

/-- The state updates that an event brings. -/
def updates (event : TransportEvent) : List StateUpdate :=
  match event.push? with
  | some (.batch updates) => updates
  | _ => []

/-- What subscribers are told of an event. -/
def news : TransportEvent → List ClientEvent
  | .connected => [.connected]
  | .reconnected => [.reconnected]
  | .disconnected => [.disconnected]
  | .message raw => (message raw).updates.map .stateUpdate

/-- The array that assigns an id and brings nothing else. -/
def assigning (id : String) : TransportEvent :=
  .message [.object [("3", .object [("2", .string id)])]]

end TransportEvent

/-- An array that is dropped: it is empty, it only keeps the channel alive, its wrapper is bad, or
it has tags and none that can be read. -/
inductive Dropped : List Json → Prop where
  | empty : Dropped []
  | noop (rest : List Json) : Dropped (.string "noop" :: rest)
  | badWrapper {first : Json} {e : PayloadError} (h : Envelope.unwrap first = .error e)
    (rest : List Json) : Dropped (first :: rest)
  | rejected {first : Json} {members : List (String × Json)}
    (h : Envelope.unwrap first = .ok members)
    (htag : ∃ tag : Tag, (Keyed.get? tag.key members).isSome = true)
    (hid : ∀ tag, Keyed.get? Tag.clientId.key members = some tag →
      ∃ e, Envelope.decodeClientId tag = .error e)
    (hpush : ∀ tag, Keyed.get? Tag.payload.key members = some tag →
      ∃ e, Envelope.decodePush Service.schema tag = .error e)
    (rest : List Json) : Dropped (first :: rest)

/-- The ids, among those that events bring, that differ from the one held just before. -/
def newIds : Option String → List TransportEvent → List String
  | _, [] => []
  | held, event :: rest =>
    match event.clientId? with
    | some id => (if held = some id then [] else [id]) ++ newIds (some id) rest
    | none => newIds held rest

/-- The id that is held after events. -/
def heldId (held : Option String) (events : List TransportEvent) : Option String :=
  ((events.filterMap TransportEvent.clientId?).getLast?).or held

/-- The activity after events: what the last update says that says anything known. -/
def heldActivity (held : Activity) (events : List TransportEvent) : Activity :=
  ((((events.flatMap TransportEvent.updates).filterMap
    StateUpdate.activeClientState?).getLast?).map Activity.ofRemote).getD held

theorem heldId_append (held : Option String) (events later : List TransportEvent) :
    heldId held (events ++ later) = heldId (heldId held events) later := by
  rw [heldId, heldId, heldId, List.filterMap_append, List.getLast?_append, Option.or_assoc]

theorem heldActivity_append (held : Activity) (events later : List TransportEvent) :
    heldActivity held (events ++ later) = heldActivity (heldActivity held events) later := by
  rw [heldActivity, heldActivity, heldActivity, List.flatMap_append, List.filterMap_append,
    List.getLast?_append]
  cases ((later.flatMap TransportEvent.updates).filterMap
    StateUpdate.activeClientState?).getLast? <;> rfl

theorem newIds_append (held : Option String) (events later : List TransportEvent) :
    newIds held (events ++ later) = newIds held events ++ newIds (heldId held events) later := by
  induction events generalizing held with
  | nil => rfl
  | cons event rest ih =>
    have hheld : heldId held (event :: rest) = heldId (heldId held [event]) rest :=
      heldId_append held [event] rest
    rw [List.cons_append, newIds, newIds, hheld]
    cases hid : event.clientId? with
    | some id =>
      have hone : heldId held [event] = some id := by simp [heldId, hid]
      rw [hone]
      dsimp only
      rw [ih, List.append_assoc]
    | none =>
      have hone : heldId held [event] = held := by simp [heldId, hid]
      rw [hone]
      exact ih held

/-! ## Envelopes -/

theorem TransportEvent.members?_cons {first : Json} (h : first ≠ .string "noop")
    (rest : List Json) :
    (TransportEvent.message (first :: rest)).members? = (Envelope.unwrap first).toOption := by
  unfold members?
  split
  · rename_i heq
    cases heq
    exact absurd rfl h
  · rename_i heq
    cases heq
    rfl
  · rename_i hno
    exact absurd rfl (hno first rest)

/-- The envelope of a pushed array is made of its members. -/
theorem Envelope.ofPush?_eq (raw : List Json) :
    ofPush? raw = (TransportEvent.message raw).members?.bind fun members =>
      if (ofMembers Service.schema members).isRejected then none
      else some (ofMembers Service.schema members) := by
  cases raw with
  | nil => rfl
  | cons first rest =>
    by_cases hnoop : first = .string "noop"
    · rw [hnoop]
      rfl
    · rw [TransportEvent.members?_cons hnoop, ofPush?, decode]
      · cases unwrap first <;> rfl
      · exact hnoop

/-- An envelope that is let through has what the tags bring, and one that is not has nothing. -/
theorem Envelope.ofPush?_cases (raw : List Json) :
    (ofPush? raw = none ∧ (TransportEvent.message raw).clientId? = none ∧
        (TransportEvent.message raw).push? = none) ∨
      ∃ e, ofPush? raw = some e ∧ e.clientId = (TransportEvent.message raw).clientId? ∧
        e.push = (TransportEvent.message raw).push? := by
  rw [ofPush?_eq, TransportEvent.clientId?, TransportEvent.push?]
  cases (TransportEvent.message raw).members? with
  | none => exact Or.inl ⟨rfl, rfl, rfl⟩
  | some members =>
    rw [Option.bind_some, Option.bind_some, Option.bind_some, ← readTag_fst, ← readTag_fst]
    split
    · rename_i hrejected
      refine Or.inl ⟨rfl, ?_⟩
      have hnone := (Bool.and_eq_true_iff.mp hrejected).1
      simpa [ofMembers] using hnone
    · exact Or.inr ⟨_, rfl, rfl, rfl⟩

theorem TransportEvent.forall₂_push? {event : TransportEvent} {updates : List StateUpdate}
    (h : event.push? = some (.batch updates)) :
    ∃ payload batch, event.payload? = some payload ∧
      Lite.decode Service.schema "BatchUpdate" .discriminated payload = .ok batch ∧
      List.Forall₂ (fun m u => StateUpdate.ofMessage m = .ok u)
        ((batch.elements "state_update").filterMap Value.message?) updates := by
  obtain ⟨members, hmembers, h⟩ := Option.bind_eq_some_iff.mp h
  obtain ⟨tag, htag, h⟩ := Option.bind_eq_some_iff.mp h
  cases hdecode : Envelope.decodePush Service.schema tag with
  | error e => simp [hdecode, Except.toOption] at h
  | ok push =>
    simp only [hdecode, Except.toOption, Option.some.injEq] at h
    subst h
    obtain ⟨text, payload, htext, hpayload, hbatch⟩ := Envelope.decodePush_eq_ok_iff.mp hdecode
    rcases hbatch with ⟨updates', hpush, hbatch⟩ | ⟨discriminator, hpush, -⟩
    · cases hpush
      obtain ⟨batch, hread, hentries⟩ := Envelope.forall₂_decodeBatch hbatch
      refine ⟨payload, batch, ?_, hread, hentries⟩
      rw [payload?, hmembers, Option.bind_some, htag, Option.bind_some,
        Envelope.innerText?_eq_some_iff.mpr htext, Option.bind_some, hpayload]
    · cases hpush

theorem Dropped.ofPush? {raw : List Json} (h : Dropped raw) : Envelope.ofPush? raw = none := by
  cases h with
  | empty => rfl
  | noop rest => rfl
  | badWrapper h rest =>
    unfold Envelope.ofPush?
    split
    · rfl
    · rfl
    · rename_i heq
      cases heq
      simp [Envelope.decode, h, Except.map]
  | @rejected first members h htag hid hpush rest =>
    have hnoop : first ≠ .string "noop" := by
      rintro rfl
      cases h
    obtain ⟨hnoId, hbadId⟩ := Envelope.readTag_of_error hid
    obtain ⟨hnoPush, hbadPush⟩ := Envelope.readTag_of_error hpush
    have hrejected : (Envelope.ofMembers Service.schema members).isRejected = true := by
      have hmembers : Envelope.ofMembers Service.schema members =
          ⟨(Envelope.readTag .clientId members Envelope.decodeClientId).1,
            (Envelope.readTag .payload members (Envelope.decodePush Service.schema)).1,
            (Envelope.readTag .clientId members Envelope.decodeClientId).2 ++
              (Envelope.readTag .payload members (Envelope.decodePush Service.schema)).2⟩ := rfl
      rw [hmembers, Envelope.isRejected, hnoId, hnoPush]
      simp only [Option.isNone_none, Bool.true_and, Bool.not_eq_true', List.isEmpty_eq_false_iff,
        ne_eq, List.append_eq_nil_iff, hbadId, hbadPush]
      rintro ⟨hno, hno'⟩
      obtain ⟨tag, htag⟩ := htag
      cases tag with
      | clientId => simp [hno] at htag
      | payload => simp [hno'] at htag
    rw [Envelope.ofPush?_eq, TransportEvent.members?_cons hnoop, h]
    exact if_pos hrejected

/-! ## Events worked off at once -/

namespace Client

/-- The client after the rest of an event that a listener is at. -/
def finish (c : Client) : Hearing → Client
  | .waiting => c
  | .observing envelope =>
    match envelope.clientId with
    | some id =>
      if c.session.isNew id then (c.observe id).subscribe.deliver envelope.push
      else c.deliver envelope.push
    | none => c.deliver envelope.push
  | .subscribing push => c.subscribe.deliver push
  | .delivering push => c.deliver push

/-- The client after an event as a whole. -/
def absorb (c : Client) (event : TransportEvent) : Client :=
  (Listener.hear c event).1.finish (Listener.hear c event).2

/-- A batch is published in its order, and its last word on who is active counts. -/
theorem deliver_batch (c : Client) (updates : List StateUpdate) :
    c.deliver (some (.batch updates)) =
      { c with
        session := { c.session with
          activity := (((updates.filterMap StateUpdate.activeClientState?).getLast?).map
            Activity.ofRemote).getD c.session.activity }
        published := c.published ++ updates.map .stateUpdate } := by
  rw [deliver]
  induction updates using List.reverseRec with
  | nil => simp
  | append_singleton updates update ih =>
    rw [List.foldl_append, ih, List.foldl_cons, List.foldl_nil, apply]
    cases hstate : update.activeClientState? <;> simp [hstate, Session.heed]

end Client

/-! ## What events come to -/

/-- What a client has become by the events that came one after another. -/
structure Demultiplexed (before after : Client) (events : List TransportEvent) : Prop where
  config : after.config = before.config
  /-- One event of the channel each is published as it is, and of a pushed array every update that
  it brings, in the order of its batch. -/
  published : after.published = before.published ++ events.flatMap TransportEvent.news
  /-- The channel has been subscribed once for each id that differs from the one held before. -/
  sentMaps : after.transport.sentMaps = before.transport.sentMaps ++
    (newIds before.session.clientId events).map fun _ => [subscription before.config.serviceName]
  /-- The id is the last one that came. -/
  clientId : after.session.clientId = heldId before.session.clientId events
  /-- The last word on who is active counts. -/
  activity : after.session.activity = heldActivity before.session.activity events
  email : after.session.email = before.session.email
  lastActive : after.session.lastActive = before.session.lastActive

namespace Demultiplexed

variable {c c' c'' : Client} {events later : List TransportEvent}

theorem nil (c : Client) : Demultiplexed c c [] := by
  refine ⟨rfl, ?_, ?_, rfl, rfl, rfl, rfl⟩
  · exact (List.append_nil _).symm
  · exact (List.append_nil _).symm

theorem append (h : Demultiplexed c c' events) (h' : Demultiplexed c' c'' later) :
    Demultiplexed c c'' (events ++ later) where
  config := h'.config.trans h.config
  published := by rw [h'.published, h.published, List.flatMap_append, List.append_assoc]
  sentMaps := by
    rw [h'.sentMaps, h.sentMaps, h.clientId, h.config, newIds_append, List.map_append,
      List.append_assoc]
  clientId := by rw [h'.clientId, h.clientId, heldId_append]
  activity := by rw [h'.activity, h.activity, heldActivity_append]
  email := h'.email.trans h.email
  lastActive := h'.lastActive.trans h.lastActive

/-- An event of the channel is published, and that is all. -/
theorem publish (c : Client) {event : TransportEvent} {news : ClientEvent}
    (hnews : event.news = [news]) (hid : event.clientId? = none) (hupdates : event.updates = []) :
    Demultiplexed c (c.publish news) [event] := by
  refine ⟨rfl, ?_, ?_, ?_, ?_, rfl, rfl⟩
  · rw [List.flatMap_singleton, hnews, Client.publish]
  · simp [newIds, hid, Client.publish]
  · simp [heldId, hid, Client.publish]
  · simp [heldActivity, hupdates, Client.publish]

/-- What an envelope brings, each part by itself. -/
theorem observing (c : Client) {event : TransportEvent} {envelope : Envelope}
    (hnews : event.news = event.updates.map .stateUpdate)
    (hid : envelope.clientId = event.clientId?) (hpush : envelope.push = event.push?) :
    Demultiplexed c (c.finish (.observing envelope)) [event] := by
  have hupdates : ∀ c : Client, c.deliver envelope.push =
      { c with
        session := { c.session with activity := heldActivity c.session.activity [event] }
        published := c.published ++ event.updates.map .stateUpdate } := by
    intro c
    rw [hpush, heldActivity, List.flatMap_singleton, TransportEvent.updates]
    cases event.push? with
    | none => simp [Client.deliver]
    | some push =>
      cases push with
      | ignored discriminator => simp [Client.deliver]
      | batch updates => exact c.deliver_batch updates
  have hpublished : [event].flatMap TransportEvent.news = event.updates.map .stateUpdate := by
    rw [List.flatMap_singleton, hnews]
  rw [Client.finish, hid]
  cases hevent : event.clientId? with
  | none =>
    rw [hupdates]
    refine ⟨rfl, ?_, ?_, ?_, rfl, rfl, rfl⟩
    · rw [hpublished]
    · simp [newIds, hevent]
    · simp [heldId, hevent]
  | some id =>
    have hheld : heldId c.session.clientId [event] = some id := by simp [heldId, hevent]
    dsimp only
    split
    · rename_i hnew
      have hmaps : newIds c.session.clientId [event] = [id] := by
        simpa [newIds, hevent, Session.isNew] using hnew
      rw [hupdates]
      refine ⟨rfl, ?_, ?_, hheld.symm, rfl, rfl, rfl⟩
      · rw [hpublished]
        rfl
      · rw [hmaps]
        exact Transport.sentMaps_sendMaps ..
    · rename_i hold
      have hsame : c.session.clientId = some id := by simpa [Session.isNew] using hold
      rw [hupdates]
      refine ⟨rfl, ?_, ?_, ?_, rfl, rfl, rfl⟩
      · rw [hpublished]
      · simp [newIds, hevent, hsame]
      · rw [hheld]
        exact hsame

theorem absorb (c : Client) (event : TransportEvent) :
    Demultiplexed c (c.absorb event) [event] := by
  cases event with
  | message raw =>
    rw [Client.absorb, Listener.hear]
    rcases Envelope.ofPush?_cases raw with ⟨hdropped, hid, hpush⟩ | ⟨envelope, hpushed, hid, hpush⟩
    · rw [hdropped]
      refine ⟨rfl, ?_, ?_, ?_, ?_, rfl, rfl⟩
      · simp [TransportEvent.news, TransportEvent.updates, hpush, Client.finish]
      · simp [newIds, hid, Client.finish]
      · simp [heldId, hid, Client.finish]
      · simp [heldActivity, TransportEvent.updates, hpush, Client.finish]
    · rw [hpushed]
      exact observing c rfl hid hpush
  | _ => exact publish c rfl rfl rfl

/-- Events that come one after another, each worked off at once. -/
theorem absorb_all (c : Client) (events : List TransportEvent) :
    Demultiplexed c (events.foldl Client.absorb c) events := by
  induction events generalizing c with
  | nil => exact nil c
  | cons event rest ih => exact (absorb c event).append (ih (c.absorb event))

/-- The rest of the client makes no difference. -/
theorem of_sameSession (h : Demultiplexed c c' events) (hsame : c'.SameSession c'') :
    Demultiplexed c c'' events where
  config := hsame.config_eq.trans h.config
  published := hsame.published_eq.trans h.published
  sentMaps := hsame.maps_eq.trans h.sentMaps
  clientId := by rw [hsame.session_eq, h.clientId]
  activity := by rw [hsame.session_eq, h.activity]
  email := by rw [hsame.session_eq, h.email]
  lastActive := by rw [hsame.session_eq, h.lastActive]

end Demultiplexed

end LiteChat
