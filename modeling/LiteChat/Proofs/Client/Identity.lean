import LiteChat.Proofs.Client.Sending

/-!
# The identity in an announcement

An announcement names the client twice: by the id in its header, and by the id behind the address
in its identity.  The identity is read from the session in one step and the header is made in the
next one, so the two agree if no other id is assigned while a call holds an identity
(`Engine.keepsNamed`).  Then every announcement is named by a session that the client had
(`Engine.named_of_keepsNamed`).  Otherwise the identity can have the id before, and the header the
one after (`Engine.crossed`).
-/

namespace LiteChat

/-! ## Names in a body -/

namespace Json

/-- The client id in the header of a body. -/
def headerId? : Json → Option String
  | .array (.array [_, .array [.string id, _], _, _] :: _) => some id
  | _ => none

/-- The identity in the body of an announcement. -/
def identity? : Json → Option String
  | .array [_, _, .string identity, _] => some identity
  | _ => none

end Json

/-- A body names the client as a session does: the header has its id, and so has the identity,
behind its address. -/
def Session.Names (s : Session) (body : Json) : Prop :=
  ∃ id, s.clientId = some id ∧ body.headerId? = some id ∧
    body.identity? = some (s.email.getD "" ++ "/" ++ id)

namespace Exchange

/-- The identity that a call holds until its body is built. -/
def identity? : Exchange → Option String
  | .build (.setActiveClient _ identity _) => some identity
  | _ => none

/-- What is known of a call under way when the client has an id and has had some sessions: the
identity that it holds is that of one of these with that id, and an announcement that was built
is named by one of them. -/
structure Sound (id : Option String) (sessions : List Session) (x : Exchange) : Prop where
  held : ∀ identity, x.identity? = some identity →
    ∃ s ∈ sessions, s.identity? = some identity ∧ s.clientId = id
  built : ∀ r, x.request? = some r → r.endpoint = .setActiveClient →
    ∃ s ∈ sessions, s.Names r.body

variable {id id' : Option String} {sessions : List Session} {x : Exchange} {c : Client}

theorem sound_of_none (hidentity : x.identity? = none) (hrequest : x.request? = none) :
    x.Sound id sessions where
  held identity h := by
    rw [hidentity] at h
    cases h
  built r h := by
    rw [hrequest] at h
    cases h

/-- Other sessions make no difference, and another id makes none to a call without identity. -/
theorem Sound.mono (h : x.Sound id sessions) (hid : x.identity? = none ∨ id' = id)
    (later : List Session) : x.Sound id' (sessions ++ later) where
  held identity hidentity := by
    rcases hid with hnone | rfl
    · rw [hnone] at hidentity
      cases hidentity
    · obtain ⟨s, hs, hnamed⟩ := h.held identity hidentity
      exact ⟨s, List.mem_append_left _ hs, hnamed⟩
  built r hr hendpoint := by
    obtain ⟨s, hs, hnames⟩ := h.built r hr hendpoint
    exact ⟨s, List.mem_append_left _ hs, hnames⟩

/-- The header has the id that the identity has, if the id has stayed the same since. -/
theorem names_of_identity {s : Session} {isActive : Bool} {identity : String} {timeout : Nat}
    (hidentity : s.identity? = some identity) (config : ClientConfig) :
    s.Names ((Call.setActiveClient isActive identity timeout).request config s.clientId).body := by
  obtain ⟨id, hid, rfl⟩ := Option.map_eq_some_iff.mp hidentity
  exact ⟨id, hid, by rw [hid]; rfl, rfl⟩

/-- A step of a call: the identity is read from the session at hand, and the body is built with
the id at hand. -/
theorem Sound.step (h : x.Sound c.session.clientId sessions) :
    (x.step c).2.Sound c.session.clientId (sessions ++ [c.session]) := by
  cases x with
  | identify isActive timeout =>
    rw [Exchange.step]
    split
    · rename_i identity hidentity
      refine ⟨fun other hother => ?_, fun r hr => ?_⟩
      · cases hother
        exact ⟨c.session, List.mem_append_right _ (List.mem_singleton_self _), hidentity, rfl⟩
      · cases hr
    · exact sound_of_none rfl rfl
  | build call =>
    refine ⟨fun other hother => ?_, fun r hr hendpoint => ?_⟩
    · cases hother
    · cases hr
      cases call with
      | setActiveClient isActive identity timeout =>
        obtain ⟨s, hs, hidentity, hid⟩ := h.held identity rfl
        refine ⟨s, List.mem_append_left _ hs, ?_⟩
        rw [Client.request, ← hid]
        exact names_of_identity hidentity c.config
      | _ => cases hendpoint
  | send request => exact sound_of_none rfl rfl
  | await endpoint reply => exact sound_of_none rfl rfl
  | done outcome => exact sound_of_none rfl rfl

/-- A call that an outbox makes: it sends a chat message. -/
def IsChat : Exchange → Prop
  | .identify .. => False
  | .build call => call.endpoint = .sendChatMessage
  | .send request => request.endpoint = .sendChatMessage
  | _ => True

theorem IsChat.step (h : x.IsChat) : (x.step c).2.IsChat := by
  cases x with
  | identify isActive timeout => exact absurd h id
  | build call => exact h
  | _ => exact trivial

/-- Whether a call has neither an identity nor a body. -/
def isUnnamed (x : Exchange) : Bool := x.identity?.isNone && x.request?.isNone

theorem sound_of_isUnnamed (h : x.isUnnamed = true) : x.Sound id sessions := by
  obtain ⟨hidentity, hrequest⟩ := Bool.and_eq_true_iff.mp h
  exact sound_of_none (Option.isNone_iff_eq_none.mp hidentity)
    (Option.isNone_iff_eq_none.mp hrequest)

end Exchange

/-- The identity that an errand holds. -/
def Errand.identity? (t : Errand) : Option String := t.exchange?.bind Exchange.identity?

namespace Engine

/-! ## Runs -/

/-- The sessions that the client has in a run, one for each action. -/
def sessions (e : Engine) (actions : List Action) : List Session :=
  e.readings (fun e _ => [e.client.session]) actions

/-- Whether an action starts no call that already has an identity or a body. -/
def begins : Action → Prop
  | .start t => t.exchange?.all Exchange.isUnnamed = true
  | _ => True

instance : (a : Action) → Decidable (begins a)
  | .start t => inferInstanceAs (Decidable (t.exchange?.all Exchange.isUnnamed = true))
  | .move _ | .push _ | .close | .layDown .. | .refuse _ | .slow _ | .wait _ | .post ..
  | .dropReceipt _ | .disconnect | .release | .stop => .isTrue trivial

/-- Whether, besides, the client keeps its id while an errand holds an identity. -/
def keepsNamed (e : Engine) (a : Action) : Prop :=
  begins a ∧ ((e.step a).client.session.clientId = e.client.session.clientId ∨
    ∀ p ∈ e.errands, p.2.identity? = none)

instance (e : Engine) (a : Action) : Decidable (e.keepsNamed a) :=
  inferInstanceAs (Decidable (_ ∧ _))

/-- What is known of the calls under way when the client has had some sessions, and of the
announcements that were sent. -/
structure Announced (e : Engine) (sessions : List Session) : Prop where
  errands : ∀ p ∈ e.errands, ∀ x, p.2.exchange? = some x →
    x.Sound e.client.session.clientId sessions
  outboxes : ∀ p ∈ e.outboxes, ∀ x, p.2.exchange? = some x → x.IsChat
  bodies : ∀ body ∈ e.client.transport.requestsTo Endpoint.setActiveClient.path,
    ∃ s ∈ sessions, s.Names body

variable {start e : Engine} {actions : List Action} {a : Action}

/-- An errand that is at a call leaves the session alone. -/
theorem session_move_of_exchange? {n : Nat} {t : Errand} {x : Exchange}
    (ht : Keyed.get? n e.errands = some t) (hx : t.exchange? = some x) :
    (e.step (.move (.errand n))).client.session = e.client.session := by
  have hnothing : t.operations e.client = [] := by
    cases t with
    | claim c =>
      cases c with
      | lookUp y => rfl
      | announce y => rfl
      | _ => cases hx
    | exchange y => rfl
    | _ => cases hx
  rw [session_step, operations, ht, Option.toList_some, List.flatMap_singleton, hnothing]
  rfl

namespace Announced

variable {sessions : List Session}

/-- The calls of errands that do not move. -/
theorem errands_mono (h : e.Announced sessions) (ha : e.keepsNamed a) {p : Nat × Errand}
    (hp : p ∈ e.errands) {x : Exchange} (hx : p.2.exchange? = some x) (later : List Session) :
    x.Sound (e.step a).client.session.clientId (sessions ++ later) := by
  refine (h.errands p hp x hx).mono ?_ later
  rcases ha.2 with hsame | hnone
  · exact Or.inr hsame
  · have hidentity := hnone p hp
    rw [Errand.identity?, hx, Option.bind_some] at hidentity
    exact Or.inl hidentity

/-- The call of the errand that moves. -/
theorem errands_move (h : e.Announced sessions) {n : Nat} {t : Errand}
    (ht : Keyed.get? n e.errands = some t) {x' : Exchange}
    (hx' : (e.stepErrand t).2.exchange? = some x') :
    x'.Sound (e.step (.move (.errand n))).client.session.clientId
      (sessions ++ [e.client.session]) := by
  rcases e.exchange?_stepErrand hx' with ⟨x, hx, rfl⟩ | ⟨isActive, timeout, rfl⟩ | rfl
  · rw [session_move_of_exchange? ht hx]
    exact (h.errands _ (Keyed.mem_of_get?_eq_some ht) x hx).step
  · exact Exchange.sound_of_none rfl rfl
  · exact Exchange.sound_of_none rfl rfl

theorem errands_step (h : e.Announced sessions) (ha : e.keepsNamed a) :
    ∀ p ∈ (e.step a).errands, ∀ x, p.2.exchange? = some x →
      x.Sound (e.step a).client.session.clientId (sessions ++ [e.client.session]) := by
  intro p hp x hx
  rcases e.errands_step_cases a with
    ⟨t, rfl, herrands, -⟩ | ⟨n, t, rfl, ht, herrands, -⟩ | ⟨herrands, -⟩
  · rw [herrands] at hp
    rcases Keyed.mem_of_mem_insert hp with rfl | hp
    · have hunnamed : t.exchange?.all Exchange.isUnnamed = true := ha.1
      rw [hx] at hunnamed
      exact Exchange.sound_of_isUnnamed hunnamed
    · exact h.errands_mono ha hp hx _
  · rw [herrands] at hp
    rcases Keyed.mem_of_mem_insert hp with rfl | hp
    · exact h.errands_move ht hx
    · exact h.errands_mono ha hp hx _
  · rw [herrands] at hp
    exact h.errands_mono ha hp hx _

theorem outboxes_step (h : e.Announced sessions) :
    ∀ p ∈ (e.step a).outboxes, ∀ x, p.2.exchange? = some x → x.IsChat := by
  intro p hp x hx
  rcases exchange?_of_mem_step hp hx with
    ⟨q, hq, hqx⟩ | ⟨q, hq, y, hqy, rfl⟩ | ⟨call, rfl, hcall⟩
  · exact h.outboxes q hq x hqx
  · exact (h.outboxes q hq y hqy).step
  · exact hcall

/-- An announcement that is sent comes from an errand, which has built its body. -/
theorem names_of_sends (h : e.Announced sessions) {r : Request} (hr : e.sends a = some r)
    (hendpoint : r.endpoint = .setActiveClient) : ∃ s ∈ sessions, s.Names r.body := by
  cases a with
  | move m =>
    cases m with
    | listener => cases hr
    | errand n =>
      obtain ⟨x, hx, hrequest⟩ := Option.bind_eq_some_iff.mp hr
      obtain ⟨t, ht, htx⟩ := Option.bind_eq_some_iff.mp hx
      exact (h.errands _ (Keyed.mem_of_get?_eq_some ht) x htx).built r hrequest hendpoint
    | outbox n =>
      obtain ⟨x, hx, hrequest⟩ := Option.bind_eq_some_iff.mp hr
      obtain ⟨o, ho, hox⟩ := Option.bind_eq_some_iff.mp hx
      have hchat := h.outboxes _ (Keyed.mem_of_get?_eq_some ho) x hox
      cases x with
      | send request =>
        cases hrequest
        have hother : r.endpoint = .sendChatMessage := hchat
        rw [hendpoint] at hother
        cases hother
      | _ => cases hrequest
  | _ => cases hr

theorem bodies_step (h : e.Announced sessions) :
    ∀ body ∈ (e.step a).client.transport.requestsTo Endpoint.setActiveClient.path,
      ∃ s ∈ sessions, s.Names body := by
  intro body hbody
  rw [Transport.mem_requestsTo_iff, requests_step] at hbody
  rcases List.mem_append.mp hbody with hbody | hbody
  · exact h.bodies body (Transport.mem_requestsTo_iff.mpr hbody)
  · obtain ⟨r, hr, hentry⟩ := List.mem_map.mp hbody
    have hpath : r.endpoint.path = Endpoint.setActiveClient.path := congrArg Prod.fst hentry
    have hbody : r.body = body := congrArg Prod.snd hentry
    rw [← hbody]
    exact h.names_of_sends (Option.mem_toList.mp hr) (Endpoint.path_injective hpath)

theorem step (h : e.Announced sessions) (ha : e.keepsNamed a) :
    (e.step a).Announced (sessions ++ [e.client.session]) where
  errands := h.errands_step ha
  outboxes := h.outboxes_step
  bodies body hbody := by
    obtain ⟨s, hs, hnames⟩ := h.bodies_step body hbody
    exact ⟨s, List.mem_append_left _ hs, hnames⟩

end Announced

theorem announced_new (config : ClientConfig) (clock : Clock) :
    (Engine.new config clock).Announced [] where
  errands _ hp := absurd hp List.not_mem_nil
  outboxes _ hp := absurd hp List.not_mem_nil
  bodies _ hbody := absurd hbody List.not_mem_nil

theorem Follows.announced {config : ClientConfig} {clock : Clock}
    (h : (Engine.new config clock).Follows keepsNamed actions e) :
    e.Announced ((Engine.new config clock).sessions actions) := by
  induction h with
  | refl => exact announced_new config clock
  | next h ha ih =>
    rw [sessions, h.readings_next]
    exact ih.step ha

/-- **An announcement names one client.**  However calls, claims, pushes and everything else take
turns, if the client keeps its id while an errand holds an identity, then the id in the header of
every announcement is the one behind the address in its identity: both are those of a session that
the client had. -/
theorem named_of_keepsNamed {config : ClientConfig} {clock : Clock}
    (h : (Engine.new config clock).Follows keepsNamed actions e) :
    ∀ body ∈ e.client.transport.requestsTo Endpoint.setActiveClient.path,
      ∃ s ∈ (Engine.new config clock).sessions actions, s.Names body :=
  h.announced.bodies

/-- The client is connected, and is assigned an id. -/
def opening : List Action :=
  [.start (.connect .reset), .move (.errand 0), .move (.errand 0), .move (.errand 0),
   .push (.assigning "first"), .move .listener, .move .listener, .move .listener, .move .listener]

/-- A claim, and another id that is assigned while it looks up the account, which fails; and a
third id once the body of the announcement is built. -/
def uncrossed : List Action :=
  opening ++
    [.layDown Endpoint.getSelfInfo.path (.failure "timed out"), .start (.claim .decide),
     .move (.errand 1), .push (.assigning "second"), .move .listener, .move .listener,
     .move .listener, .move .listener, .move (.errand 1), .move (.errand 1), .move (.errand 1),
     .move (.errand 1), .move (.errand 1), .move (.errand 1), .push (.assigning "third"),
     .move .listener, .move .listener, .move (.errand 1)]

theorem named_of_keepsNamed_uncrossed :
    (Engine.new .standard ⟨0⟩).Follows keepsNamed uncrossed
        ((Engine.new .standard ⟨0⟩).run uncrossed) ∧
      ∀ body ∈ ((Engine.new .standard ⟨0⟩).run uncrossed).client.transport.requestsTo
          Endpoint.setActiveClient.path,
        ∃ s ∈ (Engine.new .standard ⟨0⟩).sessions uncrossed, s.Names body := by
  have hfollows : (Engine.new .standard ⟨0⟩).Follows keepsNamed uncrossed
      ((Engine.new .standard ⟨0⟩).run uncrossed) := follows_run (by decide +kernel)
  exact ⟨hfollows, named_of_keepsNamed hfollows⟩

example : (((Engine.new .standard ⟨0⟩).run uncrossed).client.transport.requestsTo
    Endpoint.setActiveClient.path).map Json.headerId? = [some "second"] := by
  decide +kernel

/-! ## An announcement that names two clients -/

/-- An announcement, and another id that is assigned after the identity is read and before the
body is built. -/
def crossed : List Action :=
  opening ++
    [.start (.exchange (.identify true 120)), .move (.errand 1), .push (.assigning "second"),
     .move .listener, .move .listener, .move (.errand 1), .move (.errand 1)]

theorem crossed_not_named :
    (Engine.new .standard ⟨0⟩).Follows (fun _ a => begins a) crossed
        ((Engine.new .standard ⟨0⟩).run crossed) ∧
      ∃ body ∈ ((Engine.new .standard ⟨0⟩).run crossed).client.transport.requestsTo
          Endpoint.setActiveClient.path,
        body.headerId? = some "second" ∧ body.identity? = some "/first" ∧
          ∀ s : Session, ¬ s.Names body := by
  have hrequests : ((Engine.new .standard ⟨0⟩).run crossed).client.transport.requestsTo
      Endpoint.setActiveClient.path =
      [((Call.setActiveClient true "/first" 120).request .standard (some "second")).body] := rfl
  rw [hrequests]
  refine ⟨follows_run (by decide +kernel), _, List.mem_singleton_self _, rfl, rfl, ?_⟩
  rintro s ⟨id, -, hheader, hidentity⟩
  cases hheader
  -- the identity is too short to end in the id of the header
  have hlength : 6 = (s.email.getD "" ++ "/" ++ "second").length :=
    congrArg String.length (Option.some.inj hidentity)
  have hsecond : "second".length = 6 := rfl
  have hslash : "/".length = 1 := rfl
  rw [String.length_append, String.length_append, hsecond, hslash] at hlength
  omega

end Engine

end LiteChat
