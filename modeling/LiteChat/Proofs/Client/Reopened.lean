import LiteChat.Proofs.Client.Journal

/-!
# Chat messages after the connection was ended

Ending the connection closes the outboxes, which go on until they have nothing left to send.  A
message that is posted after it opens another outbox, and this one does not wait for the one
before.  If the one before has nothing left to send by then, the messages are sent in the order in
which they were posted (`Engine.recorded_of_renews`).  Otherwise the new outbox can send its
message while one that was posted earlier is still to come (`Engine.overtaken`).
-/

namespace LiteChat

/-- The id under which the service recognises a request for a chat message, in its body. -/
def Json.chatRequestId? : Json → Option Int
  | .array elements =>
    match elements[7]? with
    | some (Json.array (_ :: Json.int id :: _)) => some id
    | _ => none
  | _ => none

theorem Job.chatRequestId?_body (job : Job) (c : String) (config : ClientConfig)
    (id : Option String) :
    ((job.call c).request config id).body.chatRequestId? = some (job.requestId : Int) :=
  rfl

theorem map_chatRequestId? {config : ClientConfig} {c : String} {bodies : List Json}
    {jobs : List Job}
    (h : List.Forall₂ (fun body job => ∃ id, body = ((Job.call job c).request config id).body)
      bodies jobs) :
    bodies.map Json.chatRequestId? = jobs.map fun job => some (job.requestId : Int) := by
  induction h with
  | nil => rfl
  | @cons body job bodies jobs hbody _ ih =>
    obtain ⟨id, rfl⟩ := hbody
    rw [List.map_cons, List.map_cons, ih, job.chatRequestId?_body]

namespace Engine

/-- However often the connection is ended, the requests for a conversation are those of the first
messages posted to it, each of them once and in order, provided that no outbox is opened for it
before the ones that were left behind have nothing left to send. -/
theorem recorded_of_renews {config : ClientConfig} {clock : Clock} {c : String}
    {actions : List Action} {e : Engine}
    (h : (Engine.new config clock).Follows (renews c) actions e) :
    List.Forall₂ (fun body job => ∃ id, body = ((Job.call job c).request config id).body)
      (e.sentTo c) ((Posting.jobsTo c (Action.posted actions)).take (e.sentTo c).length) := by
  obtain ⟨live, -, t, ht⟩ := h.journal.turns
  have hsent := sentTo_eq h.journal.bodies h.journal.addressed c
  rw [hsent, List.length_map, List.forall₂_map_left_iff]
  refine ht.sent.imp ?_
  rintro r job ⟨id, rfl⟩
  exact ⟨id, rfl⟩

/-- A letter whose reply is read before the connection is ended, and another one after it. -/
def resumed : List Action :=
  [.post "a" (.ofText "first") 1, .move (.outbox 0), .move (.outbox 0), .move (.outbox 0),
   .move (.outbox 0), .disconnect, .post "a" (.ofText "second") 2, .move (.outbox 1),
   .move (.outbox 1), .move (.outbox 0), .move (.outbox 1)]

theorem recorded_of_renews_resumed :
    (Engine.new .standard ⟨0⟩).Follows (renews "a") resumed
        ((Engine.new .standard ⟨0⟩).run resumed) ∧
      List.Forall₂ (fun body job => ∃ id, body = ((Job.call job "a").request .standard id).body)
        (((Engine.new .standard ⟨0⟩).run resumed).sentTo "a")
        ((Posting.jobsTo "a" (Action.posted resumed)).take
          (((Engine.new .standard ⟨0⟩).run resumed).sentTo "a").length) := by
  have hfollows : (Engine.new .standard ⟨0⟩).Follows (renews "a") resumed
      ((Engine.new .standard ⟨0⟩).run resumed) := follows_run (by decide +kernel)
  exact ⟨hfollows, recorded_of_renews hfollows⟩

example : (((Engine.new .standard ⟨0⟩).run resumed).sentTo "a").length = 2 := by decide +kernel

/-! ## A message that overtakes another one -/

/-- Two letters, of which the first one is on its way when the connection is ended.  A third one is
sent by an outbox of its own, while the second one still waits in the outbox that was left
behind. -/
def overtaken : List Action :=
  [.post "a" (.ofText "first") 1, .post "a" (.ofText "second") 2, .move (.outbox 0),
   .move (.outbox 0), .move (.outbox 0), .disconnect, .post "a" (.ofText "third") 3,
   .move (.outbox 1), .move (.outbox 1), .move (.outbox 1)]

theorem overtaken_not_recorded :
    (Engine.new .standard ⟨0⟩).Follows (fun e a => a = .disconnect ∨ e.permits a) overtaken
        ((Engine.new .standard ⟨0⟩).run overtaken) ∧
      ¬ List.Forall₂ (fun body job => ∃ id, body = ((Job.call job "a").request .standard id).body)
        (((Engine.new .standard ⟨0⟩).run overtaken).sentTo "a")
        ((Posting.jobsTo "a" (Action.posted overtaken)).take
          (((Engine.new .standard ⟨0⟩).run overtaken).sentTo "a").length) := by
  have hfollows : (Engine.new .standard ⟨0⟩).Follows (fun e a => a = .disconnect ∨ e.permits a)
      overtaken ((Engine.new .standard ⟨0⟩).run overtaken) :=
    follows_run ⟨.inr rfl, .inr rfl, .inr trivial, .inr trivial, .inr trivial, .inl rfl, .inr rfl,
      .inr trivial, .inr trivial, .inr trivial, trivial⟩
  refine ⟨hfollows, fun h => ?_⟩
  -- the ids under which the service recognises the requests give the order away
  have hsent : (((Engine.new .standard ⟨0⟩).run overtaken).sentTo "a").map Json.chatRequestId? =
      [some 1, some 3] := by decide +kernel
  have hposted : ((Posting.jobsTo "a" (Action.posted overtaken)).take
      (((Engine.new .standard ⟨0⟩).run overtaken).sentTo "a").length).map
        (fun job => some (job.requestId : Int)) = [some 1, some 2] := by decide +kernel
  have hids := map_chatRequestId? h
  rw [hsent, hposted] at hids
  exact absurd hids (by decide)

end Engine

end LiteChat
