import LiteChat.Proofs.Client.Lanes

/-!
# What leaves the session alone

The listener, the claims and a connection that starts over work on the session of a client;
the listener alone publishes events and sends maps.  Whatever else an action does, it leaves
the settings, the session, the events and the maps as they were
(`Engine.sameSession_step`).
-/

namespace LiteChat

/-! ## Maps -/

namespace Transport

theorem sentMaps_request (t : Transport) (path : String) (body : Json) :
    (t.request path body).1.sentMaps = t.sentMaps := by
  simp [sentMaps, request, exchange]

theorem sentMaps_upload (t : Transport) (url contentType : String) (data : ByteArray) :
    (t.upload url contentType data).1.sentMaps = t.sentMaps := by
  simp [sentMaps, upload, exchange]

theorem sentMaps_sendMaps (t : Transport) (maps : List ChannelMap) :
    (t.sendMaps maps).sentMaps = t.sentMaps ++ [maps] := by
  simp [sentMaps, sendMaps]

end Transport

/-! ## Clients -/

/-- A client has the settings and the session of another, and has published the same events and
sent the same maps. -/
structure Client.SameSession (c c' : Client) : Prop where
  config_eq : c'.config = c.config
  session_eq : c'.session = c.session
  published_eq : c'.published = c.published
  maps_eq : c'.transport.sentMaps = c.transport.sentMaps

namespace Client.SameSession

variable {c c' c'' : Client}

theorem refl (c : Client) : c.SameSession c := ⟨rfl, rfl, rfl, rfl⟩

theorem symm (h : c.SameSession c') : c'.SameSession c :=
  ⟨h.config_eq.symm, h.session_eq.symm, h.published_eq.symm, h.maps_eq.symm⟩

theorem trans (h : c.SameSession c') (h' : c'.SameSession c'') : c.SameSession c'' :=
  ⟨h'.config_eq.trans h.config_eq, h'.session_eq.trans h.session_eq,
    h'.published_eq.trans h.published_eq, h'.maps_eq.trans h.maps_eq⟩

/-- What time it is makes no difference. -/
theorem withClock (c : Client) (clock : Clock) : c.SameSession { c with clock := clock } :=
  ⟨rfl, rfl, rfl, rfl⟩

end Client.SameSession

/-! ## Things under way -/

theorem Exchange.sameSession_step (c : Client) (x : Exchange) : c.SameSession (x.step c).1 := by
  cases x with
  | identify isActive timeout =>
    rw [step]
    split <;> exact .refl c
  | send request => exact ⟨rfl, rfl, rfl, Transport.sentMaps_request ..⟩
  | _ => exact .refl c

theorem Upload.sameSession_step (c : Client) (x : Upload) : c.SameSession (x.step c).1 := by
  cases x with
  | announce data filename => exact ⟨rfl, rfl, rfl, Transport.sentMaps_upload ..⟩
  | readAddress data url reply =>
    rw [step]
    split <;> exact .refl c
  | put data url => exact ⟨rfl, rfl, rfl, Transport.sentMaps_upload ..⟩
  | _ => exact .refl c

theorem Outbox.sameSession_step (c : Client) (isHeld : Bool) (o : Outbox) :
    c.SameSession (o.step c isHeld).client := by
  unfold step
  split
  · rename_i x _
    have hstep := x.sameSession_step c
    dsimp only
    split <;> exact hstep
  · split
    · split <;> exact .refl c
    · split <;> exact .refl c

/-! ## Engines -/

namespace Engine

theorem sameSession_dropListener (e : Engine) : e.client.SameSession e.dropListener.client := by
  unfold dropListener
  split <;> exact ⟨rfl, rfl, rfl, rfl⟩

/-- Stopping what is under way settles postings, and takes the listener and the outboxes away. -/
theorem stop_eq (e : Engine) :
    ∃ postings, e.stop = { e.dropListener with postings := postings, outboxes := [] } := by
  have hsettle : ∀ (c : String) (tickets : List Nat) (e : Engine), ∃ postings,
      tickets.foldl (fun e t => e.settlePosting t (.error (.outboxClosed c))) e =
        { e with postings := postings } := by
    intro c tickets
    induction tickets with
    | nil => exact fun e => ⟨e.postings, rfl⟩
    | cons t rest ih => exact fun e => ih (e.settlePosting t _)
  have hstop : ∀ (outboxes : List (Nat × Outbox)) (e : Engine), ∃ postings,
      outboxes.foldl (fun e o => e.stopOutbox o.2) e = { e with postings := postings } := by
    intro outboxes
    induction outboxes with
    | nil => exact fun e => ⟨e.postings, rfl⟩
    | cons o rest ih =>
      intro e
      obtain ⟨postings, hfirst⟩ := hsettle o.2.conversation o.2.tickets e
      rw [List.foldl_cons, stopOutbox, hfirst]
      exact ih { e with postings := postings }
  obtain ⟨postings, hall⟩ := hstop e.dropListener.outboxes e.dropListener
  refine ⟨postings, ?_⟩
  rw [stop, hall]

theorem stop_client (e : Engine) : e.stop.client = e.dropListener.client := by
  obtain ⟨postings, hstop⟩ := e.stop_eq
  rw [hstop]

/-- A connection leaves the session alone once it has started over. -/
theorem sameSession_stepConnection (e : Engine) {x : Connection} (hx : x ≠ .reset) :
    e.client.SameSession (e.stepConnection x).1.client := by
  cases x with
  | reset => exact absurd rfl hx
  | listen =>
    have hlisten :
        e.client.SameSession { e.client with transport := e.client.transport.listen.1 } := by
      unfold Transport.listen
      split <;> exact ⟨rfl, rfl, rfl, rfl⟩
    rw [stepConnection]
    dsimp only
    split <;> exact hlisten
  | install r => exact sameSession_dropListener e
  | done outcome => exact .refl _

/-- Whether an action may work on the session. -/
def touches (e : Engine) : Action → Prop
  | .move .listener => True
  | .move (.errand n) =>
    (∃ x, Keyed.get? n e.errands = some (.claim x)) ∨
      Keyed.get? n e.errands = some (.connect .reset)
  | _ => False

/-- Whatever does not work on the session leaves it alone. -/
theorem sameSession_step {e : Engine} {a : Action} (h : ¬ e.touches a) :
    e.client.SameSession (e.step a).client := by
  cases a with
  | post c message requestId =>
    rw [step, (e.post_rest c message requestId).1]
    exact .refl _
  | disconnect => exact sameSession_dropListener e
  | stop =>
    rw [step, stop_client]
    exact sameSession_dropListener e
  | wait span => exact .withClock e.client _
  | move m =>
    cases m with
    | listener => exact absurd trivial h
    | outbox n =>
      rw [step, move]
      split
      · rename_i o _
        rw [(e.moveOutbox_rest n o).1]
        exact o.sameSession_step e.client e.isHeld
      · exact .refl _
    | errand n =>
      rw [step, move]
      split
      · rename_i t ht
        cases t with
        | exchange x => exact x.sameSession_step e.client
        | claim x => exact absurd (Or.inl ⟨x, ht⟩) h
        | connect x =>
          refine sameSession_stepConnection e fun hx => h (Or.inr ?_)
          rw [ht, hx]
        | upload x => exact x.sameSession_step e.client
      · exact .refl _
  | _ => exact ⟨rfl, rfl, rfl, rfl⟩

end Engine

end LiteChat
