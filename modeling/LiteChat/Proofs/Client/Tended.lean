import LiteChat.Proofs.Client.Unheld

/-!
# Outboxes that are left behind

When the connection is ended, the directory is emptied, and the next message to a conversation
opens another outbox beside the one that was left behind.  A conversation may then have several
outboxes.  It is *tended* by one of them if the others have nothing left to send
(`Engine.Tended`), and what is left for the conversation is on the lane of that one
(`Engine.laneAt`).  This module says what becomes of it when an outbox is replaced, taken away or
added, and when all of them are closed.
-/

namespace LiteChat

namespace Engine

/-- What the directory and the outboxes can be relied on for, whether or not the connection has
been ended. -/
structure Filed (e : Engine) : Prop where
  sorted : Keyed.Sorted e.outboxes
  /-- The next number is free. -/
  fresh : ∀ p ∈ e.outboxes, p.1 < e.nextOutbox
  recent : ∀ c n, Keyed.get? c e.directory = some n → n < e.nextOutbox
  /-- An outbox in the directory is one of the conversation that it is listed for. -/
  directed : ∀ c n o, Keyed.get? c e.directory = some n → (n, o) ∈ e.outboxes → o.conversation = c

/-- Of the outboxes of a conversation, only the one of a number may have something left to send,
and messages are posted to no other one. -/
structure Tended (e : Engine) (c : String) (live : Option Nat) : Prop where
  old : ∀ n, live = some n → n < e.nextOutbox
  home : ∀ n o, live = some n → (n, o) ∈ e.outboxes → o.conversation = c
  idle : ∀ n o, (n, o) ∈ e.outboxes → o.conversation = c → live ≠ some n → o.lane = .empty
  listed : ∀ n o, Keyed.get? c e.directory = some n → (n, o) ∈ e.outboxes → live = some n

/-- The lane in the outbox of a number, on which nothing is if there is no such outbox. -/
def laneAt (e : Engine) (live : Option Nat) : Lane :=
  ((live.bind fun n => Keyed.get? n e.outboxes).map Outbox.lane).getD .empty

variable {e e' : Engine} {c : String} {live : Option Nat} {k : Nat} {o o' : Outbox}

theorem filed_new (config : ClientConfig) (clock : Clock) : (Engine.new config clock).Filed where
  sorted := List.Pairwise.nil
  fresh := fun _ hp => absurd hp List.not_mem_nil
  recent := fun _ _ hn => by cases hn
  directed := fun _ _ _ hn => by cases hn

theorem tended_new (config : ClientConfig) (clock : Clock) (c : String) :
    (Engine.new config clock).Tended c none where
  old := fun _ hn => by cases hn
  home := fun _ _ hn => by cases hn
  idle := fun _ _ ho => absurd ho List.not_mem_nil
  listed := fun _ _ hn => by cases hn

theorem Filed.get?_eq (h : e.Filed) (ho : (k, o) ∈ e.outboxes) :
    Keyed.get? k e.outboxes = some o :=
  (Keyed.get?_eq_some_iff h.sorted).mpr ho

theorem Filed.laneAt_self (h : e.Filed) (ho : (k, o) ∈ e.outboxes) :
    e.laneAt (some k) = o.lane := by
  rw [laneAt, Option.bind_some, h.get?_eq ho]
  rfl

theorem Filed.of_sameDesk (h : e.Filed) (hdesk : e.SameDesk e') : e'.Filed := by
  obtain ⟨-, houtboxes, hdirectory, hnext⟩ := hdesk
  refine ⟨?_, ?_, ?_, ?_⟩
  · rw [houtboxes]
    exact h.sorted
  · rw [houtboxes, hnext]
    exact h.fresh
  · rw [hdirectory, hnext]
    exact h.recent
  · rw [hdirectory, houtboxes]
    exact h.directed

theorem Tended.of_sameDesk (h : e.Tended c live) (hdesk : e.SameDesk e') : e'.Tended c live := by
  obtain ⟨-, houtboxes, hdirectory, hnext⟩ := hdesk
  refine ⟨?_, ?_, ?_, ?_⟩
  · rw [hnext]
    exact h.old
  · rw [houtboxes]
    exact h.home
  · rw [houtboxes]
    exact h.idle
  · rw [hdirectory, houtboxes]
    exact h.listed

theorem SameDesk.laneAt_eq (h : e.SameDesk e') (live : Option Nat) :
    e'.laneAt live = e.laneAt live := by
  rw [laneAt, laneAt, h.outboxes_eq]

/-! ## An outbox in place of another -/

theorem Filed.mem_replaceOutbox_iff (h : e.Filed) {n : Nat} {b : Outbox} :
    (n, b) ∈ (e.replaceOutbox k o').outboxes ↔ (n = k ∧ b = o') ∨ (n ≠ k ∧ (n, b) ∈ e.outboxes) :=
  Keyed.mem_insert_iff h.sorted

theorem Filed.replaceOutbox (h : e.Filed) (ho : (k, o) ∈ e.outboxes)
    (hconv : o'.conversation = o.conversation) : (e.replaceOutbox k o').Filed where
  sorted := Keyed.sorted_insert h.sorted k o'
  fresh := by
    intro p hp
    rcases Keyed.mem_of_mem_insert hp with rfl | hp
    · exact h.fresh (k, o) ho
    · exact h.fresh p hp
  recent := h.recent
  directed := by
    intro c n b hn hb
    rcases h.mem_replaceOutbox_iff.mp hb with ⟨rfl, rfl⟩ | ⟨-, hb⟩
    · exact hconv.trans (h.directed c n o hn ho)
    · exact h.directed c n b hn hb

theorem Tended.replaceOutbox (h : e.Tended c live) (hfiled : e.Filed) (ho : (k, o) ∈ e.outboxes)
    (hconv : o'.conversation = o.conversation)
    (hidle : o.conversation = c → live ≠ some k → o'.lane = .empty) :
    (e.replaceOutbox k o').Tended c live where
  old := h.old
  home := by
    intro n b hlive hb
    rcases hfiled.mem_replaceOutbox_iff.mp hb with ⟨rfl, rfl⟩ | ⟨-, hb⟩
    · exact hconv.trans (h.home n o hlive ho)
    · exact h.home n b hlive hb
  idle := by
    intro n b hb hc hlive
    rcases hfiled.mem_replaceOutbox_iff.mp hb with ⟨rfl, rfl⟩ | ⟨-, hb⟩
    · exact hidle (hconv.symm.trans hc) hlive
    · exact h.idle n b hb hc hlive
  listed := by
    intro n b hn hb
    rcases hfiled.mem_replaceOutbox_iff.mp hb with ⟨rfl, rfl⟩ | ⟨-, hb⟩
    · exact h.listed n o hn ho
    · exact h.listed n b hn hb

theorem laneAt_replaceOutbox_self (e : Engine) (k : Nat) (o' : Outbox) :
    (e.replaceOutbox k o').laneAt (some k) = o'.lane := by
  rw [laneAt, Option.bind_some, Engine.replaceOutbox, Keyed.get?_insert_self]
  rfl

theorem laneAt_replaceOutbox_of_ne (h : live ≠ some k) (e : Engine) (o' : Outbox) :
    (e.replaceOutbox k o').laneAt live = e.laneAt live := by
  cases live with
  | none => rfl
  | some n =>
    have hne : n ≠ k := fun heq => h (congrArg some heq)
    rw [laneAt, laneAt, Option.bind_some, Option.bind_some, Engine.replaceOutbox,
      Keyed.get?_insert_of_ne hne]

/-! ## An outbox that is taken away -/

theorem Filed.eraseOutbox (h : e.Filed) (k : Nat) : (e.eraseOutbox k).Filed where
  sorted := Keyed.sorted_erase h.sorted k
  fresh := fun p hp => h.fresh p (Keyed.mem_erase_iff.mp hp).2
  recent := h.recent
  directed := fun c n b hn hb => h.directed c n b hn (Keyed.mem_erase_iff.mp hb).2

theorem Tended.eraseOutbox (h : e.Tended c live) (k : Nat) : (e.eraseOutbox k).Tended c live where
  old := h.old
  home := fun n b hlive hb => h.home n b hlive (Keyed.mem_erase_iff.mp hb).2
  idle := fun n b hb => h.idle n b (Keyed.mem_erase_iff.mp hb).2
  listed := fun n b hn hb => h.listed n b hn (Keyed.mem_erase_iff.mp hb).2

theorem laneAt_eraseOutbox_self (e : Engine) (k : Nat) :
    (e.eraseOutbox k).laneAt (some k) = .empty := by
  rw [laneAt, Option.bind_some, Engine.eraseOutbox, Keyed.get?_erase_self]
  rfl

theorem laneAt_eraseOutbox_of_ne (h : live ≠ some k) (e : Engine) :
    (e.eraseOutbox k).laneAt live = e.laneAt live := by
  cases live with
  | none => rfl
  | some n =>
    have hne : n ≠ k := fun heq => h (congrArg some heq)
    rw [laneAt, laneAt, Option.bind_some, Option.bind_some, Engine.eraseOutbox,
      Keyed.get?_erase_of_ne hne]

/-! ## A new outbox -/

theorem Filed.mem_addOutbox_iff (h : e.Filed) {n : Nat} {b : Outbox} :
    (n, b) ∈ (e.addOutbox o).outboxes ↔ (n = e.nextOutbox ∧ b = o) ∨ (n, b) ∈ e.outboxes := by
  refine (Keyed.mem_insert_iff h.sorted).trans ?_
  exact or_congr_right (and_iff_right_of_imp fun hb => (h.fresh _ hb).ne)

theorem Filed.addOutbox (h : e.Filed) (o : Outbox) : (e.addOutbox o).Filed where
  sorted := Keyed.sorted_insert h.sorted _ _
  fresh := by
    rintro ⟨n, b⟩ hb
    rcases h.mem_addOutbox_iff.mp hb with ⟨rfl, -⟩ | hb
    · exact Nat.lt_succ_self e.nextOutbox
    · exact Nat.lt_succ_of_lt (h.fresh _ hb)
  recent := by
    intro c n hn
    rw [Engine.addOutbox] at hn ⊢
    dsimp only at hn ⊢
    by_cases hc : c = o.conversation
    · rw [hc, Keyed.get?_insert_self] at hn
      rw [← Option.some.inj hn]
      exact Nat.lt_succ_self _
    · rw [Keyed.get?_insert_of_ne hc] at hn
      exact Nat.lt_succ_of_lt (h.recent c n hn)
  directed := by
    intro c n b hn hb
    rw [Engine.addOutbox] at hn
    dsimp only at hn
    by_cases hc : c = o.conversation
    · rw [hc, Keyed.get?_insert_self] at hn
      cases hn
      rcases h.mem_addOutbox_iff.mp hb with ⟨-, rfl⟩ | hb
      · exact hc.symm
      · exact absurd (h.fresh _ hb) (Nat.lt_irrefl _)
    · rw [Keyed.get?_insert_of_ne hc] at hn
      rcases h.mem_addOutbox_iff.mp hb with ⟨rfl, -⟩ | hb
      · exact absurd (h.recent c _ hn) (Nat.lt_irrefl _)
      · exact h.directed c n b hn hb

/-- An outbox of another conversation makes no difference. -/
theorem Tended.addOutbox_of_ne (h : e.Tended c live) (hfiled : e.Filed) (hc : o.conversation ≠ c) :
    (e.addOutbox o).Tended c live ∧ (e.addOutbox o).laneAt live = e.laneAt live := by
  have hlive : live ≠ some e.nextOutbox := fun heq => absurd (h.old _ heq) (Nat.lt_irrefl _)
  refine ⟨⟨fun n hn => Nat.lt_succ_of_lt (h.old n hn), ?_, ?_, ?_⟩,
    laneAt_replaceOutbox_of_ne hlive e o⟩
  · intro n b hn hb
    rcases hfiled.mem_addOutbox_iff.mp hb with ⟨rfl, -⟩ | hb
    · exact absurd hn hlive
    · exact h.home n b hn hb
  · intro n b hb hbc hn
    rcases hfiled.mem_addOutbox_iff.mp hb with ⟨-, rfl⟩ | hb
    · exact absurd hbc hc
    · exact h.idle n b hb hbc hn
  · intro n b hn hb
    rw [Engine.addOutbox] at hn
    dsimp only at hn
    rw [Keyed.get?_insert_of_ne hc.symm] at hn
    rcases hfiled.mem_addOutbox_iff.mp hb with ⟨rfl, -⟩ | hb
    · exact absurd (hfiled.recent c _ hn) (Nat.lt_irrefl _)
    · exact h.listed n b hn hb

/-- A new outbox tends its conversation from now on, if the others have nothing left to send. -/
theorem Filed.tended_addOutbox (h : e.Filed)
    (hidle : ∀ n b, (n, b) ∈ e.outboxes → b.conversation = o.conversation → b.lane = .empty) :
    (e.addOutbox o).Tended o.conversation (some e.nextOutbox) where
  old := by
    intro n hn
    cases hn
    exact Nat.lt_succ_self _
  home := by
    intro n b hn hb
    cases hn
    rcases h.mem_addOutbox_iff.mp hb with ⟨-, rfl⟩ | hb
    · rfl
    · exact absurd (h.fresh _ hb) (Nat.lt_irrefl _)
  idle := by
    intro n b hb hbc hn
    rcases h.mem_addOutbox_iff.mp hb with ⟨rfl, -⟩ | hb
    · exact absurd rfl hn
    · exact hidle n b hb hbc
  listed := by
    intro n b hn _
    rw [Engine.addOutbox] at hn
    dsimp only at hn
    rw [Keyed.get?_insert_self] at hn
    exact hn

theorem laneAt_addOutbox (e : Engine) (o : Outbox) :
    (e.addOutbox o).laneAt (some e.nextOutbox) = o.lane :=
  e.laneAt_replaceOutbox_self e.nextOutbox o

/-- If no outbox of a conversation has anything left to send, nothing is left for it at all. -/
theorem Tended.laneAt_eq_empty (h : e.Tended c live)
    (hidle : ∀ n b, (n, b) ∈ e.outboxes → b.conversation = c → b.lane = .empty) :
    e.laneAt live = .empty := by
  cases live with
  | none => rfl
  | some n =>
    rw [laneAt, Option.bind_some]
    cases hb : Keyed.get? n e.outboxes with
    | none => rfl
    | some b =>
      have hmem := Keyed.mem_of_get?_eq_some hb
      exact hidle n b hmem (h.home n b rfl hmem)

/-! ## Outboxes that are closed -/

theorem mem_closeOutboxes {n : Nat} {b : Outbox} (hb : (n, b) ∈ e.closeOutboxes.outboxes) :
    ∃ b', (n, b') ∈ e.outboxes ∧ b.conversation = b'.conversation ∧ b.lane = b'.lane := by
  obtain ⟨⟨m, b'⟩, hb', heq⟩ := List.mem_map.mp hb
  cases heq
  exact ⟨b', hb', rfl, rfl⟩

theorem Filed.closeOutboxes (h : e.Filed) : e.closeOutboxes.Filed where
  sorted := List.pairwise_map.mpr (h.sorted.imp fun hlt => hlt)
  fresh := by
    rintro ⟨n, b⟩ hb
    obtain ⟨b', hb', -⟩ := mem_closeOutboxes hb
    exact h.fresh (n, b') hb'
  recent := fun _ _ hn => by cases hn
  directed := fun _ _ _ hn => by cases hn

theorem Tended.closeOutboxes (h : e.Tended c live) : e.closeOutboxes.Tended c live where
  old := h.old
  home := by
    intro n b hn hb
    obtain ⟨b', hb', hconv, -⟩ := mem_closeOutboxes hb
    exact hconv.trans (h.home n b' hn hb')
  idle := by
    intro n b hb hc hn
    obtain ⟨b', hb', hconv, hlane⟩ := mem_closeOutboxes hb
    exact hlane.trans (h.idle n b' hb' (hconv.symm.trans hc) hn)
  listed := fun _ _ hn => by cases hn

theorem laneAt_closeOutboxes (e : Engine) (live : Option Nat) :
    e.closeOutboxes.laneAt live = e.laneAt live := by
  cases live with
  | none => rfl
  | some n =>
    have hget : Keyed.get? n e.closeOutboxes.outboxes =
        (Keyed.get? n e.outboxes).map fun b => ⟨b.conversation, b.queue, b.current, false⟩ :=
      Keyed.get?_map (fun b : Outbox => Outbox.mk b.conversation b.queue b.current false) n
        e.outboxes
    rw [laneAt, laneAt, Option.bind_some, Option.bind_some, hget]
    cases Keyed.get? n e.outboxes <;> rfl

end Engine

end LiteChat
