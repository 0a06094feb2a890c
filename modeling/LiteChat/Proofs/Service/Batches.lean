import Mathlib
import LiteChat.Proofs.Service.Envelopes
import LiteChat.Proofs.Service.Records

/-!
# Batches are delivered whole

A payload that opens with the discriminator of a batch has its entries in the element behind it
(`BatchOf`).  On the schema of the service the entries are read one by one, each as the state update
that it decodes as (`Delivers`): so a batch is delivered exactly if every entry decodes, with one
update for each entry and in their order, and what stands behind the entries does not matter.  If an
entry does not decode, none is delivered.

The way from the payload to the updates leads through a message, whose list of entries could lose
some, and through the records of its entries, which could fail.  Neither happens: the list holds
what each entry decodes as (`ReadFrom.messages`), and whatever decodes as a state update gives a
record (`StateUpdate.exists_reads`).
-/

namespace LiteChat.Envelope

open Service (schema repeated ref)
open Lite (elementAt?)

/-! ## The entries of a payload -/

/-- A payload is a batch with some entries, which are not null. -/
inductive BatchOf : Json → List Json → Prop
  /-- There is nothing behind the discriminator. -/
  | absent : BatchOf (.array [.string "cbu"]) []
  /-- There is a null in place of the entries. -/
  | null (rest : List Json) : BatchOf (.array (.string "cbu" :: .null :: rest)) []
  /-- The entries are those of the second element that are not null. -/
  | entries (items rest : List Json) :
    BatchOf (.array (.string "cbu" :: .array items :: rest)) (items.filter fun e => !e.isNull)

/-- An entry decodes as a state update, and the record is read from what it decodes as. -/
def Delivers (entry : Json) (u : StateUpdate) : Prop :=
  ∃ m, Lite.decode schema "StateUpdate" .plain entry = .ok m ∧ StateUpdate.ofMessage m = .ok u

/-- A payload stands as text in tag 2 of an envelope. -/
def Pushes (raw payload : Json) : Prop :=
  ∃ members tag text, Unwraps raw members ∧ Keyed.get? "2" members = some tag ∧
    tag.get? "2" = some (.string text) ∧ Json.ofText? text = some payload

theorem BatchOf.unique {payload : Json} {entries entries' : List Json}
    (h : BatchOf payload entries) (h' : BatchOf payload entries') : entries = entries' := by
  cases h <;> cases h' <;> rfl

theorem BatchOf.exists_rest {payload : Json} {entries : List Json} (h : BatchOf payload entries) :
    ∃ rest, payload = .array (.string "cbu" :: rest) ∧
      entries = Json.present (elementAt? 0 (.string "cbu" :: rest) 1) := by
  cases h with
  | absent => exact ⟨_, rfl, rfl⟩
  | null rest => exact ⟨_, rfl, rfl⟩
  | entries items rest => exact ⟨_, rfl, rfl⟩

/-- The entries are in the element behind the discriminator, if it is an array or absent. -/
theorem batchOf_of_elementAt? {rest : List Json}
    (h : ∀ e, elementAt? 0 (.string "cbu" :: rest) 1 = some e → ∃ items, e = .array items) :
    BatchOf (.array (.string "cbu" :: rest))
      (Json.present (elementAt? 0 (.string "cbu" :: rest) 1)) := by
  cases rest with
  | nil => exact .absent
  | cons second rest =>
    cases second with
    | null => exact .null rest
    | array items => exact .entries items rest
    | _ => exact absurd (h _ rfl) nofun

theorem Delivers.unique {entry : Json} {u u' : StateUpdate} (h : Delivers entry u)
    (h' : Delivers entry u') : u = u' := by
  obtain ⟨m, hm, hu⟩ := h
  obtain ⟨m', hm', hu'⟩ := h'
  rw [hm] at hm'
  cases hm'
  rw [hu] at hu'
  cases hu'
  rfl

/-- Whatever decodes as a state update gives a record. -/
theorem exists_record {entry : Json} {m : Message}
    (h : Lite.decode schema "StateUpdate" .plain entry = .ok m) :
    ∃ u, StateUpdate.ofMessage m = .ok u := by
  obtain ⟨d, hd, hm⟩ := Lite.exists_of_decode h
  cases entry with
  | array items =>
    obtain ⟨u, hu, -⟩ := StateUpdate.exists_reads ⟨.plain, items, rfl, h⟩
    exact ⟨u, hu⟩
  | _ => cases hm

/-! ## The message of a batch -/

/-- The type of the message that a batch is read as. -/
def batchType : MessageDescriptor where
  name := "BatchUpdate"
  fields := [repeated 1 "state_update" (ref "StateUpdate")]

theorem batchType_mem : batchType ∈ Service.messages := by decide +kernel

theorem exists_stateUpdate : ∃ d, schema.message? "StateUpdate" = some d :=
  Service.exists_message? (by decide +kernel)

theorem message?_batchType : schema.message? "BatchUpdate" = some batchType := by
  rw [show "BatchUpdate" = batchType.name from rfl]
  exact Service.message?_schema batchType_mem

/-- The list of the message holds what each of the entries decodes as. -/
theorem forall₂_entries {items : List Json} {batch : Message}
    (h : Lite.decode schema "BatchUpdate" .discriminated (.array items) = .ok batch) :
    (∀ e, elementAt? 0 items 1 = some e → ∃ list, e = .array list) ∧
      List.Forall₂ (fun m e => Lite.decode schema "StateUpdate" .plain e = .ok m)
        ((batch.elements "state_update").filterMap Value.message?)
        (Json.present (elementAt? 0 items 1)) := by
  obtain ⟨nested, hnested⟩ := exists_stateUpdate
  rw [Lite.decode_eq_readMessage message?_batchType] at h
  have hm := Lite.readFrom_of_readMessage Service.wellFormed_schema
    (Service.wellFormed_schema.message _ _ message?_batchType) h
  have hf : repeated 1 "state_update" (ref "StateUpdate") ∈ batchType.fields :=
    List.mem_singleton_self _
  refine ⟨(hm.elements _ hf rfl).1, ?_⟩
  refine (hm.messages hf rfl rfl (Service.resolve?_of_message? hnested)).imp fun m e hread => ?_
  rw [Lite.decode_eq_decodeAs hnested]
  exact hread

/-- A list of elements that decode, or are null, stands for values of a field for messages. -/
theorem exists_holdsValues {items : List Json}
    (h : ∀ e ∈ items, e.isNull = false → ∃ m, Lite.decode schema "StateUpdate" .plain e = .ok m) :
    ∃ vs, Lite.HoldsValues schema (ref "StateUpdate") items vs := by
  obtain ⟨nested, hnested⟩ := exists_stateUpdate
  induction items with
  | nil => exact ⟨[], .nil⟩
  | cons e rest ih =>
    obtain ⟨vs, hvs⟩ := ih fun e' he' => h e' (List.mem_cons_of_mem _ he')
    cases e with
    | null => exact ⟨vs, .null hvs⟩
    | array list =>
      obtain ⟨m, hm⟩ := h _ List.mem_cons_self rfl
      rw [Lite.decode_eq_readMessage hnested,
        Lite.readMessage_iff_holds Service.wellFormed_schema
          (Service.wellFormed_schema.message _ _ hnested)] at hm
      exact ⟨_, .cons rfl (.message (Service.resolve?_of_message? hnested) hm) hvs⟩
    | _ =>
      obtain ⟨m, hm⟩ := h _ List.mem_cons_self rfl
      rw [Lite.decode_eq_decodeAs hnested] at hm
      cases hm

/-- A batch whose entries decode is read, whatever stands behind the entries. -/
theorem exists_decode_of_batchOf {payload : Json} {entries : List Json}
    (h : BatchOf payload entries)
    (hentries : ∀ e ∈ entries, ∃ m, Lite.decode schema "StateUpdate" .plain e = .ok m) :
    ∃ batch, Lite.decode schema "BatchUpdate" .discriminated payload = .ok batch := by
  obtain ⟨rest, rfl, -⟩ := h.exists_rest
  rw [Lite.decode_eq_readMessage message?_batchType]
  refine (Lite.exists_readMessage_iff Service.wellFormed_schema
    (Service.wellFormed_schema.message _ _ message?_batchType)).mpr fun f hf => ?_
  cases List.mem_singleton.mp hf
  cases h with
  | absent => exact Or.inl ⟨rfl, nofun⟩
  | null rest => exact Or.inl ⟨rfl, nofun⟩
  | entries items rest =>
    obtain ⟨vs, hvs⟩ := exists_holdsValues fun e he hnull =>
      hentries e (List.mem_filter.mpr ⟨he, by simp [hnull]⟩)
    exact Or.inr ⟨_, _, rfl, .repeated rfl hvs⟩

/-! ## The updates of a batch -/

/-- A record is read from whatever an entry decodes as. -/
theorem exists_readUpdates {messages : List Message} {entries : List Json}
    (h : List.Forall₂ (fun m e => Lite.decode schema "StateUpdate" .plain e = .ok m)
      messages entries) :
    ∃ updates, readUpdates messages = .ok updates := by
  induction h with
  | nil => exact ⟨[], rfl⟩
  | cons hm _ ih =>
    obtain ⟨u, hu⟩ := exists_record hm
    obtain ⟨updates, hupdates⟩ := ih
    refine ⟨u :: updates, ?_⟩
    simp only [readUpdates, hu, hupdates, Except.map]

theorem forall₂_delivers {messages : List Message} {entries : List Json}
    {updates : List StateUpdate}
    (hread : List.Forall₂ (fun m e => Lite.decode schema "StateUpdate" .plain e = .ok m)
      messages entries)
    (hrecord : List.Forall₂ (fun m u => StateUpdate.ofMessage m = .ok u) messages updates) :
    List.Forall₂ Delivers entries updates := by
  induction hread generalizing updates with
  | nil =>
    cases hrecord
    exact .nil
  | cons hm _ ih =>
    cases hrecord with
    | cons hu hrest => exact .cons ⟨_, hm, hu⟩ (ih hrest)

theorem exists_rest_of_decodeBatch {s : Schema} {payload : Json} {updates : List StateUpdate}
    (h : decodeBatch s payload = .ok updates) :
    ∃ rest, payload = .array (.string "cbu" :: rest) := by
  unfold decodeBatch at h
  split at h
  · rename_i discriminator rest
    split at h
    · rename_i hdiscriminator
      exact ⟨rest, by rw [hdiscriminator]; rfl⟩
    · cases h
  · cases h
  · cases h

/-- A payload with another discriminator is not looked into. -/
theorem decodeBatch_of_ne {s : Schema} {first : Json} (h : first ≠ .string "cbu")
    (rest : List Json) : decodeBatch s (.array (first :: rest)) =
      .error (.unrecognized (first.string?.getD first.text)) := by
  cases first with
  | string discriminator =>
    have hdiscriminator : discriminator ≠ batchDiscriminator :=
      fun hd => h (congrArg Json.string hd)
    rw [decodeBatch, if_neg hdiscriminator]
    rfl
  | _ => rfl

/-- What is delivered of a payload is delivered entry by entry. -/
theorem delivers_of_decodeBatch {payload : Json} {updates : List StateUpdate}
    (h : decodeBatch schema payload = .ok updates) :
    ∃ entries, BatchOf payload entries ∧ List.Forall₂ Delivers entries updates := by
  obtain ⟨rest, rfl⟩ := exists_rest_of_decodeBatch h
  obtain ⟨batch, hbatch, hrecords⟩ := forall₂_decodeBatch h
  obtain ⟨hlist, hentries⟩ := forall₂_entries hbatch
  exact ⟨_, batchOf_of_elementAt? hlist, forall₂_delivers hentries hrecords⟩

/-- A batch either fails with the first fault of its message, or is delivered. -/
theorem decodeBatch_of_batchOf {payload : Json} {entries : List Json}
    (h : BatchOf payload entries) :
    (∃ fault, Lite.decode schema "BatchUpdate" .discriminated payload = .error fault ∧
      decodeBatch schema payload = .error (.message fault)) ∨
    ∃ updates, decodeBatch schema payload = .ok updates := by
  obtain ⟨rest, rfl, -⟩ := h.exists_rest
  rw [decodeBatch, if_pos (show "cbu" = batchDiscriminator from rfl)]
  cases hbatch : Lite.decode schema "BatchUpdate" .discriminated
      (.array (.string "cbu" :: rest)) with
  | error fault => exact Or.inl ⟨fault, rfl, rfl⟩
  | ok batch => exact Or.inr (exists_readUpdates (forall₂_entries hbatch).2)

/-- Entries that are delivered decode. -/
theorem exists_decode_of_delivers {entries : List Json} {updates : List StateUpdate}
    (h : List.Forall₂ Delivers entries updates) :
    ∀ e ∈ entries, ∃ m, Lite.decode schema "StateUpdate" .plain e = .ok m := by
  induction h with
  | nil => simp
  | cons hu _ ih =>
    obtain ⟨m, hm, -⟩ := hu
    exact List.forall_mem_cons.mpr ⟨⟨m, hm⟩, ih⟩

/-- A batch whose entries decode is delivered. -/
theorem exists_decodeBatch_of_batchOf {payload : Json} {entries : List Json}
    (h : BatchOf payload entries)
    (hentries : ∀ e ∈ entries, ∃ m, Lite.decode schema "StateUpdate" .plain e = .ok m) :
    ∃ updates, decodeBatch schema payload = .ok updates := by
  obtain ⟨batch, hbatch⟩ := exists_decode_of_batchOf h hentries
  refine (decodeBatch_of_batchOf h).resolve_left ?_
  rintro ⟨fault, hfault, -⟩
  rw [hbatch] at hfault
  cases hfault

/-- What is delivered of a batch are the updates of its entries. -/
theorem forall₂_delivers_of_batchOf {payload : Json} {entries : List Json}
    {updates : List StateUpdate} (h : BatchOf payload entries)
    (hread : decodeBatch schema payload = .ok updates) : List.Forall₂ Delivers entries updates := by
  obtain ⟨entries', h', hentries⟩ := delivers_of_decodeBatch hread
  cases h.unique h'
  exact hentries

/-! ## The envelope of a batch -/

/-- A payload with another discriminator is ignored, not rejected. -/
theorem ignored_of_pushes {s : Schema} {raw payload : Json} (h : Pushes raw payload)
    {discriminator : String}
    (hbatch : decodeBatch s payload = .error (.unrecognized discriminator)) :
    ∃ e, decode s raw = .ok e ∧ e.push = some (.ignored discriminator) ∧
      e.rejections .payload = [] := by
  obtain ⟨members, tag, text, hraw, htag, htext, hpayload⟩ := h
  exact ⟨_, decode_of_unwraps s hraw, push_of_decodePush htag (decodePush_eq_ok_iff.mpr
    ⟨text, payload, htext, hpayload, Or.inr ⟨discriminator, rfl, hbatch⟩⟩)⟩

/-- A batch whose message is faulty is rejected with the fault. -/
theorem rejected_of_pushes {s : Schema} {raw payload : Json} (h : Pushes raw payload)
    {fault : MessageError} (hbatch : decodeBatch s payload = .error (.message fault)) :
    ∃ e, decode s raw = .ok e ∧ e.push = none ∧ e.rejections .payload = [.message fault] := by
  obtain ⟨members, tag, text, hraw, htag, htext, hpayload⟩ := h
  have hdecode : decodePush s tag = .error (.message fault) := by
    rw [decodePush, innerText?_eq_some_iff.mpr htext]
    simp only [hpayload, hbatch]
  exact ⟨_, decode_of_unwraps s hraw, rejections_of_decodePush htag hdecode⟩

/-- **Batches are delivered whole, in order, or not at all.**  A payload is delivered exactly if it
is a batch all of whose entries decode, and then the updates are the records of its entries, one for
one and in their order.  A payload with another discriminator is unrecognized, and ignored in an
envelope.  An entry that does not decode fails the batch, and an envelope brings none of it. -/
theorem decodeBatch_whole (payload : Json) :
    (∀ updates, decodeBatch schema payload = .ok updates ↔
      ∃ entries, BatchOf payload entries ∧ List.Forall₂ Delivers entries updates) ∧
    ((∃ updates, decodeBatch schema payload = .ok updates) ↔
      ∃ entries, BatchOf payload entries ∧
        ∀ e ∈ entries, ∃ m, Lite.decode schema "StateUpdate" .plain e = .ok m) ∧
    (∀ first rest, payload = .array (first :: rest) → first ≠ .string "cbu" →
      decodeBatch schema payload = .error (.unrecognized (first.string?.getD first.text)) ∧
      ∀ raw, Pushes raw payload → ∃ e, decode schema raw = .ok e ∧
        e.push = some (.ignored (first.string?.getD first.text)) ∧ e.rejections .payload = []) ∧
    (∀ entries entry, BatchOf payload entries → entry ∈ entries →
      (¬∃ m, Lite.decode schema "StateUpdate" .plain entry = .ok m) →
      ∃ fault, decodeBatch schema payload = .error (.message fault) ∧
        ∀ raw, Pushes raw payload → ∃ e, decode schema raw = .ok e ∧
          e.push = none ∧ e.rejections .payload = [.message fault]) := by
  refine ⟨fun updates => ⟨delivers_of_decodeBatch, ?_⟩, ⟨?_, ?_⟩, ?_, ?_⟩
  · rintro ⟨entries, h, hentries⟩
    have hunique : Relator.RightUnique Delivers := fun _ _ _ => Delivers.unique
    obtain ⟨updates', hread⟩ :=
      exists_decodeBatch_of_batchOf h (exists_decode_of_delivers hentries)
    rw [hread, List.right_unique_forall₂' hunique (forall₂_delivers_of_batchOf h hread) hentries]
  · rintro ⟨updates, hread⟩
    obtain ⟨entries, h, hentries⟩ := delivers_of_decodeBatch hread
    exact ⟨entries, h, exists_decode_of_delivers hentries⟩
  · rintro ⟨entries, h, hentries⟩
    exact exists_decodeBatch_of_batchOf h hentries
  · rintro first rest rfl hfirst
    have hbatch := decodeBatch_of_ne (s := schema) hfirst rest
    exact ⟨hbatch, fun raw hraw => ignored_of_pushes hraw hbatch⟩
  · intro entries entry h hentry hnot
    rcases decodeBatch_of_batchOf h with ⟨fault, -, hbatch⟩ | ⟨updates, hread⟩
    · exact ⟨fault, hbatch, fun raw hraw => rejected_of_pushes hraw hbatch⟩
    · have hentries := forall₂_delivers_of_batchOf h hread
      exact absurd (exists_decode_of_delivers hentries entry hentry) hnot

theorem optional_stateUpdate : ∀ d ∈ Service.messages, d.name = "StateUpdate" →
    ∀ f ∈ d.fields, f.label ≠ .required := by
  decide +kernel

/-- A state update without any parts decodes. -/
theorem exists_decode_nil :
    ∃ m, Lite.decode schema "StateUpdate" .plain (.array []) = .ok m := by
  obtain ⟨d, hd, hname⟩ : ∃ d ∈ Service.messages, d.name = "StateUpdate" := by decide +kernel
  have hfound := Service.message?_schema hd
  rw [← hname, Lite.decode_eq_readMessage hfound]
  refine (Lite.exists_readMessage_iff Service.wellFormed_schema
    (Service.wellFormed_schema.message _ _ hfound)).mpr fun f hf => ?_
  exact Or.inl ⟨Lite.elementAt?_nil _ _, optional_stateUpdate d hd hname f hf⟩

/-- A null among two entries is left out, an entry that is a number fails the batch, and another
discriminator is ignored. -/
theorem decodeBatch_whole_two :
    (∃ updates, decodeBatch schema (.array [.string "cbu", .array [.array [], .null, .array []],
      .bool true]) = .ok updates ∧ updates.length = 2) ∧
    (∃ fault, decodeBatch schema (.array [.string "cbu", .array [.array [], .int 5]]) =
      .error (.message fault)) ∧
    ∃ e, decode schema (.object [("2", .object [("2", .string "[\"wp\"]")])]) = .ok e ∧
      e.push = some (.ignored "wp") ∧ e.rejections .payload = [] := by
  refine ⟨?_, ?_, ?_⟩
  · have hbatch : BatchOf (.array [.string "cbu", .array [.array [], .null, .array []], .bool true])
        [.array [], .array []] := .entries [.array [], .null, .array []] [.bool true]
    obtain ⟨updates, hread⟩ := (decodeBatch_whole _).2.1.mpr ⟨_, hbatch, by
      simpa using exists_decode_nil⟩
    obtain ⟨entries, h, hentries⟩ := ((decodeBatch_whole _).1 updates).mp hread
    cases hbatch.unique h
    exact ⟨updates, hread, hentries.length_eq.symm⟩
  · have hbatch : BatchOf (.array [.string "cbu", .array [.array [], .int 5]])
        [.array [], .int 5] := .entries [.array [], .int 5] []
    have hnot : ¬∃ m, Lite.decode schema "StateUpdate" .plain (.int 5) = .ok m := by
      rintro ⟨m, hm⟩
      obtain ⟨d, -, hm⟩ := Lite.exists_of_decode hm
      cases hm
    obtain ⟨fault, hfault, -⟩ := (decodeBatch_whole _).2.2.2 _ (.int 5) hbatch (by simp) hnot
    exact ⟨fault, hfault⟩
  · have hpushes : Pushes (.object [("2", .object [("2", .string "[\"wp\"]")])])
        (.array [.string "wp"]) :=
      ⟨_, .object [("2", .string "[\"wp\"]")], "[\"wp\"]", .bare (by decide), rfl, rfl, by cbv⟩
    exact ((decodeBatch_whole _).2.2.1 _ _ rfl (by simp)).2 _ hpushes

end LiteChat.Envelope
