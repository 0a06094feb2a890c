import LiteChat.Proofs.Schema.Joining
import LiteChat.Proofs.Schema.NormalForm

/-!
# The order of declarations

Two texts that do not reach into each other (`SelfContained`) can be put one below the other in
either order.  Inside each of them a later declaration still replaces an earlier one of its
kind and name, and either text may refer to what the other declares; if no name is declared in
both, then each name means the same whichever text comes first.  So the two joined texts declare
the same schema with the same accessor tables, and the same malformed blocks are reported of
them (`ofSource_join_comm`).
-/

namespace LiteChat.Schema

/-! ## The accessor tables -/

/-- The accessor tables as they are kept: by the name of the message, registered with it. -/
def tables (c : Compiled) : List (String × AccessorTable) :=
  Keyed.ofList (c.messages.map fun d => (d.name, .ofDescriptor d))

/-- The table that is kept under a name is that of the message that is kept under it. -/
theorem get?_tables (c : Compiled) (name : String) :
    Keyed.get? name (tables c) = (ofCompiled c).accessors? name := by
  have hmap : (c.messages.map fun d => (d.name, AccessorTable.ofDescriptor d)) =
      (c.messages.map fun d => (d.name, d)).map fun p => (p.1, .ofDescriptor p.2) := by
    rw [List.map_map]
    rfl
  rw [tables, hmap, Keyed.get?_ofList_map]
  rfl

/-! ## Texts that change places -/

/-- A text that no text below it is drawn into: its comments and braces are closed, and every
keyword in it has a body. -/
structure SelfContained (text : List Char) : Prop where
  /-- Every block comment is closed. -/
  comments : CommentsClosed text
  /-- Every brace outside comments is closed. -/
  braces : BracesMatched (stripComments text)
  /-- No keyword lacks a body. -/
  bodies : ∀ e ∈ (compile text).errors, ∀ k, e.fault ≠ .withoutBody k

theorem SelfContained.not_mem_blocks {text : List Char} (h : SelfContained text)
    (header : List Char) (k : Keyword) :
    Block.malformed header (.withoutBody k) ∉ blocks (stripComments text) := by
  intro hm
  exact h.bodies ⟨String.ofList header, .withoutBody k⟩ (List.mem_filterMap.mpr ⟨_, hm, rfl⟩) k rfl

/-- What stands below is compiled apart. -/
theorem SelfContained.compile_append {text : List Char} (h : SelfContained text)
    (below : List Char) :
    compile (text ++ '\n' :: below) =
      .ofBlocks (blocks (stripComments text) ++ blocks (stripComments below)) := by
  have hstrip : stripComments (text ++ '\n' :: below) =
      stripComments text ++ '\n' :: stripComments below := stripFrom_lineBreak h.comments below
  rw [compile, hstrip, blocks_join h.braces h.not_mem_blocks (by decide)]

/-- Declarations without a common name may be registered in either order. -/
theorem ofList_map_append_comm {α β : Type} {name : α → String} {value : α → β}
    {front back : List α} (h : ∀ d ∈ front, ∀ d' ∈ back, name d ≠ name d') :
    Keyed.ofList ((front ++ back).map fun d => (name d, value d)) =
      Keyed.ofList ((back ++ front).map fun d => (name d, value d)) := by
  rw [List.map_append, List.map_append]
  refine Keyed.ofList_append_comm fun p hp q hq => ?_
  obtain ⟨d, hd, rfl⟩ := List.mem_map.mp hp
  obtain ⟨d', hd', rfl⟩ := List.mem_map.mp hq
  exact h d hd d' hd'

/-- **The order of two texts does not matter.**  If neither reaches into the other, and no
message name and no enum name is declared in both, then they declare the same messages and enums
in either order, with the same accessor tables, so that every reference means the same and the
same ones dangle; and the malformed blocks are the same up to their order. -/
theorem ofSource_join_comm {a b : List Char} (ha : SelfContained a) (hb : SelfContained b)
    (hmessages : ∀ d ∈ (compile a).messages, ∀ d' ∈ (compile b).messages, d.name ≠ d'.name)
    (henums : ∀ e ∈ (compile a).enums, ∀ e' ∈ (compile b).enums, e.name ≠ e'.name) :
    (ofSource (a ++ '\n' :: b)).messages = (ofSource (b ++ '\n' :: a)).messages ∧
    (ofSource (a ++ '\n' :: b)).enums = (ofSource (b ++ '\n' :: a)).enums ∧
    tables (compile (a ++ '\n' :: b)) = tables (compile (b ++ '\n' :: a)) ∧
    (∀ name, (ofSource (a ++ '\n' :: b)).resolve? name =
      (ofSource (b ++ '\n' :: a)).resolve? name) ∧
    (ofSource (a ++ '\n' :: b)).dangling = (ofSource (b ++ '\n' :: a)).dangling ∧
    (compile (a ++ '\n' :: b)).errors.Perm (compile (b ++ '\n' :: a)).errors := by
  have hschema : ofSource (a ++ '\n' :: b) = ofSource (b ++ '\n' :: a) := by
    unfold ofSource ofCompiled
    rw [ha.compile_append, hb.compile_append, ofBlocks_append, ofBlocks_append]
    exact congrArg₂ _ (ofList_map_append_comm hmessages) (ofList_map_append_comm henums)
  have htables : tables (compile (a ++ '\n' :: b)) = tables (compile (b ++ '\n' :: a)) := by
    unfold tables
    rw [ha.compile_append, hb.compile_append, ofBlocks_append, ofBlocks_append]
    exact ofList_map_append_comm hmessages
  have herrors : (compile (a ++ '\n' :: b)).errors.Perm (compile (b ++ '\n' :: a)).errors := by
    rw [ha.compile_append, hb.compile_append, ofBlocks_append, ofBlocks_append]
    exact List.perm_append_comm
  rw [hschema]
  exact ⟨rfl, rfl, htables, fun _ => rfl, rfl, herrors⟩

/-- A text with a message that is declared twice, and a malformed enum. -/
def moodSource : List Char :=
  "message M \x7b optional N n = 1; \x7d enum 9 \x7b\x7d message M \x7b\x7d ".toList ++
    "// later".toList

/-- A text with an enum of the name of that message, and the message that it refers to. -/
def modeSource : List Char := "enum M \x7b A = 0; \x7d message N \x7b optional M m = 1; \x7d".toList

theorem compile_moodSource : compile moodSource =
    ⟨[], [⟨"M", [⟨1, "n", .reference "N", .optional⟩]⟩, ⟨"M", []⟩],
      [⟨"9", .invalidName .enumeration⟩]⟩ := by
  unfold moodSource
  rw [String.toList_ofList, String.toList_ofList]
  decide +kernel

theorem compile_modeSource : compile modeSource =
    ⟨[⟨"M", [(0, "A")]⟩], [⟨"N", [⟨1, "m", .reference "M", .optional⟩]⟩], []⟩ := by
  unfold modeSource
  rw [String.toList_ofList]
  decide +kernel

theorem selfContained_moodSource : SelfContained moodSource where
  comments := by
    have hbody : '\n' ∉ " later".toList := by decide
    unfold moodSource
    rw [String.toList_ofList]
    exact .append_left (by decide) (.lastLine hbody)
  braces := by
    unfold moodSource
    rw [String.toList_ofList, String.toList_ofList]
    decide
  bodies e he k := by
    rw [compile_moodSource] at he
    rw [List.mem_singleton.mp he]
    exact BlockFault.noConfusion

theorem selfContained_modeSource : SelfContained modeSource where
  comments := by
    have hslash : '/' ∉ modeSource := by
      unfold modeSource
      rw [String.toList_ofList]
      decide
    rw [← List.append_nil modeSource]
    exact .append_left hslash .nil
  braces := by
    unfold modeSource
    rw [String.toList_ofList]
    decide
  bodies e he := by
    rw [compile_modeSource] at he
    exact absurd he List.not_mem_nil

theorem ofSource_join_comm_moodSource :
    (compile moodSource).messages.map MessageDescriptor.name = ["M", "M"] ∧
      (compile modeSource).enums.map EnumDescriptor.name = ["M"] ∧
      (ofSource (moodSource ++ '\n' :: modeSource)).messages =
        (ofSource (modeSource ++ '\n' :: moodSource)).messages ∧
      (ofSource (moodSource ++ '\n' :: modeSource)).resolve? "M" =
        (ofSource (modeSource ++ '\n' :: moodSource)).resolve? "M" ∧
      (compile (moodSource ++ '\n' :: modeSource)).errors.Perm
        (compile (modeSource ++ '\n' :: moodSource)).errors := by
  obtain ⟨hmessages, -, -, hresolve, -, herrors⟩ :=
    ofSource_join_comm selfContained_moodSource selfContained_modeSource
      (by rw [compile_moodSource, compile_modeSource]; decide)
      (by rw [compile_moodSource, compile_modeSource]; decide)
  exact ⟨by rw [compile_moodSource]; rfl, by rw [compile_modeSource]; rfl, hmessages,
    hresolve "M", herrors⟩

end LiteChat.Schema
