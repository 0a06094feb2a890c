import LiteChat.Json.Basic
import LiteChat.Proofs.Floating.Precision
import LiteChat.Proofs.Keyed

/-!
# The numbers of a JSON value

A number in a JSON value is an integer of 64 bits, signed or unsigned, or a finite double
(`Json.Proper`).  The values of all JSON texts are such (`Json.proper_of_ofText?`), and
their numbers are finite when they are taken as doubles (`Json.Proper.isFinite_double?`).
-/

namespace LiteChat.Json

open Floating (Double)

/-- Every number in a value is one that JSON has room for. -/
inductive Proper : Json → Prop where
  | null : Proper .null
  | bool (b : Bool) : Proper (.bool b)
  | int {n : Int} (h : leastInt64 ≤ n ∧ n < uint64Bound) : Proper (.int n)
  | float {x : Double} (h : x.isFinite = true) : Proper (.float x)
  | string (s : String) : Proper (.string s)
  | array {items : List Json} (h : ∀ e ∈ items, Proper e) : Proper (.array items)
  | object {members : List (String × Json)} (h : ∀ p ∈ members, Proper p.2) :
    Proper (.object members)

theorem Proper.isFinite_double? {e : Json} (he : e.Proper) {x : Double}
    (h : e.double? = some x) : x.isFinite = true := by
  cases he with
  | int hn =>
    cases h
    unfold leastInt64 uint64Bound at hn
    exact Double.isFinite_ofInt (by omega)
  | float hx =>
    cases h
    exact hx
  | _ => cases h

theorem Proper.of_mem {items : List Json} (h : (Json.array items).Proper) {e : Json}
    (he : e ∈ items) : e.Proper := by
  cases h with
  | array h => exact h e he

/-! ## The values of texts -/

theorem proper_of_numeral {n : Numeral} {v : Json} (h : n.value? = some v) : v.Proper := by
  unfold Numeral.value? at h
  extract_lets fraction m integer integral at h
  split at h
  · rename_i hinteger
    cases h
    exact .int hinteger.2
  · obtain ⟨x, hx, rfl⟩ := Option.map_eq_some_iff.mp h
    unfold Double.ofDecimal? at hx
    dsimp only at hx
    split at hx
    · rename_i hfinite
      cases hx
      exact .float (Double.isFinite_ofMagnitude hfinite)
    · cases hx

mutual

theorem proper_of_value? {depth : Nat} {v : Json} :
    ∀ t : Tree, Tree.value? depth t = some v → v.Proper
  | .null, h => by
    cases h
    exact .null
  | .bool b, h => by
    cases h
    exact .bool b
  | .number n, h => proper_of_numeral h
  | .string pieces, h => by
    obtain ⟨s, -, rfl⟩ := Option.map_eq_some_iff.mp h
    exact .string s
  | .array items, h => by
    cases depth with
    | zero => cases h
    | succ depth =>
      obtain ⟨vs, hvs, rfl⟩ := Option.map_eq_some_iff.mp h
      exact .array (proper_of_values? items hvs)
  | .object members, h => by
    cases depth with
    | zero => cases h
    | succ depth =>
      obtain ⟨pairs, hpairs, rfl⟩ := Option.map_eq_some_iff.mp h
      exact .object fun p hp => proper_of_members? members hpairs p (Keyed.mem_of_mem_ofList hp)

theorem proper_of_values? {depth : Nat} {vs : List Json} :
    ∀ items : List Tree, Tree.values? depth items = some vs → ∀ v ∈ vs, v.Proper
  | [], h => by
    cases h
    exact fun v hv => absurd hv List.not_mem_nil
  | item :: rest, h => by
    unfold Tree.values? at h
    split at h
    · cases h
    · rename_i w hw
      obtain ⟨ws, hws, rfl⟩ := Option.map_eq_some_iff.mp h
      intro v hv
      rcases List.mem_cons.mp hv with rfl | hv
      · exact proper_of_value? item hw
      · exact proper_of_values? rest hws v hv

theorem proper_of_members? {depth : Nat} {pairs : List (String × Json)} :
    ∀ members : List (List Piece × Tree), Tree.members? depth members = some pairs →
      ∀ p ∈ pairs, p.2.Proper
  | [], h => by
    cases h
    exact fun p hp => absurd hp List.not_mem_nil
  | (key, item) :: rest, h => by
    unfold Tree.members? at h
    split at h
    · rename_i k w hk hw
      obtain ⟨ps, hps, rfl⟩ := Option.map_eq_some_iff.mp h
      intro p hp
      rcases List.mem_cons.mp hp with rfl | hp
      · exact proper_of_value? item hw
      · exact proper_of_members? rest hps p hp
    · cases h

end

/-- The value of a JSON text has no number that JSON has no room for. -/
theorem proper_of_ofText? {text : String} {v : Json} (h : ofText? text = some v) : v.Proper := by
  obtain ⟨t, -, ht⟩ := Option.bind_eq_some_iff.mp h
  exact proper_of_value? t ht

end LiteChat.Json
