import TrilliumGrpc.Data.Gather
import TrilliumGrpc.MetadataWire

/-! # The order of metadata on the wire

A header map keeps the values of one name together, so what is read back is the
entries gathered by the names as the map walks them.
-/

namespace TrilliumGrpc

open Bytes HeaderMap Gather

namespace Metadata

def walk {H : Type} [HeaderMap H] (headers : H) : List String :=
  (iter headers).map (fun entry => asciiLower entry.1)

section Headers

variable {H : Type} [HeaderMap H] [Base64]

/-- What one name reads back are the entries of its key. -/
theorem readEntry_writeInto {m : Metadata} (hm : ∀ entry ∈ m.entries, EntryValid entry)
    {name : String} {vs : List HeaderValue}
    (h : (name, vs) ∈ iter (m.writeInto (empty : H))) :
    readEntry name vs = m.entries.filter (fun entry => entry.1 = asciiLower name) := by
  by_cases hown : OwnKey (asciiLower name)
  · have hvalues : vs = (m.entries.filter (fun entry => entry.1 = asciiLower name)).map
        (fun entry => encodeValue entry.2) := by
      rw [iter_values h, values_writeInto, values_empty, List.nil_append]
      apply congrArg (List.map _)
      apply List.filter_congr
      intro entry hmem
      simp only [SameName, asciiLower_of_valid (hm entry hmem).key.1, eq_comm]
    have hread : ∀ entry ∈ m.entries.filter (fun entry => entry.1 = asciiLower name),
        (readValue (asciiLower name) (encodeValue entry.2)).map
          (fun v => (asciiLower name, v)) = some entry := by
      intro entry hmem
      obtain ⟨hmem, heq⟩ := List.mem_filter.mp hmem
      have heq : entry.1 = asciiLower name := by simpa using heq
      rw [← heq, readValue_encodeValue (hm entry hmem), Option.map_some]
    simp only [readEntry, hown.1, hown.2, Bool.not_true, Bool.or_self, Bool.false_eq_true, if_false]
    rw [hvalues, List.filterMap_map, Function.comp_def, List.filterMap_congr hread,
      List.filterMap_some]
  · rw [readEntry_of_unread hown, eq_comm, List.filter_eq_nil_iff]
    intro entry hmem heq
    have heq : entry.1 = asciiLower name := by simpa using heq
    exact hown (heq ▸ (hm entry hmem).key)

theorem fromHeaders_writeInto {m : Metadata} (hm : ∀ entry ∈ m.entries, EntryValid entry) :
    (fromHeaders (m.writeInto (empty : H))).entries =
      gather Prod.fst (walk (m.writeInto (empty : H))) m.entries := by
  rw [gather, walk, List.flatMap_map]
  apply List.flatMap_congr
  intro entry hmem
  exact readEntry_writeInto hm hmem

theorem mem_walk {m : Metadata} (hm : ∀ entry ∈ m.entries, EntryValid entry) :
    ∀ entry ∈ m.entries, entry.1 ∈ walk (m.writeInto (empty : H)) := by
  intro entry hmem
  have hlower := asciiLower_of_valid (hm entry hmem).key.1
  have hvalues : values (m.writeInto (empty : H)) entry.1 ≠ [] := by
    rw [values_writeInto, values_empty, List.nil_append, Ne, List.map_eq_nil_iff,
      List.filter_eq_nil_iff]
    intro hnone
    exact hnone entry hmem (by simp [SameName])
  obtain ⟨name, vs, hiter, hsame⟩ := iter_complete hvalues
  rw [SameName, hlower] at hsame
  exact List.mem_map.mpr ⟨(name, vs), hiter, hsame⟩

/-- The entries come back in their order exactly when no key stands after one that the
map walks later. -/
theorem order_kept_iff {m : Metadata} (hbuilt : Built m) :
    (fromHeaders (m.writeInto (empty : H))).entries = m.entries ↔
      Sorted Prod.fst (walk (m.writeInto (empty : H))) m.entries := by
  rw [fromHeaders_writeInto hbuilt.valid]
  exact gather_eq_self_iff (iter_nodup _) (mem_walk hbuilt.valid)

/-- A key that comes back after another one is moved, whatever map carries it. -/
theorem interleaved_moved {m : Metadata} (hbuilt : Built m) {a b c : String × MetadataValue}
    (hac : a.1 = c.1) (hab : a.1 ≠ b.1) (h : [a, b, c].Sublist m.entries) :
    (fromHeaders (m.writeInto (empty : H))).entries ≠ m.entries := by
  intro hkept
  have hb : b.1 ∈ walk (m.writeInto (empty : H)) := by
    apply mem_walk hbuilt.valid
    exact h.subset (by simp)
  exact not_sorted_of_interleaved hb hac hab h ((order_kept_iff hbuilt).mp hkept)

end Headers

theorem grouped_order_kept : letI := standardNoPad
    (fromHeaders (writeInto ⟨[("a", .ascii "1"), ("a", .ascii "2"), ("b", .ascii "3")]⟩
      (empty : HeaderList))).entries =
        [("a", .ascii "1"), ("a", .ascii "2"), ("b", .ascii "3")] := by
  let _ := standardNoPad
  have hfirst : new.insertAscii "a" "1" = .ok ⟨[("a", .ascii "1")]⟩ := rfl
  have hsecond : (⟨[("a", .ascii "1")]⟩ : Metadata).insertAscii "a" "2" =
      .ok ⟨[("a", .ascii "1"), ("a", .ascii "2")]⟩ := rfl
  have hthird : (⟨[("a", .ascii "1"), ("a", .ascii "2")]⟩ : Metadata).insertAscii "b" "3" =
      .ok ⟨[("a", .ascii "1"), ("a", .ascii "2"), ("b", .ascii "3")]⟩ := rfl
  apply (order_kept_iff (.ascii (.ascii (.ascii .new hfirst) hsecond) hthird)).mpr
  have hwalk : walk (writeInto ⟨[("a", .ascii "1"), ("a", .ascii "2"), ("b", .ascii "3")]⟩
      (empty : HeaderList)) = ["a", "b"] := by decide
  rw [hwalk]
  simp [Sorted]

/-- The second value of `a` comes back before the value of `b`. -/
theorem interleaved_keys_reordered : letI := standardNoPad
    (fromHeaders (writeInto ⟨[("a", .ascii "1"), ("b", .ascii "2"), ("a", .ascii "3")]⟩
      (empty : HeaderList))).entries =
        [("a", .ascii "1"), ("a", .ascii "3"), ("b", .ascii "2")] := by
  let _ := standardNoPad
  have hfirst : new.insertAscii "a" "1" = .ok ⟨[("a", .ascii "1")]⟩ := rfl
  have hsecond : (⟨[("a", .ascii "1")]⟩ : Metadata).insertAscii "b" "2" =
      .ok ⟨[("a", .ascii "1"), ("b", .ascii "2")]⟩ := rfl
  have hthird : (⟨[("a", .ascii "1"), ("b", .ascii "2")]⟩ : Metadata).insertAscii "a" "3" =
      .ok ⟨[("a", .ascii "1"), ("b", .ascii "2"), ("a", .ascii "3")]⟩ := rfl
  have hbuilt : Built ⟨[("a", .ascii "1"), ("b", .ascii "2"), ("a", .ascii "3")]⟩ :=
    .ascii (.ascii (.ascii .new hfirst) hsecond) hthird
  rw [fromHeaders_writeInto hbuilt.valid]
  decide

end Metadata

end TrilliumGrpc
