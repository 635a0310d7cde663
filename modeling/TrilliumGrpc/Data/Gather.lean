import Mathlib

/-! # Lists gathered by key

A container that keeps the elements of each key together, in some order of its keys,
gives back a list gathered by that order. A list is left as it is exactly when it is
sorted by the order already.
-/

namespace Gather

variable {α κ : Type} [DecidableEq κ]

/-- The elements of each key in turn, those of one key in the order they had. -/
def gather (key : α → κ) (order : List κ) (l : List α) : List α :=
  order.flatMap (fun k => l.filter (fun a => key a = k))

def Sorted (key : α → κ) (order : List κ) (l : List α) : Prop :=
  l.Pairwise (fun a b => order.idxOf (key a) ≤ order.idxOf (key b))

variable {key : α → κ} {k : κ} {order : List κ} {l : List α}

theorem mem_gather {a : α} : a ∈ gather key order l ↔ a ∈ l ∧ key a ∈ order := by
  simp [gather, and_comm]

theorem gather_cons (key : α → κ) (k : κ) (order : List κ) (l : List α) :
    gather key (k :: order) l = l.filter (fun a => key a = k) ++ gather key order l :=
  List.flatMap_cons

theorem gather_filter_ne (hk : k ∉ order) :
    gather key order (l.filter (fun a => key a ≠ k)) = gather key order l := by
  unfold gather
  apply List.flatMap_congr
  intro m hm
  have hne : m ≠ k := by
    rintro rfl
    exact hk hm
  rw [List.filter_filter]
  apply List.filter_congr
  intro a _
  by_cases ha : key a = m
  · simp [ha, hne]
  · simp [ha]

theorem idxOf_cons_le {a b : α} : (k :: order).idxOf (key a) ≤ (k :: order).idxOf (key b) ↔
    key a = k ∨ (key b ≠ k ∧ order.idxOf (key a) ≤ order.idxOf (key b)) := by
  by_cases ha : key a = k
  · simp [ha]
  · by_cases hb : key b = k
    · rw [hb, List.idxOf_cons_self, List.idxOf_cons_ne _ (Ne.symm ha)]
      simp [ha]
    · rw [List.idxOf_cons_ne _ (Ne.symm ha), List.idxOf_cons_ne _ (Ne.symm hb)]
      simp [ha, hb]

theorem sorted_gather (hnodup : order.Nodup) : Sorted key order (gather key order l) := by
  induction order with
  | nil => exact List.Pairwise.nil
  | cons k order ih =>
      obtain ⟨hk, hrest⟩ := List.nodup_cons.mp hnodup
      rw [gather_cons, Sorted, List.pairwise_append]
      refine ⟨?_, ?_, ?_⟩
      · apply List.pairwise_of_forall_mem_list
        intro a ha b _
        have hfirst : key a = k := by simpa using (List.mem_filter.mp ha).2
        exact idxOf_cons_le.mpr (.inl hfirst)
      · apply (ih hrest).imp_of_mem
        intro a b _ hb hle
        have hlater : key b ≠ k := by
          intro heq
          exact hk (heq ▸ (mem_gather.mp hb).2)
        exact idxOf_cons_le.mpr (.inr ⟨hlater, hle⟩)
      · intro a ha b _
        have hfirst : key a = k := by simpa using (List.mem_filter.mp ha).2
        exact idxOf_cons_le.mpr (.inl hfirst)

theorem filter_append_filter (h : l.Pairwise (fun a b => key b = k → key a = k)) :
    l.filter (fun a => key a = k) ++ l.filter (fun a => key a ≠ k) = l := by
  induction l with
  | nil => rfl
  | cons a l ih =>
      obtain ⟨ha, hrest⟩ := List.pairwise_cons.mp h
      by_cases hfirst : key a = k
      · simpa [hfirst] using ih hrest
      · have hlater : ∀ b ∈ l, key b ≠ k := by
          intro b hb heq
          exact hfirst (ha b hb heq)
        have hnone : l.filter (fun b => key b = k) = [] := by
          rw [List.filter_eq_nil_iff]
          intro b hb
          simpa using hlater b hb
        have hall : l.filter (fun b => key b ≠ k) = l := by
          rw [List.filter_eq_self]
          intro b hb
          simpa using hlater b hb
        rw [List.filter_cons_of_neg (by simpa using hfirst), hnone,
          List.filter_cons_of_pos (by simpa using hfirst), hall, List.nil_append]

theorem gather_of_sorted (hnodup : order.Nodup) (hmem : ∀ a ∈ l, key a ∈ order)
    (hsorted : Sorted key order l) : gather key order l = l := by
  induction order generalizing l with
  | nil =>
      have hnil : l = [] := by
        rw [List.eq_nil_iff_forall_not_mem]
        intro a ha
        cases hmem a ha
      rw [hnil]
      rfl
  | cons k order ih =>
      obtain ⟨hk, hrest⟩ := List.nodup_cons.mp hnodup
      have hfront : l.Pairwise (fun a b => key b = k → key a = k) := by
        apply hsorted.imp
        intro a b hle hb
        rcases idxOf_cons_le.mp hle with ha | ⟨hne, _⟩
        · exact ha
        · exact absurd hb hne
      have htail : gather key order (l.filter (fun a => key a ≠ k)) =
          l.filter (fun a => key a ≠ k) := by
        apply ih hrest
        · intro a ha
          obtain ⟨ha, hne⟩ := List.mem_filter.mp ha
          have hne : key a ≠ k := by simpa using hne
          exact (List.mem_cons.mp (hmem a ha)).resolve_left hne
        · apply (hsorted.filter _).imp_of_mem
          intro a b ha _ hle
          have hne : key a ≠ k := by simpa using (List.mem_filter.mp ha).2
          exact ((idxOf_cons_le.mp hle).resolve_left hne).2
      rw [gather_cons, ← gather_filter_ne hk, htail, filter_append_filter hfront]

theorem gather_eq_self_iff (hnodup : order.Nodup) (hmem : ∀ a ∈ l, key a ∈ order) :
    gather key order l = l ↔ Sorted key order l := by
  constructor
  · intro h
    rw [← h]
    exact sorted_gather hnodup
  · exact gather_of_sorted hnodup hmem

theorem not_sorted_of_interleaved {a b c : α} (hb : key b ∈ order) (hac : key a = key c)
    (hab : key a ≠ key b) (h : [a, b, c].Sublist l) :
    ¬ Sorted key order l := by
  intro hsorted
  have hthree := List.Pairwise.sublist h hsorted
  simp only [List.pairwise_cons, List.mem_cons, List.not_mem_nil, or_false, forall_eq_or_imp,
    forall_eq] at hthree
  obtain ⟨⟨hle, _⟩, hge, _⟩ := hthree
  rw [← hac] at hge
  have heq := Nat.le_antisymm hle hge
  exact hab ((List.idxOf_inj hb).mp heq.symm).symm

end Gather
