import Mathlib

/-! # Sorted association lists

An ordered map as the list of its entries, in the order of their keys.
-/

namespace SortedMap

variable {κ α : Type} [LinearOrder κ]

def Sorted (entries : List (κ × α)) : Prop := (entries.map Prod.fst).Pairwise (· < ·)

/-- `insert`: the value of a key that is there is replaced. -/
def insert (k : κ) (v : α) : List (κ × α) → List (κ × α)
  | [] => [(k, v)]
  | (k', v') :: rest =>
      if k < k' then (k, v) :: (k', v') :: rest
      else if k = k' then (k, v) :: rest
      else (k', v') :: insert k v rest

theorem sorted_nil : Sorted ([] : List (κ × α)) := List.Pairwise.nil

theorem Sorted.tail {entry : κ × α} {rest : List (κ × α)} (h : Sorted (entry :: rest)) :
    Sorted rest := h.of_cons

theorem Sorted.lt {entry : κ × α} {rest : List (κ × α)} (h : Sorted (entry :: rest)) :
    ∀ later ∈ rest, entry.1 < later.1 := by
  intro later hlater
  exact List.rel_of_pairwise_cons h (List.mem_map_of_mem hlater)

theorem lookup_eq_none_of_lt {k : κ} {entries : List (κ × α)} (h : ∀ entry ∈ entries, k < entry.1) :
    entries.lookup k = none := by
  rw [List.lookup_eq_none_iff]
  intro entry hentry
  simpa using (h entry hentry).ne

/-- An insertion touches one place: the entry of its key, or the gap where it belongs. -/
theorem insert_spec {entries : List (κ × α)} (h : Sorted entries) (k : κ) (v : α) :
    ∃ front back, insert k v entries = front ++ (k, v) :: back ∧
      ((∃ w, entries.lookup k = some w ∧ entries = front ++ (k, w) :: back) ∨
        (entries.lookup k = none ∧ entries = front ++ back)) := by
  induction entries with
  | nil => exact ⟨[], [], rfl, .inr ⟨rfl, rfl⟩⟩
  | cons entry rest ih =>
      obtain ⟨k', v'⟩ := entry
      have hlt := h.lt
      rcases lt_trichotomy k k' with hless | rfl | hgreater
      · refine ⟨[], (k', v') :: rest, by rw [insert, if_pos hless]; rfl, .inr ⟨?_, rfl⟩⟩
        refine lookup_eq_none_of_lt (fun later hlater => ?_)
        rcases List.mem_cons.mp hlater with rfl | hlater
        · exact hless
        · exact hless.trans (hlt later hlater)
      · refine ⟨[], rest, ?_, .inl ⟨v', by simp, rfl⟩⟩
        rw [insert, if_neg (lt_irrefl k), if_pos rfl]
        rfl
      · obtain ⟨front, back, hinsert, hfound⟩ := ih h.tail
        have hkeep : insert k v ((k', v') :: rest) = (k', v') :: insert k v rest := by
          rw [insert, if_neg hgreater.asymm, if_neg hgreater.ne']
        have hlookup : ((k', v') :: rest).lookup k = rest.lookup k := by
          rw [List.lookup_cons, beq_false_of_ne hgreater.ne']
        refine ⟨(k', v') :: front, back, by rw [hkeep, hinsert]; rfl, ?_⟩
        rw [hlookup]
        rcases hfound with ⟨w, hw, hentries⟩ | ⟨hnone, hentries⟩
        · exact .inl ⟨w, hw, by rw [hentries]; rfl⟩
        · exact .inr ⟨hnone, by rw [hentries]; rfl⟩

theorem mem_insert {entries : List (κ × α)} {k : κ} {v : α} {entry : κ × α}
    (h : entry ∈ insert k v entries) : entry = (k, v) ∨ entry ∈ entries := by
  induction entries with
  | nil => exact .inl (by simpa [insert] using h)
  | cons first rest ih =>
      rw [insert] at h
      split at h
      · exact List.mem_cons.mp h
      · split at h
        · rcases List.mem_cons.mp h with rfl | h
          · exact .inl rfl
          · exact .inr (List.mem_cons_of_mem first h)
        · rcases List.mem_cons.mp h with rfl | h
          · exact .inr List.mem_cons_self
          · rcases ih h with rfl | h
            · exact .inl rfl
            · exact .inr (List.mem_cons_of_mem first h)

theorem Sorted.insert {entries : List (κ × α)} (h : Sorted entries) (k : κ) (v : α) :
    Sorted (insert k v entries) := by
  induction entries with
  | nil => exact List.pairwise_singleton _ _
  | cons entry rest ih =>
      obtain ⟨k', v'⟩ := entry
      have hlt := h.lt
      rw [SortedMap.insert]
      split
      · rename_i hless
        refine List.pairwise_cons.mpr ⟨?_, h⟩
        intro key hkey
        obtain ⟨later, hlater, rfl⟩ := List.mem_map.mp hkey
        rcases List.mem_cons.mp hlater with rfl | hlater
        · exact hless
        · exact hless.trans (hlt later hlater)
      · rename_i hnless
        split
        · rename_i heq
          subst heq
          exact h
        · rename_i hne
          refine List.pairwise_cons.mpr ⟨?_, ih h.tail⟩
          intro key hkey
          obtain ⟨later, hlater, rfl⟩ := List.mem_map.mp hkey
          rcases mem_insert hlater with rfl | hlater
          · exact lt_of_le_of_ne (not_lt.mp hnless) (Ne.symm hne)
          · exact hlt later hlater

theorem mem_of_lookup {entries : List (κ × α)} {k : κ} {v : α}
    (h : entries.lookup k = some v) : (k, v) ∈ entries := by
  obtain ⟨front, back, rfl, _⟩ := List.lookup_eq_some_iff.mp h
  simp

theorem insert_perm {entries : List (κ × α)} (h : Sorted entries) {k : κ} {v : α}
    (hnew : k ∉ entries.map Prod.fst) : (insert k v entries).Perm ((k, v) :: entries) := by
  obtain ⟨front, back, hinsert, ⟨w, hw, _⟩ | ⟨_, hentries⟩⟩ := insert_spec h k v
  · exact absurd (List.mem_map_of_mem (mem_of_lookup hw)) hnew
  · rw [hinsert, hentries]
    exact List.perm_middle

theorem foldl_insert_perm {added entries : List (κ × α)} (h : Sorted entries)
    (hadded : (added.map Prod.fst).Nodup) (hnew : ∀ entry ∈ added, entry.1 ∉ entries.map Prod.fst) :
    (added.foldl (fun entries entry => insert entry.1 entry.2 entries) entries).Perm
      (added ++ entries) := by
  induction added generalizing entries with
  | nil => exact List.Perm.refl _
  | cons entry rest ih =>
      have hfirst := insert_perm h (v := entry.2) (hnew entry List.mem_cons_self)
      obtain ⟨hhead, htail⟩ := List.nodup_cons.mp hadded
      have hrest : ∀ later ∈ rest, later.1 ∉ (insert entry.1 entry.2 entries).map Prod.fst := by
        intro later hlater hmem
        obtain ⟨found, hfound, hkey⟩ := List.mem_map.mp hmem
        rcases mem_insert hfound with rfl | hfound
        · exact hhead (List.mem_map.mpr ⟨later, hlater, hkey.symm⟩)
        · exact hnew later (List.mem_cons_of_mem entry hlater)
            (List.mem_map.mpr ⟨found, hfound, hkey⟩)
      exact (ih (h.insert entry.1 entry.2) htail hrest).trans
        ((hfirst.append_left rest).trans List.perm_middle)

end SortedMap
