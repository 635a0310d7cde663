import TrilliumGrpc.Data.Bytes

/-! # Header maps

The interface of a case-insensitive multimap of header values and the laws its
users rely on. `values` lists what is held under a name in append order; `iter`
visits every name once. A map that holds several values of one name may answer
`getStr` for it as it likes.
-/

open Bytes

/-- The bytes of one header value. -/
abbrev HeaderValue := List UInt8

namespace HeaderValue

def ofString (s : String) : HeaderValue := utf8 s

def asStr (v : HeaderValue) : Option String := fromUtf8 v

@[simp] theorem asStr_ofString (s : String) : asStr (ofString s) = some s := fromUtf8_utf8 s

end HeaderValue

/-- Header names are compared without regard to ASCII case. -/
def SameName (m n : String) : Prop := asciiLower m = asciiLower n

instance (m n : String) : Decidable (SameName m n) :=
  inferInstanceAs (Decidable (asciiLower m = asciiLower n))

theorem SameName.refl (n : String) : SameName n n := rfl

class HeaderMap (H : Type) where
  empty : H
  values : H → String → List HeaderValue
  getStr : H → String → Option String
  iter : H → List (String × List HeaderValue)
  insert : H → String → HeaderValue → H
  append : H → String → HeaderValue → H
  values_empty : ∀ n, values empty n = []
  values_insert : ∀ h n v m, values (insert h n v) m = if SameName m n then [v] else values h m
  values_append : ∀ h n v m,
    values (append h n v) m = if SameName m n then values h m ++ [v] else values h m
  values_congr : ∀ h {m n}, SameName m n → values h m = values h n
  getStr_of_nil : ∀ {h n}, values h n = [] → getStr h n = none
  getStr_of_singleton : ∀ {h n v}, values h n = [v] → getStr h n = v.asStr
  iter_values : ∀ {h n vs}, (n, vs) ∈ iter h → vs = values h n
  iter_complete : ∀ {h n}, values h n ≠ [] → ∃ m vs, (m, vs) ∈ iter h ∧ SameName m n
  iter_nodup : ∀ h, ((iter h).map (fun entry => asciiLower entry.1)).Nodup

/-- The text of a name depends on that name's values alone. -/
class HeaderMap.TextOfValues (H : Type) [HeaderMap H] : Prop where
  getStr_congr : ∀ {h h' : H} {n}, values h n = values h' n → getStr h n = getStr h' n

/-- A map whose names can be taken out again. -/
class HeaderMap.Removable (H : Type) [HeaderMap H] where
  remove : H → String → H
  values_remove : ∀ (h : H) n m, values (remove h n) m = if SameName m n then [] else values h m

namespace HeaderMap

variable {H : Type} [HeaderMap H]

theorem values_insert_self (h : H) (n : String) (v : HeaderValue) :
    values (insert h n v) n = [v] := by
  rw [values_insert, if_pos (SameName.refl n)]

theorem values_insert_other (h : H) {n m : String} (v : HeaderValue) (hne : ¬ SameName m n) :
    values (insert h n v) m = values h m := by
  rw [values_insert, if_neg hne]

theorem getStr_insert_self (h : H) (n : String) (s : String) :
    getStr (insert h n (.ofString s)) n = some s := by
  rw [getStr_of_singleton (values_insert_self h n _), HeaderValue.asStr_ofString]

end HeaderMap

/-! ## Association lists -/

/-- Names in the order they were first used, each with its values. -/
structure HeaderList where
  entries : List (String × List HeaderValue)
  nodup : (entries.map (fun entry => asciiLower entry.1)).Nodup

namespace HeaderList

def lookup (n : String) : List (String × List HeaderValue) → List HeaderValue
  | [] => []
  | (m, vs) :: rest => if SameName n m then vs else lookup n rest

def update (n : String) (f : List HeaderValue → List HeaderValue) :
    List (String × List HeaderValue) → List (String × List HeaderValue)
  | [] => [(n, f [])]
  | (m, vs) :: rest => if SameName n m then (m, f vs) :: rest else (m, vs) :: update n f rest

theorem lookup_update (n m : String) (f : List HeaderValue → List HeaderValue)
    (l : List (String × List HeaderValue)) :
    lookup m (update n f l) = if SameName m n then f (lookup m l) else lookup m l := by
  induction l with
  | nil => simp [update, lookup]
  | cons entry rest ih =>
      obtain ⟨k, vs⟩ := entry
      simp only [update]
      by_cases hnk : SameName n k
      · rw [if_pos hnk]
        simp only [lookup]
        have hiff : SameName m k ↔ SameName m n := by
          simp only [SameName] at hnk ⊢
          rw [hnk]
        by_cases hmn : SameName m n
        · simp [hmn, hiff]
        · simp [hmn, hiff]
      · rw [if_neg hnk]
        simp only [lookup, ih]
        by_cases hmk : SameName m k
        · have hmn : ¬ SameName m n := by
            intro h
            exact hnk (h.symm.trans hmk)
          simp [hmk, hmn]
        · simp [hmk]

theorem update_names (n : String) (f : List HeaderValue → List HeaderValue)
    (l : List (String × List HeaderValue)) (name : String)
    (h : name ∈ (update n f l).map (fun entry => asciiLower entry.1)) :
    name = asciiLower n ∨ name ∈ l.map (fun entry => asciiLower entry.1) := by
  induction l with
  | nil => simpa [update] using h
  | cons entry rest ih =>
      obtain ⟨k, vs⟩ := entry
      simp only [update] at h
      split at h
      · exact .inr h
      · simp only [List.map_cons, List.mem_cons] at h ⊢
        rcases h with h | h
        · exact .inr (.inl h)
        · rcases ih h with h | h
          · exact .inl h
          · exact .inr (.inr h)

theorem update_nodup (n : String) (f : List HeaderValue → List HeaderValue)
    (l : List (String × List HeaderValue))
    (h : (l.map (fun entry => asciiLower entry.1)).Nodup) :
    ((update n f l).map (fun entry => asciiLower entry.1)).Nodup := by
  induction l with
  | nil => simp [update]
  | cons entry rest ih =>
      obtain ⟨k, vs⟩ := entry
      simp only [List.map_cons, List.nodup_cons] at h
      simp only [update]
      split
      · simpa only [List.map_cons, List.nodup_cons] using h
      · rename_i hne
        simp only [List.map_cons, List.nodup_cons]
        refine ⟨fun hmem => ?_, ih h.2⟩
        rcases update_names n f rest _ hmem with heq | hmem
        · exact hne heq.symm
        · exact h.1 hmem

theorem lookup_of_mem {n : String} {vs : List HeaderValue} {l : List (String × List HeaderValue)}
    (hnodup : (l.map (fun entry => asciiLower entry.1)).Nodup) (h : (n, vs) ∈ l) :
    vs = lookup n l := by
  induction l with
  | nil => simp at h
  | cons entry rest ih =>
      obtain ⟨k, ws⟩ := entry
      simp only [List.map_cons, List.nodup_cons] at hnodup
      simp only [lookup]
      rcases List.mem_cons.mp h with heq | hmem
      · simp only [Prod.mk.injEq] at heq
        rw [if_pos (heq.1 ▸ SameName.refl n), heq.2]
      · rw [if_neg, ← ih hnodup.2 hmem]
        intro hsame
        have hname : asciiLower n ∈ rest.map (fun entry => asciiLower entry.1) :=
          List.mem_map.mpr ⟨(n, vs), hmem, rfl⟩
        rw [hsame] at hname
        exact hnodup.1 hname

theorem exists_of_lookup_ne_nil {n : String} {l : List (String × List HeaderValue)}
    (h : lookup n l ≠ []) : ∃ m vs, (m, vs) ∈ l ∧ SameName m n := by
  induction l with
  | nil => simp [lookup] at h
  | cons entry rest ih =>
      obtain ⟨k, ws⟩ := entry
      simp only [lookup] at h
      split at h
      · rename_i hsame
        exact ⟨k, ws, List.mem_cons_self, hsame.symm⟩
      · obtain ⟨m, vs, hmem, hsame⟩ := ih h
        exact ⟨m, vs, List.mem_cons_of_mem _ hmem, hsame⟩

theorem lookup_congr {m n : String} (h : SameName m n) (l : List (String × List HeaderValue)) :
    lookup m l = lookup n l := by
  induction l with
  | nil => rfl
  | cons entry rest ih =>
      obtain ⟨k, ws⟩ := entry
      have hiff : SameName m k ↔ SameName n k := by
        simp only [SameName] at h ⊢
        rw [h]
      simp [lookup, ih, hiff]

/-- A name with several values has no single text. -/
def getStr (h : HeaderList) (n : String) : Option String :=
  match lookup n h.entries with
  | [v] => v.asStr
  | _ => none

instance : HeaderMap HeaderList where
  empty := ⟨[], List.nodup_nil⟩
  values h n := lookup n h.entries
  getStr := getStr
  iter h := h.entries
  insert h n v := ⟨update n (fun _ => [v]) h.entries, update_nodup n _ _ h.nodup⟩
  append h n v := ⟨update n (fun vs => vs ++ [v]) h.entries, update_nodup n _ _ h.nodup⟩
  values_empty _ := rfl
  values_insert h n v m := lookup_update n m _ h.entries
  values_append h n v m := lookup_update n m _ h.entries
  values_congr h _ _ hsame := lookup_congr hsame h.entries
  getStr_of_nil h := by simp [getStr, h]
  getStr_of_singleton h := by simp [getStr, h]
  iter_values {h _ _} hmem := lookup_of_mem h.nodup hmem
  iter_complete h := exists_of_lookup_ne_nil h
  iter_nodup h := h.nodup

instance : HeaderMap.TextOfValues HeaderList where
  getStr_congr {h h' n} hvalues := by
    have hlookup : lookup n h.entries = lookup n h'.entries := hvalues
    show getStr h n = getStr h' n
    rw [getStr, getStr, hlookup]

def remove (h : HeaderList) (n : String) : HeaderList where
  entries := h.entries.filter fun entry => ¬ SameName entry.1 n
  nodup := h.nodup.sublist (List.filter_sublist.map _)

theorem lookup_filter (n m : String) (l : List (String × List HeaderValue)) :
    lookup m (l.filter fun entry => ¬ SameName entry.1 n) =
      if SameName m n then [] else lookup m l := by
  induction l with
  | nil => simp [lookup]
  | cons entry rest ih =>
      obtain ⟨k, vs⟩ := entry
      rw [List.filter_cons]
      by_cases hkn : SameName k n
      · rw [if_neg (by simpa using hkn), ih]
        by_cases hmn : SameName m n
        · rw [if_pos hmn, if_pos hmn]
        · have hmk : ¬ SameName m k := by
            intro h
            exact hmn (h.trans hkn)
          rw [if_neg hmn, if_neg hmn, lookup, if_neg hmk]
      · rw [if_pos (by simpa using hkn), lookup, ih]
        by_cases hmk : SameName m k
        · have hmn : ¬ SameName m n := by
            intro h
            exact hkn (hmk.symm.trans h)
          rw [if_pos hmk, if_neg hmn, lookup, if_pos hmk]
        · rw [if_neg hmk, lookup, if_neg hmk]

instance : HeaderMap.Removable HeaderList where
  remove := remove
  values_remove h n m := lookup_filter n m h.entries

end HeaderList
