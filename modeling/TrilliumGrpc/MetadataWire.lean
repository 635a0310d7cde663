import TrilliumGrpc.Metadata

/-! # Metadata through a header map

What one key reads back after a round trip, whatever else the headers hold and
in whatever order the map is walked.
-/

namespace TrilliumGrpc

open Bytes HeaderMap

theorem isKeyChar_lower {c : Char} (h : isKeyChar c = true) : c.toLower = c := by
  rw [Char.toLower, dif_neg]
  rintro ⟨hge, hle⟩
  have hge' : 65 ≤ c.toNat := hge
  have hle' : c.toNat ≤ 90 := hle
  simp only [isKeyChar, Bool.or_eq_true, Bool.and_eq_true, decide_eq_true_eq] at h
  rcases h with (((h | h) | rfl) | rfl) | rfl
  · omega
  · omega
  all_goals revert hge' hle'; decide

theorem asciiLower_of_valid {key : String} (h : isValidKey key = true) : asciiLower key = key := by
  simp only [isValidKey, Bool.and_eq_true, List.all_eq_true] at h
  exact asciiLower_eq_self (fun c hc => isKeyChar_lower (h.2 c hc))

namespace Metadata

variable {H : Type} [HeaderMap H] [Base64]

theorem values_writeInto (m : Metadata) (headers : H) (name : String) :
    values (m.writeInto headers) name = values headers name ++
      (m.entries.filter (fun entry => SameName name entry.1)).map
        (fun entry => encodeValue entry.2) := by
  obtain ⟨entries⟩ := m
  induction entries generalizing headers with
  | nil => simp [writeInto]
  | cons entry rest ih =>
      have hstep := ih (append headers entry.1 (encodeValue entry.2))
      simp only [writeInto, List.foldl_cons] at hstep ⊢
      rw [hstep, values_append]
      by_cases hsame : SameName name entry.1
      · simp [hsame]
      · simp [hsame]

theorem readEntry_key {name key : String} {vs : List HeaderValue} {v : MetadataValue}
    (h : (key, v) ∈ readEntry name vs) : key = asciiLower name := by
  unfold readEntry at h
  dsimp only at h
  split at h
  · simp at h
  · simp only [List.mem_filterMap, Option.map_eq_some_iff, Prod.mk.injEq] at h
    obtain ⟨_, _, _, _, hk, _⟩ := h
    exact hk.symm

theorem readEntry_of_unread {name : String} (h : ¬ OwnKey (asciiLower name))
    (vs : List HeaderValue) : readEntry name vs = [] := by
  have hskip : (isReserved (asciiLower name) || !isValidKey (asciiLower name)) = true := by
    by_contra hread
    rw [Bool.not_eq_true, Bool.or_eq_false_iff, Bool.not_eq_false'] at hread
    exact h ⟨hread.2, hread.1⟩
  rw [readEntry, if_pos hskip]

theorem readEntry_filter (name key : String) (vs : List HeaderValue)
    (hvalid : isValidKey key = true) (hfree : isReserved key = false) :
    ((readEntry name vs).filter (fun entry => entry.1 = key)).map Prod.snd =
      if asciiLower name = key then vs.filterMap (readValue key) else [] := by
  split
  · rename_i heq
    rw [List.filter_eq_self.mpr (fun entry hmem => by
      have hk : entry.1 = asciiLower name := readEntry_key hmem
      simpa [heq] using hk)]
    have hsnd : ∀ v : Option MetadataValue, (v.map (fun w => (key, w))).map Prod.snd = v := by
      intro v
      cases v <;> rfl
    simp only [readEntry, heq, hvalid, hfree, Bool.not_true, Bool.or_self, Bool.false_eq_true,
      if_false]
    rw [List.map_filterMap]
    simp only [hsnd]
  · rename_i hne
    rw [List.filter_eq_nil_iff.mpr (fun entry hmem => by
      have hk : entry.1 = asciiLower name := readEntry_key hmem
      simpa [hk] using hne)]
    rfl

/-- One key's values depend on that key's header values alone. -/
theorem valuesOf_fromHeaders (headers : H) (key : String) (hvalid : isValidKey key = true)
    (hfree : isReserved key = false) :
    (fromHeaders headers).valuesOf key = (values headers key).filterMap (readValue key) := by
  have hlower := asciiLower_of_valid hvalid
  have hwalk : (fromHeaders headers).valuesOf key =
      ((iter headers).filter (fun entry => asciiLower entry.1 = key)).flatMap
        (fun entry => entry.2.filterMap (readValue key)) := by
    simp only [valuesOf, fromHeaders]
    induction iter headers with
    | nil => rfl
    | cons entry rest ih =>
        rw [List.flatMap_cons, List.filter_append, List.map_append, ih,
          readEntry_filter entry.1 key entry.2 hvalid hfree, List.filter_cons]
        by_cases heq : asciiLower entry.1 = key
        · simp [heq]
        · simp [heq]
  have hown : ∀ entry ∈ (iter headers).filter (fun entry => asciiLower entry.1 = key),
      entry.2 = values headers key := by
    intro entry hmem
    obtain ⟨hiter, hname⟩ := List.mem_filter.mp hmem
    have hvalues : entry.2 = values headers entry.1 := iter_values hiter
    rw [hvalues]
    refine values_congr headers ?_
    simpa [SameName, hlower] using hname
  have hnodup := (iter_nodup headers).sublist
    ((List.filter_sublist (p := fun entry => asciiLower entry.1 = key)).map _)
  rw [hwalk]
  generalize hf : (iter headers).filter (fun entry => asciiLower entry.1 = key) = found at *
  cases found with
  | nil =>
      have hnil : values headers key = [] := by
        by_contra hne
        obtain ⟨m, vs, hmem, hsame⟩ := iter_complete hne
        rw [SameName, hlower] at hsame
        have hin : (m, vs) ∈ (iter headers).filter (fun entry => asciiLower entry.1 = key) :=
          List.mem_filter.mpr ⟨hmem, by simpa using hsame⟩
        rw [hf] at hin
        simp at hin
      rw [hnil]
      rfl
  | cons first found =>
      cases found with
      | nil =>
          have he := hown first (List.mem_singleton_self first)
          simp [he]
      | cons second rest =>
          have hkey : ∀ entry ∈ first :: second :: rest, asciiLower entry.1 = key := by
            intro entry hmem
            rw [← hf] at hmem
            simpa using (List.mem_filter.mp hmem).2
          have h1 := hkey first List.mem_cons_self
          have h2 := hkey second (List.mem_cons_of_mem _ List.mem_cons_self)
          simp [h1, h2] at hnodup

/-! ## What the inserts built, read back -/

theorem values_writeInto_reserved {m : Metadata} (hm : ∀ entry ∈ m.entries, OwnKey entry.1)
    (headers : H) (name : String) (hname : isReserved (asciiLower name) = true) :
    values (m.writeInto headers) name = values headers name := by
  rw [values_writeInto, List.filter_eq_nil_iff.mpr, List.map_nil, List.append_nil]
  intro entry hmem hsame
  obtain ⟨hvalid, hfree⟩ := hm entry hmem
  have hsame : SameName name entry.1 := by simpa using hsame
  rw [SameName, asciiLower_of_valid hvalid] at hsame
  rw [← hsame, hname] at hfree
  cases hfree

theorem readValue_encodeValue {key : String} {value : MetadataValue}
    (h : EntryValid (key, value)) : readValue key (encodeValue value) = some value := by
  cases value with
  | ascii text =>
      have hbin : endsWithBin key = false := Bool.eq_false_iff.mpr h.2.2.1
      rw [readValue, hbin, if_neg Bool.false_ne_true, encodeValue, HeaderValue.asStr_ofString,
        Option.map_some]
  | binary bytes =>
      have hbin : endsWithBin key = true := h.2.2
      rw [readValue, if_pos hbin, encodeValue, HeaderValue.ofString, Base64.decode_encode,
        Option.map_some]

theorem valuesOf_fromHeaders_of_unread (headers : H) {key : String}
    (hkey : ¬ OwnKey key) :
    (fromHeaders headers).valuesOf key = [] := by
  rw [valuesOf, List.filter_eq_nil_iff.mpr, List.map_nil]
  intro entry hmem heq
  obtain ⟨⟨name, vs⟩, _, hread⟩ := List.mem_flatMap.mp hmem
  have heq : entry.1 = key := by simpa using heq
  have hname : key = asciiLower name := heq ▸ readEntry_key hread
  rw [readEntry_of_unread (hname ▸ hkey)] at hread
  cases hread

omit [Base64] in
theorem valuesOf_of_unread {m : Metadata} (hm : ∀ entry ∈ m.entries, EntryValid entry)
    {key : String} (hkey : ¬ OwnKey key) :
    m.valuesOf key = [] := by
  rw [valuesOf, List.filter_eq_nil_iff.mpr, List.map_nil]
  intro entry hmem heq
  have heq : entry.1 = key := by simpa using heq
  exact hkey (heq ▸ (hm entry hmem).key)

/-- Every key's values come back in order from headers that had none under it. -/
theorem valuesOf_fromHeaders_writeInto {m : Metadata}
    (hm : ∀ entry ∈ m.entries, EntryValid entry) {headers : H}
    (hnone : ∀ key, isValidKey key = true → isReserved key = false → values headers key = [])
    (key : String) : (fromHeaders (m.writeInto headers)).valuesOf key = m.valuesOf key := by
  by_cases hkey : OwnKey key
  · obtain ⟨hvalid, hfree⟩ := hkey
    rw [valuesOf_fromHeaders _ _ hvalid hfree, values_writeInto, hnone key hvalid hfree,
      List.nil_append, valuesOf]
    have hown : m.entries.filter (fun entry => SameName key entry.1) =
        m.entries.filter (fun entry => entry.1 = key) := by
      refine List.filter_congr fun entry hmem => ?_
      simp only [SameName, asciiLower_of_valid hvalid, asciiLower_of_valid (hm entry hmem).key.1,
        eq_comm]
    have hread : ∀ entry ∈ m.entries.filter (fun entry => entry.1 = key),
        readValue key (encodeValue entry.2) = some entry.2 := by
      intro entry hmem
      obtain ⟨hmem, heq⟩ := List.mem_filter.mp hmem
      have heq : entry.1 = key := by simpa using heq
      exact heq ▸ readValue_encodeValue (hm entry hmem)
    rw [hown, List.filterMap_map]
    exact List.filterMap_eq_map_iff_forall_eq_some.mpr hread
  · rw [valuesOf_fromHeaders_of_unread _ hkey, valuesOf_of_unread hm hkey]

end Metadata

end TrilliumGrpc
