import TrilliumGrpc.MetadataWire

/-! # What a metadata map can hold

The inserts on a map that is changed in place, `from_headers`, and the maps that any
sequence of them leaves behind.
-/

namespace TrilliumGrpc

open Bytes HeaderMap

namespace Metadata

/-! ## The inserts in place -/

/-- A method on `&mut self` that may fail: the map is there after a failure, too. -/
abbrev InPlace := ExceptT MetadataError (StateM Metadata) Unit

def InPlace.validateKey (key : String) : InPlace :=
  ExceptT.mk (pure (TrilliumGrpc.validateKey key))

def pushAscii (key value : String) : InPlace := do
  InPlace.validateKey key
  if isReserved key then throw (.reservedKey key)
  if endsWithBin key then throw (.asciiKeyHasBinSuffix key)
  if !isValidAsciiValue value then throw .invalidAsciiValue
  modify fun m => ⟨m.entries ++ [(key, .ascii value)]⟩

def pushBinary (key : String) (value : List UInt8) : InPlace := do
  InPlace.validateKey key
  if isReserved key then throw (.reservedKey key)
  if !endsWithBin key then throw (.binaryKeyMissingBinSuffix key)
  modify fun m => ⟨m.entries ++ [(key, .binary value)]⟩

def settled (m : Metadata) : Except MetadataError Metadata → Except MetadataError Unit × Metadata
  | .ok m' => (.ok (), m')
  | .error e => (.error e, m)

theorem run_pushAscii (key value : String) (m : Metadata) :
    (pushAscii key value).run.run m = settled m (m.insertAscii key value) := by
  unfold pushAscii insertAscii InPlace.validateKey validateKey
  by_cases hk : isValidKey key
  · by_cases hr : isReserved key
    · simp [hk, hr]
      rfl
    · by_cases hb : endsWithBin key
      · simp [hk, hr, hb]
        rfl
      · by_cases hv : isValidAsciiValue value
        · simp [hk, hr, hb, hv]
          rfl
        · simp [hk, hr, hb, hv]
          rfl
  · simp [hk]
    rfl

theorem run_pushBinary (key : String) (value : List UInt8) (m : Metadata) :
    (pushBinary key value).run.run m = settled m (m.insertBinary key value) := by
  unfold pushBinary insertBinary InPlace.validateKey validateKey
  by_cases hk : isValidKey key
  · by_cases hr : isReserved key
    · simp [hk, hr]
      rfl
    · by_cases hb : endsWithBin key
      · simp [hk, hr, hb]
        rfl
      · simp [hk, hr, hb]
        rfl
  · simp [hk]
    rfl

/-! ## Entries read from headers -/

def EntryShaped : String × MetadataValue → Prop
  | (key, .ascii _) => OwnKey key ∧ endsWithBin key = false
  | (key, .binary _) => OwnKey key ∧ endsWithBin key = true

theorem EntryShaped.key {entry : String × MetadataValue} (h : EntryShaped entry) :
    OwnKey entry.1 := by
  obtain ⟨key, value⟩ := entry
  cases value with
  | ascii text => exact h.1
  | binary bytes => exact h.1

theorem entryValid_iff (entry : String × MetadataValue) : EntryValid entry ↔
    EntryShaped entry ∧ ∀ text, entry.2 = .ascii text → isValidAsciiValue text = true := by
  obtain ⟨key, value⟩ := entry
  cases value with
  | ascii text => simp [EntryValid, EntryShaped, OwnKey, and_assoc]
  | binary bytes => simp [EntryValid, EntryShaped, OwnKey, and_assoc]

theorem mem_valuesOf (m : Metadata) (key : String) (value : MetadataValue) :
    value ∈ m.valuesOf key ↔ (key, value) ∈ m.entries := by
  simp [valuesOf]

section Headers

variable {H : Type} [HeaderMap H] [Base64]

theorem mem_fromHeaders (headers : H) (key : String) (value : MetadataValue) :
    (key, value) ∈ (fromHeaders headers).entries ↔
      OwnKey key ∧ ∃ raw ∈ values headers key, readValue key raw = some value := by
  rw [← mem_valuesOf]
  by_cases hkey : OwnKey key
  · rw [valuesOf_fromHeaders _ _ hkey.1 hkey.2, List.mem_filterMap]
    exact ⟨fun h => ⟨hkey, h⟩, fun h => h.2⟩
  · rw [valuesOf_fromHeaders_of_unread _ hkey]
    exact ⟨fun h => by simp at h, fun h => absurd h.1 hkey⟩

theorem shaped_fromHeaders (headers : H) :
    ∀ entry ∈ (fromHeaders headers).entries, EntryShaped entry := by
  intro entry hmem
  obtain ⟨key, value⟩ := entry
  obtain ⟨hkey, raw, _, hread⟩ := (mem_fromHeaders headers key value).mp hmem
  unfold readValue at hread
  split at hread
  · rename_i hbin
    rw [Option.map_eq_some_iff] at hread
    obtain ⟨bytes, _, rfl⟩ := hread
    exact ⟨hkey, hbin⟩
  · rename_i htext
    rw [Option.map_eq_some_iff] at hread
    obtain ⟨text, _, rfl⟩ := hread
    exact ⟨hkey, Bool.eq_false_iff.mpr htext⟩

/-- Every text that `from_headers` takes out of the headers can be printed. -/
def Printable (headers : H) : Prop :=
  ∀ key text, OwnKey key → endsWithBin key = false →
    (∃ raw ∈ values headers key, HeaderValue.asStr raw = some text) → isValidAsciiValue text = true

theorem valid_fromHeaders_iff (headers : H) :
    (∀ entry ∈ (fromHeaders headers).entries, EntryValid entry) ↔ Printable headers := by
  constructor
  · intro h key text hkey hbin hraw
    obtain ⟨raw, hmem, hstr⟩ := hraw
    have hread : readValue key raw = some (.ascii text) := by
      rw [readValue, hbin, if_neg Bool.false_ne_true, hstr, Option.map_some]
    have hentry := (mem_fromHeaders headers key (.ascii text)).mpr ⟨hkey, raw, hmem, hread⟩
    exact (h _ hentry).2.2.2
  · intro h entry hmem
    have hshaped := shaped_fromHeaders headers entry hmem
    refine (entryValid_iff entry).mpr ⟨hshaped, ?_⟩
    obtain ⟨key, value⟩ := entry
    rintro text rfl
    obtain ⟨hkey, raw, hraw, hread⟩ := (mem_fromHeaders headers key _).mp hmem
    have hbin : endsWithBin key = false := hshaped.2
    rw [readValue, hbin, if_neg Bool.false_ne_true, Option.map_eq_some_iff] at hread
    obtain ⟨text', hstr, heq⟩ := hread
    rw [MetadataValue.ascii.injEq] at heq
    exact h key text hkey hbin ⟨raw, hraw, heq ▸ hstr⟩

/-! ## Runs of operations -/

inductive Op (H : Type) where
  | insertAscii (key value : String)
  | insertBinary (key : String) (value : List UInt8)
  | fromHeaders (headers : H)

def apply (m : Metadata) : Op H → Except MetadataError Unit × Metadata
  | .insertAscii key value => (pushAscii key value).run.run m
  | .insertBinary key value => (pushBinary key value).run.run m
  | .fromHeaders headers => (.ok (), fromHeaders headers)

def run (ops : List (Op H)) : Metadata := ops.foldl (fun m op => (m.apply op).2) new

/-- The maps that some sequence of operations leaves behind. -/
def Reachable (H : Type) [HeaderMap H] (m : Metadata) : Prop :=
  ∃ ops : List (Op H), run ops = m

theorem run_concat (ops : List (Op H)) (op : Op H) :
    run (ops ++ [op]) = ((run ops).apply op).2 := by
  simp [run]

theorem apply_error {m : Metadata} {op : Op H} {e : MetadataError}
    (h : (m.apply op).1 = .error e) : (m.apply op).2 = m := by
  have hsettled : ∀ r, (settled m r).1 = .error e → (settled m r).2 = m := by
    intro r hr
    cases r with
    | ok m' => cases hr
    | error e' => rfl
  cases op with
  | insertAscii key value =>
      rw [apply, run_pushAscii] at h ⊢
      exact hsettled _ h
  | insertBinary key value =>
      rw [apply, run_pushBinary] at h ⊢
      exact hsettled _ h
  | fromHeaders headers => cases h

/-- An entry is an earlier one, or a valid new one, or one read from headers. -/
theorem mem_apply {m : Metadata} {op : Op H} {entry : String × MetadataValue}
    (h : entry ∈ (m.apply op).2.entries) : entry ∈ m.entries ∨ EntryValid entry ∨
      ∃ headers, op = .fromHeaders headers ∧ entry ∈ (Metadata.fromHeaders headers).entries := by
  cases op with
  | insertAscii key value =>
      rw [apply, run_pushAscii] at h
      cases hins : m.insertAscii key value with
      | error e =>
          rw [hins] at h
          exact .inl h
      | ok m' =>
          obtain ⟨hvalid, hentries⟩ := insertAscii_ok hins
          rw [hins, settled, hentries, List.mem_append, List.mem_singleton] at h
          rcases h with h | rfl
          · exact .inl h
          · exact .inr (.inl hvalid)
  | insertBinary key value =>
      rw [apply, run_pushBinary] at h
      cases hins : m.insertBinary key value with
      | error e =>
          rw [hins] at h
          exact .inl h
      | ok m' =>
          obtain ⟨hvalid, hentries⟩ := insertBinary_ok hins
          rw [hins, settled, hentries, List.mem_append, List.mem_singleton] at h
          rcases h with h | rfl
          · exact .inl h
          · exact .inr (.inl hvalid)
  | fromHeaders headers => exact .inr (.inr ⟨headers, rfl, h⟩)

theorem shaped_run (ops : List (Op H)) : ∀ entry ∈ (run ops).entries, EntryShaped entry := by
  induction ops using List.reverseRecOn with
  | nil =>
      intro entry hmem
      cases hmem
  | append_singleton ops op ih =>
      intro entry hmem
      rw [run_concat] at hmem
      rcases mem_apply hmem with hold | hnew | hread
      · exact ih entry hold
      · exact ((entryValid_iff entry).mp hnew).1
      · obtain ⟨headers, _, hread⟩ := hread
        exact shaped_fromHeaders headers entry hread

theorem Reachable.keys {m : Metadata} (h : Reachable H m) :
    ∀ entry ∈ m.entries, OwnKey entry.1 := by
  intro entry hmem
  obtain ⟨ops, rfl⟩ := h
  exact (shaped_run ops entry hmem).key

theorem valid_run (ops : List (Op H))
    (h : ∀ headers, .fromHeaders headers ∈ ops → Printable headers) :
    ∀ entry ∈ (run ops).entries, EntryValid entry := by
  induction ops using List.reverseRecOn with
  | nil =>
      intro entry hmem
      cases hmem
  | append_singleton ops op ih =>
      intro entry hmem
      rw [run_concat] at hmem
      rcases mem_apply hmem with hold | hnew | hread
      · apply ih
        · intro headers hheaders
          exact h headers (List.mem_append_left _ hheaders)
        · exact hold
      · exact hnew
      · obtain ⟨headers, rfl, hread⟩ := hread
        have hprint := h headers (List.mem_append_right _ (List.mem_singleton_self _))
        exact (valid_fromHeaders_iff headers).mpr hprint entry hread

/-- Keys and kinds are right throughout every run and a failed insert changes nothing;
the texts are printable throughout exactly when those of the headers read are. -/
theorem entries_valid_iff (ops : List (Op H)) :
    (∀ (m : Metadata) (op : Op H) (e : MetadataError),
      (m.apply op).1 = .error e → (m.apply op).2.entries = m.entries) ∧
    (∀ before, before <+: ops → ∀ entry ∈ (run before).entries, EntryShaped entry) ∧
    ((∀ before, before <+: ops → ∀ entry ∈ (run before).entries, EntryValid entry) ↔
      ∀ headers, .fromHeaders headers ∈ ops → Printable headers) := by
  refine ⟨?_, fun before _ => shaped_run before, ?_, ?_⟩
  · intro m op e h
    rw [apply_error h]
  · intro h headers hmem
    obtain ⟨earlier, later, hops⟩ := List.append_of_mem hmem
    have hbefore : earlier ++ [.fromHeaders headers] <+: ops := ⟨later, by simp [hops]⟩
    have hvalid := h _ hbefore
    rw [run_concat] at hvalid
    exact (valid_fromHeaders_iff headers).mp hvalid
  · intro h before hbefore
    apply valid_run
    intro headers hmem
    exact h headers (hbefore.subset hmem)

end Headers

/-- A tab is text, but the inserts would refuse it. -/
theorem tab_from_headers_invalid : letI := standardNoPad
    ¬ ∀ entry ∈ (run [Op.fromHeaders
      (append (empty : HeaderList) "x-note" (.ofString "a\tb"))]).entries, EntryValid entry := by
  let _ := standardNoPad
  intro h
  have hprint := (valid_fromHeaders_iff _).mp h
  have hown : OwnKey "x-note" := ⟨by decide, by decide⟩
  have hvalid := hprint "x-note" "a\tb" hown (by decide)
    ⟨.ofString "a\tb", List.mem_singleton_self _, HeaderValue.asStr_ofString _⟩
  exact absurd hvalid (by decide)

end Metadata

end TrilliumGrpc
