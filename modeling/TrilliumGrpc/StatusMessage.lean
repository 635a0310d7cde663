import TrilliumGrpc.Data.Time
import TrilliumGrpc.Status

/-! # The message's percent coding on the wire

`src/status.rs`: the decoding loop with its index and its bounds checks, and
what the coding does to every text.
-/

namespace TrilliumGrpc

open Bytes Time

/-! ## The decoding loop -/

/-- `bytes[i]`. -/
def byteAt (bytes : List UInt8) (i : Nat) : MayPanic UInt8 :=
  match bytes[i]? with
  | some b => .ok b
  | none =>
      .error ⟨"index out of bounds: the len is " ++ bytes.length.repr ++ " but the index is " ++
        i.repr⟩

/-- The condition of the loop's `if`: the byte of the escape that starts at `i`. -/
def escapedAt (bytes : List UInt8) (i : Nat) : MayPanic (Option UInt8) := do
  let b ← byteAt bytes i
  if b = 37 ∧ i + 2 < bytes.length then
    let c ← byteAt bytes (i + 1)
    let d ← byteAt bytes (i + 2)
    match hexValue c, hexValue d with
    | some hi, some lo => return some ((hi <<< 4) ||| lo)
    | _, _ => return none
  else return none

def percentDecodeLoop (bytes : List UInt8) (i : Nat) (out : List UInt8) :
    MayPanic (List UInt8) :=
  if i < bytes.length then do
    match ← escapedAt bytes i with
    | some b => percentDecodeLoop bytes (i + 3) (out ++ [b])
    | none => percentDecodeLoop bytes (i + 1) (out ++ [← byteAt bytes i])
  else return out
termination_by bytes.length - i

/-- `percent_decode` as the loop runs it. -/
def percentDecodeChecked (s : String) : MayPanic String := do
  let out ← percentDecodeLoop (utf8 s) 0 []
  return (fromUtf8 out).getD (fromUtf8Lossy out)

/-! ## Escapes -/

def IsHexDigit (b : UInt8) : Prop :=
  (48 ≤ b ∧ b ≤ 57) ∨ (65 ≤ b ∧ b ≤ 70) ∨ (97 ≤ b ∧ b ≤ 102)

instance (b : UInt8) : Decidable (IsHexDigit b) := inferInstanceAs (Decidable (_ ∨ _))

/-- The bytes begin with `%` and two hex digits. -/
def StartsEscape (bytes : List UInt8) : Prop :=
  ∃ c d rest, bytes = 37 :: c :: d :: rest ∧ IsHexDigit c ∧ IsHexDigit d

theorem hexValue_isSome_iff (b : UInt8) : (hexValue b).isSome ↔ IsHexDigit b := by
  revert b
  exact forall_byte (by decide +kernel)

def escape : List UInt8 → Option UInt8
  | b :: c :: d :: _ =>
      if b = 37 then
        match hexValue c, hexValue d with
        | some hi, some lo => some ((hi <<< 4) ||| lo)
        | _, _ => none
      else none
  | _ => none

theorem escape_isSome_iff (bytes : List UInt8) : (escape bytes).isSome ↔ StartsEscape bytes := by
  match bytes with
  | [] => simp [escape, StartsEscape]
  | [_] => simp [escape, StartsEscape]
  | [_, _] => simp [escape, StartsEscape]
  | b :: c :: d :: rest =>
      have hc := hexValue_isSome_iff c
      have hd := hexValue_isSome_iff d
      by_cases hb : b = 37
      · cases hhi : hexValue c <;> cases hlo : hexValue d <;>
          simp_all [escape, StartsEscape]
      · simp [escape, StartsEscape, hb]

theorem percentDecodeBytes_of_escape {bytes : List UInt8} {b : UInt8} (h : escape bytes = some b) :
    percentDecodeBytes bytes = b :: percentDecodeBytes (bytes.drop 3) := by
  match bytes with
  | [] | [_] | [_, _] => cases h
  | a :: c :: d :: rest =>
      by_cases ha : a = 37
      · rw [escape, if_pos ha] at h
        split at h
        · rename_i hi lo hhi hlo
          cases h
          rw [ha, percentDecodeBytes_escape hhi hlo]
          rfl
        · cases h
      · rw [escape, if_neg ha] at h
        cases h

theorem percentDecodeBytes_of_no_escape {b : UInt8} {rest : List UInt8}
    (h : escape (b :: rest) = none) :
    percentDecodeBytes (b :: rest) = b :: percentDecodeBytes rest := by
  by_cases hb : b = 37
  · match rest with
    | [] | [_] => rfl
    | c :: d :: rest =>
        rw [percentDecodeBytes, if_pos hb]
        rw [escape, if_pos hb] at h
        cases hhi : hexValue c with
        | none => rfl
        | some hi =>
            cases hlo : hexValue d with
            | none => rfl
            | some lo =>
                rw [hhi, hlo] at h
                cases h
  · exact percentDecodeBytes_cons hb rest

theorem percentDecodeBytes_eq_self {bytes : List UInt8}
    (h : ∀ i, ¬ StartsEscape (bytes.drop i)) : percentDecodeBytes bytes = bytes := by
  induction bytes with
  | nil => rfl
  | cons b rest ih =>
      have hhead : escape (b :: rest) = none := by
        rw [← Option.not_isSome_iff_eq_none, escape_isSome_iff]
        exact h 0
      rw [percentDecodeBytes_of_no_escape hhead, ih (fun i => h (i + 1))]

/-! ## The loop against the suffix at its index -/

theorem byteAt_of_drop {bytes rest : List UInt8} {i : Nat} {b : UInt8}
    (h : bytes.drop i = b :: rest) : byteAt bytes i = .ok b := by
  have hget : bytes[i]? = some b := by
    rw [← List.head?_drop, h, List.head?_cons]
  rw [byteAt, hget]

theorem drop_succ_of_drop {bytes rest : List UInt8} {i : Nat} {b : UInt8}
    (h : bytes.drop i = b :: rest) : bytes.drop (i + 1) = rest := by
  rw [← List.drop_drop, h]
  rfl

/-- The bound is checked before the two digits are read. -/
theorem escapedAt_eq {bytes : List UInt8} {i : Nat} (h : i < bytes.length) :
    escapedAt bytes i = .ok (escape (bytes.drop i)) := by
  have hlength : (bytes.drop i).length = bytes.length - i := List.length_drop
  match hdrop : bytes.drop i with
  | [] =>
      rw [hdrop, List.length_nil] at hlength
      omega
  | [a] =>
      rw [hdrop, List.length_singleton] at hlength
      have hshort : ¬ i + 2 < bytes.length := by omega
      simp only [escapedAt, byteAt_of_drop hdrop, hshort, and_false, if_false]
      rfl
  | [a, c] =>
      rw [hdrop] at hlength
      simp only [List.length_cons, List.length_nil] at hlength
      have hshort : ¬ i + 2 < bytes.length := by omega
      simp only [escapedAt, byteAt_of_drop hdrop, hshort, and_false, if_false]
      rfl
  | a :: c :: d :: rest =>
      rw [hdrop] at hlength
      simp only [List.length_cons] at hlength
      have hroom : i + 2 < bytes.length := by omega
      have hfirst := drop_succ_of_drop hdrop
      have hsecond := drop_succ_of_drop hfirst
      simp only [escapedAt, byteAt_of_drop hdrop, byteAt_of_drop hfirst, byteAt_of_drop hsecond,
        hroom, and_true, escape, bind, Except.bind]
      by_cases ha : a = 37
      · simp only [ha, if_true]
        cases hexValue c <;> cases hexValue d <;> rfl
      · simp only [ha, if_false]
        rfl

/-- What is left to decode is the suffix at the index; the induction is on its length. -/
theorem percentDecodeLoop_eq (bytes : List UInt8) (i : Nat) (out : List UInt8) :
    percentDecodeLoop bytes i out = .ok (out ++ percentDecodeBytes (bytes.drop i)) := by
  by_cases hi : i < bytes.length
  · obtain ⟨b, rest, hdrop⟩ : ∃ b rest, bytes.drop i = b :: rest :=
      ⟨_, _, List.drop_eq_getElem_cons hi⟩
    rw [percentDecodeLoop, if_pos hi, escapedAt_eq hi]
    cases hesc : escape (bytes.drop i) with
    | some x =>
        have hrest : (bytes.drop i).drop 3 = bytes.drop (i + 3) := List.drop_drop
        calc percentDecodeLoop bytes (i + 3) (out ++ [x])
            = .ok (out ++ [x] ++ percentDecodeBytes (bytes.drop (i + 3))) :=
              percentDecodeLoop_eq bytes (i + 3) (out ++ [x])
          _ = .ok (out ++ percentDecodeBytes (bytes.drop i)) := by
              rw [percentDecodeBytes_of_escape hesc, hrest, List.append_assoc]
              rfl
    | none =>
        have hhead := byteAt_of_drop hdrop
        rw [hdrop] at hesc
        calc (do percentDecodeLoop bytes (i + 1) (out ++ [← byteAt bytes i]))
            = percentDecodeLoop bytes (i + 1) (out ++ [b]) := by rw [hhead]; rfl
          _ = .ok (out ++ [b] ++ percentDecodeBytes (bytes.drop (i + 1))) :=
              percentDecodeLoop_eq bytes (i + 1) (out ++ [b])
          _ = .ok (out ++ percentDecodeBytes (bytes.drop i)) := by
              rw [hdrop, percentDecodeBytes_of_no_escape hesc, drop_succ_of_drop hdrop,
                List.append_assoc]
              rfl
  · have hnil : bytes.drop i = [] := List.drop_eq_nil_iff.mpr (Nat.le_of_not_lt hi)
    rw [percentDecodeLoop, if_neg hi, hnil]
    simp [percentDecodeBytes]
    rfl
termination_by bytes.length - i

theorem percentDecodeChecked_eq (s : String) :
    percentDecodeChecked s = .ok (percentDecode s) := by
  rw [percentDecodeChecked, percentDecodeLoop_eq]
  rfl

/-! ## What the encoder writes -/

/-- Visible ASCII in which every `%` begins an escape. -/
inductive HeaderSafe : List UInt8 → Prop
  | nil : HeaderSafe []
  | plain {b : UInt8} {rest : List UInt8} : 0x20 ≤ b → b ≤ 0x7E → b ≠ 37 → HeaderSafe rest →
      HeaderSafe (b :: rest)
  | escaped {c d : UInt8} {rest : List UInt8} : IsHexDigit c → IsHexDigit d → HeaderSafe rest →
      HeaderSafe (37 :: c :: d :: rest)

theorem hexDigit_visible {b : UInt8} (h : IsHexDigit b) : 0x20 ≤ b ∧ b ≤ 0x7E ∧ b ≠ 37 := by
  have hall : ∀ b : UInt8, IsHexDigit b → 0x20 ≤ b ∧ b ≤ 0x7E ∧ b ≠ 37 :=
    forall_byte (by decide +kernel)
  exact hall b h

namespace HeaderSafe

theorem visible {bytes : List UInt8} (h : HeaderSafe bytes) :
    ∀ b ∈ bytes, 0x20 ≤ b ∧ b ≤ 0x7E := by
  induction h with
  | nil => simp
  | plain hlow hhigh _ _ ih =>
      intro x hx
      rcases List.mem_cons.mp hx with rfl | hx
      · exact ⟨hlow, hhigh⟩
      · exact ih x hx
  | escaped hc hd _ ih =>
      have hvc := hexDigit_visible hc
      have hvd := hexDigit_visible hd
      intro x hx
      rcases List.mem_cons.mp hx with rfl | hx
      · decide
      rcases List.mem_cons.mp hx with rfl | hx
      · exact ⟨hvc.1, hvc.2.1⟩
      rcases List.mem_cons.mp hx with rfl | hx
      · exact ⟨hvd.1, hvd.2.1⟩
      · exact ih x hx

theorem startsEscape {bytes : List UInt8} (h : HeaderSafe bytes) (i : Nat)
    (hi : bytes[i]? = some 37) : StartsEscape (bytes.drop i) := by
  induction h generalizing i with
  | nil => simp at hi
  | plain _ _ hne _ ih =>
      cases i with
      | zero => exact absurd (Option.some.inj hi) hne
      | succ i => exact ih i hi
  | escaped hc hd _ ih =>
      match i with
      | 0 => exact ⟨_, _, _, rfl, hc, hd⟩
      | 1 => exact absurd (Option.some.inj hi) (hexDigit_visible hc).2.2
      | 2 => exact absurd (Option.some.inj hi) (hexDigit_visible hd).2.2
      | i + 3 => exact ih i hi

end HeaderSafe

theorem hexNibble_isHexDigit (b : UInt8) :
    IsHexDigit (UInt8.ofNat (hexNibble (b >>> 4)).toNat) ∧
      IsHexDigit (UInt8.ofNat (hexNibble (b &&& 0x0F)).toNat) := by
  obtain ⟨hhi, hlo, _⟩ := hexValue_hexNibble b
  constructor
  · exact (hexValue_isSome_iff _).mp (by rw [hhi]; rfl)
  · exact (hexValue_isSome_iff _).mp (by rw [hlo]; rfl)

theorem headerSafe_encodeByte (b : UInt8) {rest : List UInt8} (hrest : HeaderSafe rest) :
    HeaderSafe ((percentEncodeByte b).map (fun c => UInt8.ofNat c.toNat) ++ rest) := by
  unfold percentEncodeByte
  split
  · rename_i hplain
    have hle : b.toNat ≤ 126 := UInt8.le_iff_toNat_le.mp hplain.2.1
    have hsmall : b.toNat < 128 := by omega
    have hchar : UInt8.ofNat (Char.ofNat b.toNat).toNat = b := by
      rw [toNat_ofNat_of_ascii hsmall, UInt8.ofNat_toNat]
    simp only [List.map_cons, List.map_nil, List.singleton_append, hchar]
    exact .plain hplain.1 hplain.2.1 hplain.2.2 hrest
  · exact .escaped (hexNibble_isHexDigit b).1 (hexNibble_isHexDigit b).2 hrest

theorem headerSafe_encodeBytes (bytes : List UInt8) :
    HeaderSafe ((bytes.flatMap percentEncodeByte).map (fun c => UInt8.ofNat c.toNat)) := by
  induction bytes with
  | nil => exact .nil
  | cons b rest ih =>
      rw [List.flatMap_cons, List.map_append]
      exact headerSafe_encodeByte b ih

/-! ## The coding of every text -/

/-- The encoder writes a header value, the decoder undoes it, and text without
an escape passes through; no input makes the loop panic. -/
theorem percentCoding_lossless (s : String) :
    (∀ b ∈ utf8 (percentEncode s), 0x20 ≤ b ∧ b ≤ 0x7E) ∧
      (∀ i, (utf8 (percentEncode s))[i]? = some 37 →
        StartsEscape ((utf8 (percentEncode s)).drop i)) ∧
      percentDecodeChecked (percentEncode s) = .ok s ∧
      ((∀ i, ¬ StartsEscape ((utf8 s).drop i)) → percentDecodeChecked s = .ok s) ∧
      ∀ bytes : List UInt8, ∃ out, percentDecodeLoop bytes 0 [] = .ok out := by
  have hsafe : HeaderSafe (utf8 (percentEncode s)) := by
    rw [utf8_percentEncode]
    exact headerSafe_encodeBytes (utf8 s)
  refine ⟨hsafe.visible, hsafe.startsEscape, ?_, ?_, ?_⟩
  · rw [percentDecodeChecked_eq, percentDecode_percentEncode]
  · intro hnone
    rw [percentDecodeChecked_eq, percentDecode, percentDecodeBytes_eq_self hnone, fromUtf8_utf8]
    rfl
  · intro bytes
    exact ⟨_, percentDecodeLoop_eq bytes 0 []⟩

end TrilliumGrpc
