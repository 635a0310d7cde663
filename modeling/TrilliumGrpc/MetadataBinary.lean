import TrilliumGrpc.MetadataWire

/-! # Binary metadata of other peers

A peer may pad the base64 text of a `-bin` value and may join several values by commas
in one header. `from_headers` hands each header value to the unpadded engine as it is.
-/

namespace TrilliumGrpc

open Bytes HeaderMap

/-- The unpadded engine refuses a byte outside the standard alphabet. -/
class UnpaddedBase64 [Base64] : Prop where
  decode_alphabet : ∀ {text bytes}, Base64.decode text = some bytes →
    ∀ b ∈ text, (Base64Text.value b).isSome

theorem standardNoPad_unpadded : letI := standardNoPad
    UnpaddedBase64 := by
  let _ := standardNoPad
  exact ⟨Base64Text.decode_alphabet⟩

structure SentBytes where
  bytes : List UInt8
  padded : Bool

structure SentValue where
  first : SentBytes
  rest : List SentBytes

def SentBytes.padding (s : SentBytes) : List UInt8 :=
  if s.padded then List.replicate ((3 - s.bytes.length % 3) % 3) 61 else []

def SentValue.all (v : SentValue) : List SentBytes := v.first :: v.rest

def SentValue.Plain (v : SentValue) : Prop :=
  v.rest = [] ∧ (v.first.padded = false ∨ v.first.bytes.length % 3 = 0)

theorem SentBytes.padding_eq_nil_iff (s : SentBytes) :
    s.padding = [] ↔ s.padded = false ∨ s.bytes.length % 3 = 0 := by
  unfold padding
  cases s.padded with
  | false => simp
  | true =>
      have hcount : (3 - s.bytes.length % 3) % 3 = 0 ↔ s.bytes.length % 3 = 0 := by omega
      simp [hcount]

theorem SentValue.length_le_flatMap_all (sent : List SentValue) :
    sent.length ≤ (sent.flatMap all).length := by
  induction sent with
  | nil => exact Nat.le_refl 0
  | cons v sent ih =>
      rw [List.flatMap_cons, List.length_append, List.length_cons, all, List.length_cons]
      omega

namespace Metadata

section Headers

variable [Base64]

def sentText (s : SentBytes) : List UInt8 := utf8 (Base64.encode s.bytes) ++ s.padding

def sentHeader (v : SentValue) : HeaderValue :=
  sentText v.first ++ v.rest.flatMap (fun s => 44 :: sentText s)

theorem decode_plain {v : SentValue} (h : v.Plain) :
    Base64.decode (sentHeader v) = some v.first.bytes := by
  have hpadding := v.first.padding_eq_nil_iff.mpr h.2
  rw [sentHeader, sentText, hpadding, h.1, List.flatMap_nil, List.append_nil, List.append_nil,
    Base64.decode_encode]

variable [UnpaddedBase64]

/-- Padding and commas are outside the alphabet. -/
theorem decode_not_plain {v : SentValue} (h : ¬ v.Plain) : Base64.decode (sentHeader v) = none := by
  by_contra hdecode
  obtain ⟨bytes, hdecode⟩ := Option.ne_none_iff_exists'.mp hdecode
  have halphabet := UnpaddedBase64.decode_alphabet hdecode
  have hrest : v.rest = [] := by
    cases hrest : v.rest with
    | nil => rfl
    | cons s rest =>
        have hcomma := halphabet 44 (by simp [sentHeader, hrest])
        exact absurd hcomma (by decide)
  have hpadding : v.first.padding = [] := by
    rw [List.eq_nil_iff_forall_not_mem]
    intro b hb
    have hvalue := halphabet b (by simp [sentHeader, sentText, hb])
    have hequals : b = 61 := by
      unfold SentBytes.padding at hb
      split at hb
      · exact List.eq_of_mem_replicate hb
      · cases hb
    rw [hequals] at hvalue
    exact absurd hvalue (by decide)
  exact h ⟨hrest, v.first.padding_eq_nil_iff.mp hpadding⟩

def readSent (v : SentValue) : Option MetadataValue :=
  (Base64.decode (sentHeader v)).map .binary

omit [UnpaddedBase64] in
theorem filterMap_readSent {sent : List SentValue} (h : ∀ v ∈ sent, v.Plain) :
    sent.filterMap readSent = (sent.flatMap SentValue.all).map (fun s => .binary s.bytes) := by
  induction sent with
  | nil => rfl
  | cons v sent ih =>
      have hv : v.Plain := h v List.mem_cons_self
      have hread : readSent v = some (.binary v.first.bytes) := by
        rw [readSent, decode_plain hv, Option.map_some]
      have hall : v.all = [v.first] := by rw [SentValue.all, hv.1]
      have hrest : ∀ w ∈ sent, w.Plain := by
        intro w hw
        exact h w (List.mem_cons_of_mem v hw)
      rw [List.filterMap_cons_some hread, ih hrest, List.flatMap_cons, hall]
      rfl

variable {H : Type} [HeaderMap H]

/-- The byte strings are read as they were sent exactly when every header value holds one
of them, without padding. -/
theorem binary_forms_read_iff {headers : H} {key : String} (hown : OwnKey key)
    (hbin : endsWithBin key = true) {sent : List SentValue}
    (hsent : values headers key = sent.map sentHeader) :
    (fromHeaders headers).valuesOf key =
        (sent.flatMap SentValue.all).map (fun s => .binary s.bytes) ↔
      ∀ v ∈ sent, v.Plain := by
  have hread : (fromHeaders headers).valuesOf key = sent.filterMap readSent := by
    rw [valuesOf_fromHeaders _ _ hown.1 hown.2, hsent, List.filterMap_map]
    apply List.filterMap_congr
    intro v _
    rw [Function.comp_apply, readValue, if_pos hbin, readSent]
  rw [hread]
  constructor
  · intro h v hv
    by_contra hplain
    have hdropped : readSent v = none := by
      rw [readSent, decode_not_plain hplain, Option.map_none]
    have hfewer : (sent.filterMap readSent).length < sent.length :=
      List.length_filterMap_lt_length_iff_exists.mpr ⟨v, hv, hdropped⟩
    have hmore := SentValue.length_le_flatMap_all sent
    rw [h, List.length_map] at hfewer
    omega
  · exact filterMap_readSent

end Headers

theorem unpadded_value_read : letI := standardNoPad
    (fromHeaders (append (empty : HeaderList) "x-raw-bin" (.ofString "/w"))).valuesOf "x-raw-bin" =
      [.binary [255]] := by
  let _ := standardNoPad
  have _ := standardNoPad_unpadded
  have hsent : values (append (empty : HeaderList) "x-raw-bin" (.ofString "/w")) "x-raw-bin" =
      [⟨⟨[255], false⟩, []⟩].map sentHeader := by decide
  apply (binary_forms_read_iff ⟨by decide, by decide⟩ (by decide) hsent).mpr
  intro v hv
  rw [List.mem_singleton.mp hv]
  exact ⟨rfl, .inl rfl⟩

/-- The padded byte and the pair joined by a comma are dropped. -/
theorem padded_and_joined_dropped : letI := standardNoPad
    ∃ headers : HeaderList, values headers "x-raw-bin" = [⟨⟨[255], true⟩, []⟩,
        ⟨⟨[1], false⟩, [⟨[2], false⟩]⟩, ⟨⟨[3], false⟩, []⟩].map sentHeader ∧
      (fromHeaders headers).valuesOf "x-raw-bin" = [.binary [3]] := by
  let _ := standardNoPad
  refine ⟨append (append (append empty "x-raw-bin" (.ofString "/w==")) "x-raw-bin"
    (.ofString "AQ,Ag")) "x-raw-bin" (.ofString "Aw"), by decide, ?_⟩
  rw [valuesOf_fromHeaders _ _ (by decide) (by decide)]
  decide

end Metadata

end TrilliumGrpc
