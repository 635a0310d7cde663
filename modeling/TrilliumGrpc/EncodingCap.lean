import TrilliumGrpc.Data.Blocking
import TrilliumGrpc.Data.Time
import TrilliumGrpc.Encoding

/-! # The cap on decompressed bytes

`read_capped` as it reads: the decoder under a limit of one byte more than the cap, the
limit computed in 64 bits.
-/

namespace TrilliumGrpc

open Blocking Time

/-- The readers of `flate2` and `zstd`. -/
class DecoderCrates (ρ : Type) where
  gzipDecoder : List UInt8 → ρ
  deflateDecoder : List UInt8 → ρ
  zstdDecoder : List UInt8 → Except String ρ

/-- `max_size as u64 + 1`: a build with overflow checks panics where one without them
wraps. -/
def capLimit (checks : Bool) (maxSize : UInt64) : MayPanic UInt64 :=
  if checks ∧ maxSize.toNat + 1 = 2 ^ 64 then .error ⟨"attempt to add with overflow"⟩
  else .ok (maxSize + 1)

section Read

variable {ρ : Type} [Read ρ] (checks : Bool) (room : List UInt8 → ℕ+)

/-- `read_capped`, and the reader as it leaves it. -/
def readCappedFrom (r : ρ) (maxSize : UInt64) (ctx : String) :
    MayPanic (Except Status (List UInt8) × ρ) := do
  let limit ← capLimit checks maxSize
  match readToEnd room (limit.toNat + 1) [] (⟨r, limit.toNat⟩ : Take ρ) with
  | (.error e, t) => .ok (.error (.internal (ctx ++ ": " ++ e)), t.inner)
  | (.ok out, t) =>
      if out.length > maxSize.toNat then .ok (.error (oversize maxSize.toNat), t.inner)
      else .ok (.ok out, t.inner)

namespace Encoding

variable [DecoderCrates ρ]

/-- The reader that a payload is decoded through, if there is one. -/
def decoder : Encoding → List UInt8 → Option ρ
  | identity, _ => none
  | gzip, data => some (DecoderCrates.gzipDecoder data)
  | deflate, data => some (DecoderCrates.deflateDecoder data)
  | zstd, data => (DecoderCrates.zstdDecoder data).toOption

def zstdDecompressFrom (data : List UInt8) (maxSize : UInt64) :
    MayPanic (Except Status (List UInt8) × Option ρ) :=
  match DecoderCrates.zstdDecoder (ρ := ρ) data with
  | .error e => .ok (.error (.internal ("zstd decompress: " ++ e)), none)
  | .ok dec => do
      let (out, left) ← readCappedFrom checks room dec maxSize "zstd decompress"
      return (out, some left)

/-- `decompress`, and the decoder as it leaves it. -/
def decompressFrom : Encoding → List UInt8 → UInt64 →
    MayPanic (Except Status (List UInt8) × Option ρ)
  | identity, data, maxSize =>
      .ok (if data.length > maxSize.toNat then .error (oversize maxSize.toNat) else .ok data, none)
  | gzip, data, maxSize => do
      let (out, left) ← readCappedFrom checks room (DecoderCrates.gzipDecoder data) maxSize
        "gzip decompress"
      return (out, some left)
  | deflate, data, maxSize => do
      let (out, left) ← readCappedFrom checks room (DecoderCrates.deflateDecoder data) maxSize
        "deflate decompress"
      return (out, some left)
  | zstd, data, maxSize => zstdDecompressFrom checks room data maxSize

end Encoding

end Read

section Source

variable {ρ : Type} [Source ρ] {checks : Bool} (room : List UInt8 → ℕ+)

def decoded (r : ρ) : Decoded := ⟨Source.rest r, Source.fault r⟩

theorem readCapped_eq (bytes : List UInt8) (fault : Option String) (maxSize : Nat)
    (ctx : String) :
    readCapped ⟨bytes, fault⟩ maxSize ctx =
      match outcome (bytes.take ((maxSize + 1) % 2 ^ 64))
        (if bytes.length < (maxSize + 1) % 2 ^ 64 then fault else none) with
      | .error e => .error (.internal (ctx ++ ": " ++ e))
      | .ok out => if out.length > maxSize then .error (oversize maxSize) else .ok out := by
  rw [readCapped]
  dsimp only
  cases (if bytes.length < (maxSize + 1) % 2 ^ 64 then fault else none) with
  | none => rfl
  | some e => rfl

/-- Where the limit is computed, the reader gives what its stream comes to under the cap,
and keeps the bytes behind the limit. -/
theorem readCappedFrom_spec {maxSize limit : UInt64} (hlimit : capLimit checks maxSize = .ok limit)
    (r : ρ) (ctx : String) :
    ∃ left, readCappedFrom checks room r maxSize ctx =
        .ok (readCapped (decoded r) maxSize.toNat ctx, left) ∧
      Source.rest left = (Source.rest r).drop ((maxSize.toNat + 1) % 2 ^ 64) := by
  have hnat : limit.toNat = (maxSize.toNat + 1) % 2 ^ 64 := by
    unfold capLimit at hlimit
    split at hlimit
    · cases hlimit
    · cases hlimit
      exact UInt64.toNat_add maxSize 1
  obtain ⟨hout, hleft⟩ := Take.readToEnd_take room r limit.toNat
  rw [← hnat]
  refine ⟨_, ?_, hleft⟩
  rw [readCappedFrom, hlimit, decoded, readCapped_eq, ← hnat, ← hout]
  simp only [bind, Except.bind]
  rcases readToEnd room (limit.toNat + 1) [] (⟨r, limit.toNat⟩ : Take ρ) with ⟨stop | out, t⟩
  · rfl
  · dsimp only
    split <;> rfl

variable [DecoderCrates ρ]

theorem decompressFrom_of_decoder (checks : Bool) {e : Encoding} {data : List UInt8} {r : ρ}
    (h : e.decoder data = some r) (maxSize : UInt64) :
    ∃ ctx, e.decompressFrom (ρ := ρ) checks room data maxSize =
      (readCappedFrom checks room r maxSize ctx).map fun p => (p.1, some p.2) := by
  cases e with
  | identity => cases h
  | gzip =>
      cases h
      refine ⟨"gzip decompress", ?_⟩
      rw [Encoding.decompressFrom]
      cases readCappedFrom checks room (DecoderCrates.gzipDecoder data : ρ) maxSize
        "gzip decompress" <;> rfl
  | deflate =>
      cases h
      refine ⟨"deflate decompress", ?_⟩
      rw [Encoding.decompressFrom]
      cases readCappedFrom checks room (DecoderCrates.deflateDecoder data : ρ) maxSize
        "deflate decompress" <;> rfl
  | zstd =>
      refine ⟨"zstd decompress", ?_⟩
      rw [Encoding.decoder] at h
      rw [Encoding.decompressFrom, Encoding.zstdDecompressFrom]
      cases hnew : DecoderCrates.zstdDecoder (ρ := ρ) data with
      | error e => rw [hnew] at h; cases h
      | ok dec =>
          rw [hnew] at h
          cases h
          dsimp only
          cases readCappedFrom checks room r maxSize "zstd decompress" <;> rfl

/-- The crates' streams are what their readers hand out. -/
structure ReadBy (ρ : Type) [CodecCrates] [Source ρ] [DecoderCrates ρ] : Prop where
  gzip : ∀ data, CodecCrates.gzipDecode data = decoded (DecoderCrates.gzipDecoder data : ρ)
  deflate : ∀ data,
    CodecCrates.deflateDecode data = decoded (DecoderCrates.deflateDecoder data : ρ)
  zstd : ∀ data,
    CodecCrates.zstdDecode data = (DecoderCrates.zstdDecoder (ρ := ρ) data).map decoded

/-- Reading through the decoder comes to `decompress`. -/
theorem decompressFrom_eq [CodecCrates] (hcrates : ReadBy ρ) {maxSize limit : UInt64}
    (hlimit : capLimit checks maxSize = .ok limit) (e : Encoding) (data : List UInt8) :
    ∃ left, e.decompressFrom (ρ := ρ) checks room data maxSize =
      .ok (e.decompress data maxSize.toNat, left) := by
  cases e with
  | identity => exact ⟨none, rfl⟩
  | gzip =>
      obtain ⟨left, hread, _⟩ := readCappedFrom_spec room hlimit
        (DecoderCrates.gzipDecoder data : ρ) "gzip decompress"
      rw [← hcrates.gzip] at hread
      refine ⟨some left, ?_⟩
      rw [Encoding.decompressFrom, hread]
      rfl
  | deflate =>
      obtain ⟨left, hread, _⟩ := readCappedFrom_spec room hlimit
        (DecoderCrates.deflateDecoder data : ρ) "deflate decompress"
      rw [← hcrates.deflate] at hread
      refine ⟨some left, ?_⟩
      rw [Encoding.decompressFrom, hread]
      rfl
  | zstd =>
      rw [Encoding.decompressFrom, Encoding.zstdDecompressFrom, Encoding.decompress,
        Encoding.zstdDecompress, hcrates.zstd]
      cases hnew : DecoderCrates.zstdDecoder (ρ := ρ) data with
      | error e => exact ⟨none, rfl⟩
      | ok dec =>
          obtain ⟨left, hread, _⟩ := readCappedFrom_spec room hlimit dec
            "zstd decompress"
          refine ⟨some left, ?_⟩
          dsimp only
          rw [hread]
          rfl

/-! ## Exactness -/

/-- The decoder turns the payload into `d` and ends without an error. -/
def DecodesTo (ρ : Type) [Source ρ] [DecoderCrates ρ] (e : Encoding) (data d : List UInt8) :
    Prop :=
  ∃ r : ρ, e.decoder data = some r ∧ decoded r = ⟨d, none⟩

/-- A message within the cap comes out whole and any other is refused, with at most one
byte beyond the cap read from the decoder. -/
def CapExact (ρ : Type) [Source ρ] [DecoderCrates ρ] (checks : Bool) (room : List UInt8 → ℕ+)
    (e : Encoding) (data d : List UInt8) (maxSize : UInt64) : Prop :=
  ∃ (res : Except Status (List UInt8)) (left : ρ),
    e.decompressFrom checks room data maxSize = .ok (res, some left) ∧
    (d.length ≤ maxSize.toNat → res = .ok d) ∧
    (maxSize.toNat < d.length → ∃ s, res = .error s ∧ s.code = .resourceExhausted) ∧
    ∃ taken, d = taken ++ Source.rest left ∧ taken.length ≤ maxSize.toNat + 1

theorem readCapped_below {d : List UInt8} {maxSize : Nat} (hmax : maxSize < 2 ^ 64 - 1)
    (hlong : maxSize < d.length) (ctx : String) :
    readCapped ⟨d, none⟩ maxSize ctx = .error (oversize maxSize) := by
  have hlimit : (maxSize + 1) % 2 ^ 64 = maxSize + 1 := Nat.mod_eq_of_lt (by omega)
  have hout : (d.take (maxSize + 1)).length = maxSize + 1 :=
    List.length_take_of_le (by omega)
  simp only [readCapped, hlimit, ite_self, hout]
  rw [if_pos (by omega)]

theorem readCapped_max (d : Decoded) (ctx : String) :
    readCapped d (2 ^ 64 - 1) ctx = .ok [] := by
  have hlimit : (2 ^ 64 - 1 + 1) % 2 ^ 64 = 0 := by decide
  simp only [readCapped, hlimit, Nat.not_lt_zero, if_false, List.take_zero, List.length_nil]

theorem capLimit_of_lt {maxSize : UInt64} (h : maxSize.toNat < 2 ^ 64 - 1) :
    capLimit checks maxSize = .ok (maxSize + 1) := by
  rw [capLimit, if_neg]
  omega

theorem capExact_of_lt {e : Encoding} {data d : List UInt8} {maxSize : UInt64}
    (h : DecodesTo ρ e data d) (hmax : maxSize.toNat < 2 ^ 64 - 1) :
    CapExact ρ checks room e data d maxSize := by
  obtain ⟨r, hdecoder, hstream⟩ := h
  obtain ⟨ctx, hfrom⟩ := decompressFrom_of_decoder room checks hdecoder maxSize
  obtain ⟨left, hread, hleft⟩ := readCappedFrom_spec room (capLimit_of_lt hmax) r ctx
  have hrest : Source.rest r = d := congrArg Decoded.bytes hstream
  rw [hread, hstream] at hfrom
  refine ⟨_, left, hfrom, fun hle => readCapped_of_le hle hmax ctx,
    fun hlong => ⟨_, readCapped_below hmax hlong ctx, rfl⟩, d.take (maxSize.toNat + 1), ?_,
    List.length_take_le _ _⟩
  rw [hleft, hrest, Nat.mod_eq_of_lt (by omega), List.take_append_drop]

/-- The cap is exact below the largest size there is; at that size it holds of the empty
message alone, and only without overflow checks. -/
theorem capExact_iff {e : Encoding} {data d : List UInt8} {maxSize : UInt64}
    (h : DecodesTo ρ e data d) : CapExact ρ checks room e data d maxSize ↔
      maxSize.toNat < 2 ^ 64 - 1 ∨ (checks = false ∧ d = []) := by
  by_cases hmax : maxSize.toNat < 2 ^ 64 - 1
  · exact iff_of_true (capExact_of_lt room h hmax) (Or.inl hmax)
  rw [or_iff_right hmax]
  have htop : maxSize.toNat = 2 ^ 64 - 1 := by
    have hlt := maxSize.toNat_lt
    omega
  obtain ⟨r, hdecoder, hstream⟩ := h
  obtain ⟨ctx, hfrom⟩ := decompressFrom_of_decoder room checks hdecoder maxSize
  cases checks with
  | true =>
      have hpanic : capLimit true maxSize = .error ⟨"attempt to add with overflow"⟩ := by
        rw [capLimit, if_pos ⟨rfl, by omega⟩]
      rw [readCappedFrom, hpanic] at hfrom
      constructor
      · rintro ⟨res, left, hout, _⟩
        rw [hfrom] at hout
        cases hout
      · rintro ⟨hchecks, _⟩
        cases hchecks
  | false =>
      have hlimit : capLimit false maxSize = .ok (maxSize + 1) := by
        rw [capLimit, if_neg (by simp)]
      obtain ⟨left, hread, hleft⟩ := readCappedFrom_spec room hlimit r ctx
      rw [htop, readCapped_max] at hread
      rw [hread] at hfrom
      have hrest : Source.rest left = d := by
        rw [hleft, htop]
        exact congrArg Decoded.bytes hstream
      constructor
      · rintro ⟨res, left', hout, hwithin, hbeyond, _⟩
        rw [hfrom] at hout
        cases hout
        refine ⟨rfl, ?_⟩
        by_cases hle : d.length ≤ maxSize.toNat
        · have hwhole := hwithin hle
          cases hwhole
          rfl
        · obtain ⟨s, herr, _⟩ := hbeyond (by omega)
          cases herr
      · rintro ⟨_, rfl⟩
        refine ⟨.ok [], left, hfrom, fun _ => rfl, fun hlong => ?_, [], hrest.symm, Nat.zero_le _⟩
        exact absurd hlong (Nat.not_lt_zero _)

/-- `flate2`'s readers over the payloads of the tables. -/
@[reducible] def tableDecoders : DecoderCrates Slice where
  gzipDecoder data := ⟨(gzipTable.decode data).bytes⟩
  deflateDecoder data := ⟨(deflateTable.decode data).bytes⟩
  zstdDecoder _ := .error "not in the table"

theorem gzippedSeven_decodes :
    letI := tableDecoders
    DecodesTo Slice .gzip gzippedSeven [7] := by
  let _ := tableDecoders
  exact ⟨_, rfl, rfl⟩

theorem capExact_at_four :
    letI := tableDecoders
    CapExact Slice false (fun _ => 32) .gzip gzippedSeven [7] 4 := by
  let _ := tableDecoders
  exact (capExact_iff _ gzippedSeven_decodes).mpr (Or.inl (by decide))

/-- With no limit asked for, a message of one byte is read as the empty one. -/
theorem unlimited_truncates :
    letI := tableDecoders
    ¬ CapExact Slice false (fun _ => 32) .gzip gzippedSeven [7] (-1) := by
  let _ := tableDecoders
  rintro ⟨res, left, hout, hwithin, _⟩
  rw [hwithin (by decide)] at hout
  cases hout

end Source

end TrilliumGrpc
