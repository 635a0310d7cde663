import TrilliumGrpc.Status

/-! # Per-message compression

`src/encoding.rs`. The codec crates are parameters: an encoder is one-shot, a
decoder is the byte stream its reader hands out and how that stream ends. The
cargo features decide which codecs a build knows by name; its `core` brings the Unicode
tables that error texts are written by.
-/

namespace TrilliumGrpc

/-- What a decoder's reader yields before it ends, cleanly or with an error. -/
structure Decoded where
  bytes : List UInt8
  fault : Option String
deriving DecidableEq, Repr

/-- `flate2` and `zstd`. -/
class CodecCrates where
  gzipEncode : List UInt8 → Except String (List UInt8)
  gzipDecode : List UInt8 → Decoded
  deflateEncode : List UInt8 → Except String (List UInt8)
  deflateDecode : List UInt8 → Decoded
  zstdEncode : List UInt8 → Except String (List UInt8)
  zstdDecode : List UInt8 → Except String Decoded

class Features extends UnicodeTables where
  gzip : Bool
  deflate : Bool
  zstd : Bool

@[reducible] def allFeatures : Features :=
  { plainTables with gzip := true, deflate := true, zstd := true }

def defaultMaxMessageSize : Nat := 4 * 1024 * 1024

inductive Encoding where
  | identity
  | gzip
  | deflate
  | zstd
deriving DecidableEq, Repr

def oversize (maxSize : Nat) : Status :=
  .resourceExhausted ("decompressed message exceeds limit of " ++ maxSize.repr ++ " bytes")

/-- `r.take(max_size as u64 + 1).read_to_end(..)`: the error of a reader is met
only if the limit is not reached first. -/
def readCapped (r : Decoded) (maxSize : Nat) (ctx : String) : Except Status (List UInt8) :=
  let limit := (maxSize + 1) % 2 ^ 64
  match if r.bytes.length < limit then r.fault else none with
  | some e => .error (.internal (ctx ++ ": " ++ e))
  | none =>
      let out := r.bytes.take limit
      if out.length > maxSize then .error (oversize maxSize) else .ok out

theorem readCapped_of_le {bytes : List UInt8} {maxSize : Nat} (hlen : bytes.length ≤ maxSize)
    (hmax : maxSize < 2 ^ 64 - 1) (ctx : String) :
    readCapped ⟨bytes, none⟩ maxSize ctx = .ok bytes := by
  have hlimit : (maxSize + 1) % 2 ^ 64 = maxSize + 1 := Nat.mod_eq_of_lt (by omega)
  have htake : bytes.take (maxSize + 1) = bytes := List.take_of_length_le (by omega)
  simp only [readCapped, hlimit, htake, ite_self]
  rw [if_neg (by omega)]

namespace Encoding

section Names

variable [Features]

def all : List Encoding :=
  [identity] ++ (if Features.gzip then [gzip] else []) ++
    (if Features.deflate then [deflate] else []) ++ (if Features.zstd then [zstd] else [])

def fromGrpcEncoding (s : String) : Option Encoding :=
  if s = "identity" then some identity
  else if Features.gzip ∧ s = "gzip" then some gzip
  else if Features.deflate ∧ s = "deflate" then some deflate
  else if Features.zstd ∧ s = "zstd" then some zstd
  else none

end Names

def asGrpcEncoding : Encoding → String
  | identity => "identity"
  | gzip => "gzip"
  | deflate => "deflate"
  | zstd => "zstd"

def acceptedEncodings [Features] : String := ",".intercalate (all.map asGrpcEncoding)

section Names

variable [Features]

theorem fromGrpcEncoding_asGrpcEncoding {e : Encoding} (h : e ∈ all) :
    fromGrpcEncoding e.asGrpcEncoding = some e := by
  cases e with
  | identity => rfl
  | gzip => simp_all [all, fromGrpcEncoding, asGrpcEncoding]
  | deflate => simp_all [all, fromGrpcEncoding, asGrpcEncoding]
  | zstd => simp_all [all, fromGrpcEncoding, asGrpcEncoding]

theorem fromGrpcEncoding_some {s : String} {e : Encoding} (h : fromGrpcEncoding s = some e) :
    e ∈ all ∧ e.asGrpcEncoding = s := by
  unfold fromGrpcEncoding at h
  split at h
  · cases h
    simp_all [all, asGrpcEncoding]
  · split at h
    · cases h
      simp_all [all, asGrpcEncoding]
    · split at h
      · cases h
        simp_all [all, asGrpcEncoding]
      · split at h
        · cases h
          simp_all [all, asGrpcEncoding]
        · simp at h

theorem fromGrpcEncoding_of_not_mem {e : Encoding} (h : e ∉ all) :
    fromGrpcEncoding e.asGrpcEncoding = none := by
  cases hfound : fromGrpcEncoding e.asGrpcEncoding with
  | none => rfl
  | some found =>
      obtain ⟨hknown, hname⟩ := fromGrpcEncoding_some hfound
      have hsame : found = e := by
        revert hname
        cases found <;> cases e <;> decide
      exact absurd (hsame ▸ hknown) h

end Names

variable [CodecCrates]

def gzipCompress (data : List UInt8) : Except Status (List UInt8) :=
  (CodecCrates.gzipEncode data).mapError (fun e => .internal ("gzip compress: " ++ e))

def gzipDecompress (data : List UInt8) (maxSize : Nat) : Except Status (List UInt8) :=
  readCapped (CodecCrates.gzipDecode data) maxSize "gzip decompress"

def deflateCompress (data : List UInt8) : Except Status (List UInt8) :=
  (CodecCrates.deflateEncode data).mapError (fun e => .internal ("deflate compress: " ++ e))

def deflateDecompress (data : List UInt8) (maxSize : Nat) : Except Status (List UInt8) :=
  readCapped (CodecCrates.deflateDecode data) maxSize "deflate decompress"

def zstdCompress (data : List UInt8) : Except Status (List UInt8) :=
  (CodecCrates.zstdEncode data).mapError (fun e => .internal ("zstd compress: " ++ e))

def zstdDecompress (data : List UInt8) (maxSize : Nat) : Except Status (List UInt8) :=
  match CodecCrates.zstdDecode data with
  | .error e => .error (.internal ("zstd decompress: " ++ e))
  | .ok dec => readCapped dec maxSize "zstd decompress"

def compress : Encoding → List UInt8 → Except Status (List UInt8)
  | identity, data => .ok data
  | gzip, data => gzipCompress data
  | deflate, data => deflateCompress data
  | zstd, data => zstdCompress data

def decompress : Encoding → List UInt8 → Nat → Except Status (List UInt8)
  | identity, data, maxSize => if data.length > maxSize then .error (oversize maxSize) else .ok data
  | gzip, data, maxSize => gzipDecompress data maxSize
  | deflate, data, maxSize => deflateDecompress data maxSize
  | zstd, data, maxSize => zstdDecompress data maxSize

end Encoding

/-- The crates' decoders undo their encoders. -/
class LawfulCrates [CodecCrates] : Prop where
  gzip : ∀ {data out}, CodecCrates.gzipEncode data = .ok out →
    CodecCrates.gzipDecode out = ⟨data, none⟩
  deflate : ∀ {data out}, CodecCrates.deflateEncode data = .ok out →
    CodecCrates.deflateDecode out = ⟨data, none⟩
  zstd : ∀ {data out}, CodecCrates.zstdEncode data = .ok out →
    CodecCrates.zstdDecode out = .ok ⟨data, none⟩

@[reducible] def storedCrates : CodecCrates where
  gzipEncode := .ok
  gzipDecode data := ⟨data, none⟩
  deflateEncode := .ok
  deflateDecode data := ⟨data, none⟩
  zstdEncode := .ok
  zstdDecode data := .ok ⟨data, none⟩

theorem storedCrates_lawful : @LawfulCrates storedCrates :=
  letI := storedCrates
  { gzip := fun h => by cases h; rfl
    deflate := fun h => by cases h; rfl
    zstd := fun h => by cases h; rfl }

/-! ## Some real bytes -/

abbrev CodecTable := List (List UInt8 × List UInt8)

def CodecTable.encode (table : CodecTable) (data : List UInt8) : Except String (List UInt8) :=
  match table.lookup data with
  | some out => .ok out
  | none => .error "not in the table"

def CodecTable.decode (table : CodecTable) (out : List UInt8) : Decoded :=
  match table.find? (fun entry => entry.2 = out) with
  | some (data, _) => ⟨data, none⟩
  | none => ⟨[], some "corrupt stream"⟩

/-- Short messages in raw DEFLATE, as `flate2` writes them at its default level. -/
def deflateTable : CodecTable :=
  [([7], [0x63, 0x07, 0x00]), ([8], [0xe3, 0x00, 0x00]), ([8, 9], [0xe3, 0xe0, 0x04, 0x00])]

/-- The gzip member of the one byte 7: a header, the deflated byte, its checksum and its
length. -/
def gzippedSeven : List UInt8 :=
  [0x1f, 0x8b, 0x08, 0, 0, 0, 0, 0, 0, 0xff, 0x63, 0x07, 0x00, 0x2e, 0x7a, 0x66, 0x4c, 1, 0, 0, 0]

def gzipTable : CodecTable := [([7], gzippedSeven)]

theorem CodecTable.decode_encode {table : CodecTable}
    (hdistinct : ∀ entry ∈ table, table.decode entry.2 = ⟨entry.1, none⟩) {data out : List UInt8}
    (h : table.encode data = .ok out) : table.decode out = ⟨data, none⟩ := by
  rw [encode] at h
  split at h
  · rename_i found hfound
    cases h
    obtain ⟨before, after, rfl, _⟩ := List.lookup_eq_some_iff.mp hfound
    exact hdistinct (data, out) (by simp)
  · cases h

/-- `flate2`, on these messages. -/
@[reducible] def tableCrates : CodecCrates where
  gzipEncode := gzipTable.encode
  gzipDecode := gzipTable.decode
  deflateEncode := deflateTable.encode
  deflateDecode := deflateTable.decode
  zstdEncode := CodecTable.encode []
  zstdDecode data := .ok (CodecTable.decode [] data)

theorem tableCrates_lawful : @LawfulCrates tableCrates :=
  letI := tableCrates
  { gzip := CodecTable.decode_encode (by decide)
    deflate := CodecTable.decode_encode (by decide)
    zstd := fun h => by cases h }

theorem mapError_ok {α ε δ : Type} {f : ε → δ} {x : Except ε α} {a : α}
    (h : x.mapError f = .ok a) : x = .ok a := by
  cases x with
  | error e => simp [Except.mapError] at h
  | ok b => simpa [Except.mapError] using h

theorem exists_of_map_ok {ε α β : Type} {f : α → β} {x : Except ε α} {b : β}
    (h : x.map f = .ok b) : ∃ a, x = .ok a ∧ f a = b := by
  cases x with
  | error e => cases h
  | ok a => exact ⟨a, rfl, Except.ok.inj h⟩

/-- A compressed message within the cap is recovered. -/
theorem Encoding.decompress_compress [CodecCrates] [LawfulCrates] {e : Encoding}
    {data out : List UInt8} {maxSize : Nat} (h : e.compress data = .ok out)
    (hlen : data.length ≤ maxSize) (hmax : maxSize < 2 ^ 64 - 1) :
    e.decompress out maxSize = .ok data := by
  cases e with
  | identity =>
      cases h
      rw [Encoding.decompress, if_neg (by omega)]
  | gzip =>
      have henc := LawfulCrates.gzip (mapError_ok h)
      rw [Encoding.decompress, Encoding.gzipDecompress, henc, readCapped_of_le hlen hmax]
  | deflate =>
      have henc := LawfulCrates.deflate (mapError_ok h)
      rw [Encoding.decompress, Encoding.deflateDecompress, henc, readCapped_of_le hlen hmax]
  | zstd =>
      have henc := LawfulCrates.zstd (mapError_ok h)
      simp only [Encoding.decompress, Encoding.zstdDecompress, henc]
      exact readCapped_of_le hlen hmax _

end TrilliumGrpc
