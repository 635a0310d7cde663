import TrilliumGrpc.Data.Base64
import TrilliumGrpc.Data.HeaderMap

/-! # Custom metadata

`src/metadata.rs`: ASCII values and base64-carried `-bin` values, the checks of
the two inserts, and the passage through a header map in both directions. A key
or value check over bytes is written over characters: a byte of a multi-byte
character lies outside every set checked here.
-/

namespace TrilliumGrpc

open Bytes

/-- The unpadded standard base64 engine of the `base64` crate. -/
class Base64 where
  encode : List UInt8 → String
  decode : List UInt8 → Option (List UInt8)
  decode_encode : ∀ bytes, decode (utf8 (encode bytes)) = some bytes

@[reducible] def standardNoPad : Base64 where
  encode := Base64Text.encode
  decode := Base64Text.decode
  decode_encode := Base64Text.decode_encode

inductive MetadataValue where
  | ascii (text : String)
  | binary (bytes : List UInt8)
deriving DecidableEq, Repr

structure Metadata where
  entries : List (String × MetadataValue)
deriving DecidableEq, Repr

inductive MetadataError where
  | invalidKey (key : String)
  | reservedKey (key : String)
  | asciiKeyHasBinSuffix (key : String)
  | binaryKeyMissingBinSuffix (key : String)
  | invalidAsciiValue
deriving DecidableEq, Repr

/-- The Unicode tables of `core`: which characters `{:?}` escapes by number, first in a string
or behind others. -/
class UnicodeTables where
  escaped (first : Bool) (c : Char) : Bool

/-- Tables for text without combining and format characters. -/
@[reducible] def plainTables : UnicodeTables :=
  ⟨fun _ c => c.toNat < 32 || (127 ≤ c.toNat && c.toNat < 160)⟩

section

variable [UnicodeTables]

/-- One character of `{:?}` on a string. -/
def debugChar (first : Bool) (c : Char) : List Char :=
  if c = '\t' then "\\t".toList
  else if c = '\r' then "\\r".toList
  else if c = '\n' then "\\n".toList
  else if c = '"' then "\\\"".toList
  else if c = '\\' then "\\\\".toList
  else if c = Char.ofNat 0 then "\\0".toList
  else if UnicodeTables.escaped first c then
    "\\u\x7b".toList ++ Nat.toDigits 16 c.toNat ++ "\x7d".toList
  else [c]

def debugChars : Bool → List Char → List Char
  | _, [] => []
  | first, c :: later => debugChar first c ++ debugChars false later

/-- `{:?}` on a string. -/
def debugStr (s : String) : String :=
  String.ofList ('"' :: (debugChars true s.toList ++ ['"']))

/-- The `Display` text of an error. -/
def MetadataError.message : MetadataError → String
  | .invalidKey key =>
      "metadata key " ++ debugStr key ++ " contains invalid characters (must match [0-9a-z_\\-.]+)"
  | .reservedKey key => "metadata key " ++ debugStr key ++ " is reserved by the gRPC framework"
  | .asciiKeyHasBinSuffix key =>
      "ASCII metadata key " ++ debugStr key ++ " must not end in -bin"
  | .binaryKeyMissingBinSuffix key =>
      "binary metadata key " ++ debugStr key ++ " must end in -bin"
  | .invalidAsciiValue => "ASCII metadata value contains non-printable bytes"

end

/-! ## Key and value checks -/

/-- `[0-9a-z_.-]`. -/
def isKeyChar (c : Char) : Bool :=
  (48 ≤ c.toNat && c.toNat ≤ 57) || (97 ≤ c.toNat && c.toNat ≤ 122) ||
    c = '_' || c = '-' || c = '.'

def isValidKey (key : String) : Bool := !key.toList.isEmpty && key.toList.all isKeyChar

def isValidAsciiValue (value : String) : Bool :=
  value.toList.all (fun c => 32 ≤ c.toNat && c.toNat ≤ 126)

def isReserved (key : String) : Bool :=
  "grpc-".toList.isPrefixOf key.toList ||
    ["te", "content-type", "user-agent", "host", "connection"].contains key

def endsWithBin (key : String) : Bool := "-bin".toList.isSuffixOf key.toList

def validateKey (key : String) : Except MetadataError Unit :=
  if isValidKey key then .ok () else .error (.invalidKey key)

namespace Metadata

def new : Metadata := ⟨[]⟩

def insertAscii (m : Metadata) (key value : String) : Except MetadataError Metadata := do
  validateKey key
  if isReserved key then throw (.reservedKey key)
  if endsWithBin key then throw (.asciiKeyHasBinSuffix key)
  if !isValidAsciiValue value then throw .invalidAsciiValue
  return ⟨m.entries ++ [(key, .ascii value)]⟩

def insertBinary (m : Metadata) (key : String) (value : List UInt8) :
    Except MetadataError Metadata := do
  validateKey key
  if isReserved key then throw (.reservedKey key)
  if !endsWithBin key then throw (.binaryKeyMissingBinSuffix key)
  return ⟨m.entries ++ [(key, .binary value)]⟩

/-- The values stored under one key, in insertion order. -/
def valuesOf (m : Metadata) (key : String) : List MetadataValue :=
  (m.entries.filter (fun entry => entry.1 = key)).map Prod.snd

variable {H : Type} [HeaderMap H] [Base64]

def readValue (key : String) (value : HeaderValue) : Option MetadataValue :=
  if endsWithBin key then (Base64.decode value).map .binary else value.asStr.map .ascii

def readEntry (name : String) (values : List HeaderValue) : List (String × MetadataValue) :=
  let key := asciiLower name
  if isReserved key || !isValidKey key then []
  else values.filterMap (fun value => (readValue key value).map (fun v => (key, v)))

def fromHeaders (headers : H) : Metadata :=
  ⟨(HeaderMap.iter headers).flatMap (fun entry => readEntry entry.1 entry.2)⟩

def encodeValue : MetadataValue → HeaderValue
  | .ascii text => .ofString text
  | .binary bytes => .ofString (Base64.encode bytes)

def writeInto (m : Metadata) (headers : H) : H :=
  m.entries.foldl (fun h entry => HeaderMap.append h entry.1 (encodeValue entry.2)) headers

end Metadata

/-! ## What the inserts accept -/

/-- A key an insert lets through, with a value of the kind its suffix calls for. -/
def EntryValid : String × MetadataValue → Prop
  | (key, .ascii text) =>
      isValidKey key ∧ ¬ isReserved key ∧ ¬ endsWithBin key ∧ isValidAsciiValue text
  | (key, .binary _) => isValidKey key ∧ ¬ isReserved key ∧ endsWithBin key

/-- A key that is well formed and not the framework's own. -/
def OwnKey (key : String) : Prop := isValidKey key = true ∧ isReserved key = false

theorem EntryValid.key {entry : String × MetadataValue} (h : EntryValid entry) :
    OwnKey entry.1 := by
  obtain ⟨key, value⟩ := entry
  cases value with
  | ascii text => exact ⟨h.1, Bool.eq_false_iff.mpr h.2.1⟩
  | binary bytes => exact ⟨h.1, Bool.eq_false_iff.mpr h.2.1⟩

namespace Metadata

/-- The maps that successful inserts build. -/
inductive Built : Metadata → Prop where
  | new : Built new
  | ascii {m m' : Metadata} {key value : String} :
      Built m → m.insertAscii key value = .ok m' → Built m'
  | binary {m m' : Metadata} {key : String} {value : List UInt8} :
      Built m → m.insertBinary key value = .ok m' → Built m'

theorem insertAscii_ok {m m' : Metadata} {key value : String}
    (h : m.insertAscii key value = .ok m') :
    EntryValid (key, .ascii value) ∧ m'.entries = m.entries ++ [(key, .ascii value)] := by
  unfold insertAscii validateKey at h
  by_cases hk : isValidKey key <;> by_cases hr : isReserved key <;>
    by_cases hb : endsWithBin key <;> by_cases hv : isValidAsciiValue value <;>
      simp [hk, hr, hb, hv, bind, Except.bind, pure, Except.pure, throw, throwThe,
        MonadExceptOf.throw] at h
  subst h
  exact ⟨⟨hk, hr, hb, hv⟩, rfl⟩

theorem insertBinary_ok {m m' : Metadata} {key : String} {value : List UInt8}
    (h : m.insertBinary key value = .ok m') :
    EntryValid (key, .binary value) ∧ m'.entries = m.entries ++ [(key, .binary value)] := by
  unfold insertBinary validateKey at h
  by_cases hk : isValidKey key <;> by_cases hr : isReserved key <;>
    by_cases hb : endsWithBin key <;>
      simp [hk, hr, hb, bind, Except.bind, pure, Except.pure, throw, throwThe,
        MonadExceptOf.throw] at h
  subst h
  exact ⟨⟨hk, hr, hb⟩, rfl⟩

theorem Built.valid {m : Metadata} (h : Built m) : ∀ entry ∈ m.entries, EntryValid entry := by
  induction h with
  | new => simp [Metadata.new]
  | ascii _ hins ih =>
      obtain ⟨hv, he⟩ := insertAscii_ok hins
      intro entry hmem
      rw [he, List.mem_append, List.mem_singleton] at hmem
      rcases hmem with hmem | rfl
      · exact ih entry hmem
      · exact hv
  | binary _ hins ih =>
      obtain ⟨hv, he⟩ := insertBinary_ok hins
      intro entry hmem
      rw [he, List.mem_append, List.mem_singleton] at hmem
      rcases hmem with hmem | rfl
      · exact ih entry hmem
      · exact hv

theorem Built.keys {m : Metadata} (h : Built m) : ∀ entry ∈ m.entries, OwnKey entry.1 := by
  intro entry hmem
  exact (h.valid entry hmem).key

end Metadata

end TrilliumGrpc
