import TrilliumGrpc.Data.Digits
import TrilliumGrpc.MetadataWire

/-! # Call outcomes

`src/status.rs`: the code, message and metadata of a call and their passage
through the trailers.
-/

namespace TrilliumGrpc

open Bytes HeaderMap

inductive Code where
  | ok
  | cancelled
  | unknown
  | invalidArgument
  | deadlineExceeded
  | notFound
  | alreadyExists
  | permissionDenied
  | resourceExhausted
  | failedPrecondition
  | aborted
  | outOfRange
  | unimplemented
  | internal
  | unavailable
  | dataLoss
  | unauthenticated
deriving DecidableEq, Repr

namespace Code

def fromU8 : Nat → Option Code
  | 0 => some ok
  | 1 => some cancelled
  | 2 => some unknown
  | 3 => some invalidArgument
  | 4 => some deadlineExceeded
  | 5 => some notFound
  | 6 => some alreadyExists
  | 7 => some permissionDenied
  | 8 => some resourceExhausted
  | 9 => some failedPrecondition
  | 10 => some aborted
  | 11 => some outOfRange
  | 12 => some unimplemented
  | 13 => some internal
  | 14 => some unavailable
  | 15 => some dataLoss
  | 16 => some unauthenticated
  | _ => none

def asU8 : Code → Nat
  | ok => 0
  | cancelled => 1
  | unknown => 2
  | invalidArgument => 3
  | deadlineExceeded => 4
  | notFound => 5
  | alreadyExists => 6
  | permissionDenied => 7
  | resourceExhausted => 8
  | failedPrecondition => 9
  | aborted => 10
  | outOfRange => 11
  | unimplemented => 12
  | internal => 13
  | unavailable => 14
  | dataLoss => 15
  | unauthenticated => 16

theorem fromU8_asU8 (c : Code) : fromU8 c.asU8 = some c := by
  cases c <;> rfl

theorem asU8_lt (c : Code) : c.asU8 < 256 := by
  cases c <;> decide

end Code

structure Status where
  code : Code
  message : String
  metadata : Metadata
deriving DecidableEq, Repr

namespace Status

def new (code : Code) (message : String) : Status := ⟨code, message, Metadata.new⟩

def ok : Status := ⟨.ok, "", Metadata.new⟩

def cancelled (message : String) : Status := new .cancelled message

def invalidArgument (message : String) : Status := new .invalidArgument message

def deadlineExceeded (message : String) : Status := new .deadlineExceeded message

def notFound (message : String) : Status := new .notFound message

def resourceExhausted (message : String) : Status := new .resourceExhausted message

def failedPrecondition (message : String) : Status := new .failedPrecondition message

def unimplemented (message : String) : Status := new .unimplemented message

def internal (message : String) : Status := new .internal message

def unavailable (message : String) : Status := new .unavailable message

end Status

/-! ## Percent coding of the message -/

def hexNibble (n : UInt8) : Char :=
  if n ≤ 9 then Char.ofNat (48 + n.toNat) else Char.ofNat (65 + n.toNat - 10)

def hexValue (b : UInt8) : Option UInt8 :=
  if 48 ≤ b ∧ b ≤ 57 then some (b - 48)
  else if 97 ≤ b ∧ b ≤ 102 then some (b - 97 + 10)
  else if 65 ≤ b ∧ b ≤ 70 then some (b - 65 + 10)
  else none

def percentEncodeByte (b : UInt8) : List Char :=
  if 0x20 ≤ b ∧ b ≤ 0x7E ∧ b ≠ 37 then [Char.ofNat b.toNat]
  else ['%', hexNibble (b >>> 4), hexNibble (b &&& 0x0F)]

def percentEncode (s : String) : String := String.ofList ((utf8 s).flatMap percentEncodeByte)

def percentDecodeBytes : List UInt8 → List UInt8
  | [] => []
  | [b] => [b]
  | [b, c] => [b, c]
  | b :: c :: d :: rest =>
      if b = 37 then
        match hexValue c, hexValue d with
        | some hi, some lo => ((hi <<< 4) ||| lo) :: percentDecodeBytes rest
        | _, _ => b :: percentDecodeBytes (c :: d :: rest)
      else b :: percentDecodeBytes (c :: d :: rest)

def percentDecode (s : String) : String :=
  let out := percentDecodeBytes (utf8 s)
  (fromUtf8 out).getD (fromUtf8Lossy out)

theorem percentDecodeBytes_cons {b : UInt8} (h : b ≠ 37) (rest : List UInt8) :
    percentDecodeBytes (b :: rest) = b :: percentDecodeBytes rest := by
  match rest with
  | [] => rfl
  | [c] => rfl
  | c :: d :: rest => rw [percentDecodeBytes, if_neg h]

theorem percentDecodeBytes_escape {c d hi lo : UInt8} (hhi : hexValue c = some hi)
    (hlo : hexValue d = some lo) (rest : List UInt8) :
    percentDecodeBytes (37 :: c :: d :: rest) = ((hi <<< 4) ||| lo) :: percentDecodeBytes rest := by
  rw [percentDecodeBytes, if_pos rfl, hhi, hlo]

theorem hexValue_hexNibble (b : UInt8) :
    hexValue (UInt8.ofNat (hexNibble (b >>> 4)).toNat) = some (b >>> 4) ∧
      hexValue (UInt8.ofNat (hexNibble (b &&& 0x0F)).toNat) = some (b &&& 0x0F) ∧
      ((b >>> 4) <<< 4) ||| (b &&& 0x0F) = b := by
  have hall : ∀ n : Fin 256, let b := UInt8.ofNat n
      hexValue (UInt8.ofNat (hexNibble (b >>> 4)).toNat) = some (b >>> 4) ∧
      hexValue (UInt8.ofNat (hexNibble (b &&& 0x0F)).toNat) = some (b &&& 0x0F) ∧
      ((b >>> 4) <<< 4) ||| (b &&& 0x0F) = b := by decide +kernel
  revert b
  exact forall_byte hall

theorem percentEncodeByte_ascii (b : UInt8) : ∀ c ∈ percentEncodeByte b, c.toNat < 128 := by
  have hall : ∀ b, (percentEncodeByte b).all (fun c => c.toNat < 128) = true :=
    forall_byte (by decide +kernel)
  simpa using hall b

theorem percentDecodeBytes_encodeByte (b : UInt8) (rest : List UInt8) :
    percentDecodeBytes ((percentEncodeByte b).map (fun c => UInt8.ofNat c.toNat) ++ rest) =
      b :: percentDecodeBytes rest := by
  unfold percentEncodeByte
  split
  · rename_i hplain
    obtain ⟨_, hle, hne⟩ := hplain
    have hchar : UInt8.ofNat (Char.ofNat b.toNat).toNat = b := by
      have hsmall : b.toNat ≤ 126 := UInt8.le_iff_toNat_le.mp hle
      have hall : ∀ n : Fin 127, UInt8.ofNat (Char.ofNat n.1).toNat = UInt8.ofNat n.1 := by
        decide +kernel
      simpa using hall ⟨b.toNat, Nat.lt_succ_of_le hsmall⟩
    simp only [List.map_cons, List.map_nil, List.singleton_append, hchar]
    exact percentDecodeBytes_cons hne rest
  · obtain ⟨hhi, hlo, hjoin⟩ := hexValue_hexNibble b
    have hpercent : UInt8.ofNat '%'.toNat = 37 := rfl
    simp only [List.map_cons, List.map_nil, List.cons_append, List.nil_append, hpercent]
    rw [percentDecodeBytes_escape hhi hlo, hjoin]

theorem utf8_percentEncode (s : String) : utf8 (percentEncode s) =
    ((utf8 s).flatMap percentEncodeByte).map (fun c => UInt8.ofNat c.toNat) := by
  refine utf8_ofList_of_ascii fun c hc => ?_
  obtain ⟨b, _, hb⟩ := List.mem_flatMap.mp hc
  exact percentEncodeByte_ascii b c hb

theorem percentDecode_percentEncode (s : String) : percentDecode (percentEncode s) = s := by
  have hbytes : ∀ bytes : List UInt8, percentDecodeBytes ((bytes.flatMap percentEncodeByte).map
      (fun c => UInt8.ofNat c.toNat)) = bytes := by
    intro bytes
    induction bytes with
    | nil => rfl
    | cons b rest ih =>
        rw [List.flatMap_cons, List.map_append, percentDecodeBytes_encodeByte, ih]
  simp only [percentDecode, utf8_percentEncode, hbytes, fromUtf8_utf8, Option.getD_some]

/-! ## Trailers -/

namespace Status

variable {H : Type} [HeaderMap H] [Base64]

def writeInto (s : Status) (headers : H) : H :=
  let headers := insert headers "grpc-status" (.ofString s.code.asU8.repr)
  let headers :=
    if s.message = "" then headers
    else insert headers "grpc-message" (.ofString (percentEncode s.message))
  s.metadata.writeInto headers

def intoTrailers (s : Status) : H := s.writeInto empty

def trailersCode (headers : H) : Code :=
  (((getStr headers "grpc-status").bind (Digits.parseUnsigned 256)).bind Code.fromU8).getD .unknown

omit [Base64] in
/-- The code is that of success exactly if the header's text is the number zero. -/
theorem trailersCode_eq_ok_iff {headers : H} : trailersCode headers = .ok ↔
    ∃ text, getStr headers "grpc-status" = some text ∧
      Digits.parseUnsigned 256 text = some 0 := by
  rw [trailersCode]
  cases getStr headers "grpc-status" with
  | none => simp
  | some text =>
      cases hn : Digits.parseUnsigned 256 text with
      | none => simp [hn]
      | some n =>
          simp only [Option.bind_some, hn, Option.some.injEq, exists_eq_left']
          unfold Code.fromU8
          split <;> simp_all

def fromTrailers (headers : H) : Except Status Unit :=
  if trailersCode headers = .ok then .ok ()
  else
    .error
      { code := trailersCode headers
        message := ((getStr headers "grpc-message").map percentDecode).getD ""
        metadata := Metadata.fromHeaders headers }

/-! ## Trailers read back -/

/-- The same outcome: metadata is compared key by key. -/
structure Same (t s : Status) : Prop where
  code : t.code = s.code
  message : t.message = s.message
  metadata : ∀ key, t.metadata.valuesOf key = s.metadata.valuesOf key

variable {s : Status} (hk : ∀ entry ∈ s.metadata.entries, OwnKey entry.1)

include hk

theorem values_status (headers : H) : values (s.writeInto headers) "grpc-status" =
    [.ofString s.code.asU8.repr] := by
  have hother : ¬ SameName "grpc-status" "grpc-message" := by decide
  rw [writeInto, Metadata.values_writeInto_reserved hk _ _ (by decide)]
  by_cases hkessage : s.message = ""
  · rw [if_pos hkessage, values_insert_self]
  · rw [if_neg hkessage, values_insert_other _ _ hother, values_insert_self]

theorem getStr_status (headers : H) : getStr (s.writeInto headers) "grpc-status" =
    some s.code.asU8.repr := by
  rw [getStr_of_singleton (values_status hk headers), HeaderValue.asStr_ofString]

theorem trailersCode_writeInto (headers : H) : trailersCode (s.writeInto headers) = s.code := by
  rw [trailersCode, getStr_status hk, Option.bind_some,
    Digits.parseUnsigned_repr s.code.asU8_lt, Option.bind_some, Code.fromU8_asU8, Option.getD_some]

theorem message_writeInto {headers : H} (hnone : values headers "grpc-message" = []) :
    ((getStr (s.writeInto headers) "grpc-message").map percentDecode).getD "" = s.message := by
  have hother : ¬ SameName "grpc-message" "grpc-status" := by decide
  have hvalues := Metadata.values_writeInto_reserved hk
    (if s.message = "" then insert headers "grpc-status" (.ofString s.code.asU8.repr)
      else insert (insert headers "grpc-status" (.ofString s.code.asU8.repr)) "grpc-message"
        (.ofString (percentEncode s.message))) "grpc-message" (by decide)
  by_cases hkessage : s.message = ""
  · rw [if_pos hkessage, values_insert_other _ _ hother, hnone] at hvalues
    rw [writeInto, if_pos hkessage, getStr_of_nil hvalues, hkessage]
    rfl
  · rw [if_neg hkessage, values_insert_self] at hvalues
    rw [writeInto, if_neg hkessage, getStr_of_singleton hvalues, HeaderValue.asStr_ofString,
      Option.map_some, Option.getD_some, percentDecode_percentEncode]

theorem fromTrailers_writeInto_ok (hcode : s.code = .ok) (headers : H) :
    fromTrailers (s.writeInto headers) = .ok () := by
  rw [fromTrailers, trailersCode_writeInto hk, if_pos hcode]

omit hk in
/-- Every other status is read back as it was. -/
theorem fromTrailers_writeInto (hm : ∀ entry ∈ s.metadata.entries, EntryValid entry)
    (hcode : s.code ≠ .ok) :
    ∃ t, fromTrailers (s.writeInto (empty : H)) = .error t ∧ Same t s := by
  have hk : ∀ entry ∈ s.metadata.entries, OwnKey entry.1 := by
    intro entry hmem
    exact (hm entry hmem).key
  rw [fromTrailers, trailersCode_writeInto hk, if_neg hcode]
  refine ⟨_, rfl, rfl, message_writeInto hk (values_empty _), ?_⟩
  refine Metadata.valuesOf_fromHeaders_writeInto hm fun key hvalid hfree => ?_
  have hother : ∀ name, isReserved (asciiLower name) = true → ¬ SameName key name := by
    intro name hname hsame
    rw [SameName, asciiLower_of_valid hvalid] at hsame
    rw [← hsame, hfree] at hname
    cases hname
  have hstatus := values_insert_other (empty : H) (.ofString s.code.asU8.repr)
    (hother "grpc-status" (by decide))
  by_cases hmessage : s.message = ""
  · rw [if_pos hmessage, hstatus, values_empty]
  · rw [if_neg hmessage, values_insert_other _ _ (hother "grpc-message" (by decide)), hstatus,
      values_empty]

omit hk in
theorem fromTrailers_ok (headers : H) : fromTrailers (ok.writeInto headers) = .ok () :=
  fromTrailers_writeInto_ok (by simp [ok, Metadata.new]) rfl headers

end Status

end TrilliumGrpc
