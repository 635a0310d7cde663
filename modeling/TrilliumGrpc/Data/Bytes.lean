import Mathlib

/-! # Big-endian words and UTF-8 text as byte lists -/

namespace Bytes

theorem forall_byte {P : UInt8 → Prop} (h : ∀ n : Fin 256, P (UInt8.ofNat n)) (b : UInt8) :
    P b := by
  have hb := h ⟨b.toNat, b.toNat_lt⟩
  rwa [UInt8.ofNat_toNat] at hb

/-! ## 32-bit big-endian words -/

/-- `u32::to_be_bytes`. -/
def toBeBytes (n : UInt32) : List UInt8 :=
  [UInt8.ofNat (n.toNat / 2 ^ 24), UInt8.ofNat (n.toNat / 2 ^ 16),
    UInt8.ofNat (n.toNat / 2 ^ 8), UInt8.ofNat n.toNat]

/-- `u32::from_be_bytes`. -/
def fromBeBytes (b0 b1 b2 b3 : UInt8) : UInt32 :=
  UInt32.ofNat (b0.toNat * 2 ^ 24 + b1.toNat * 2 ^ 16 + b2.toNat * 2 ^ 8 + b3.toNat)

@[simp] theorem toBeBytes_length (n : UInt32) : (toBeBytes n).length = 4 := rfl

theorem fromBeBytes_toNat (b0 b1 b2 b3 : UInt8) :
    (fromBeBytes b0 b1 b2 b3).toNat =
      b0.toNat * 2 ^ 24 + b1.toNat * 2 ^ 16 + b2.toNat * 2 ^ 8 + b3.toNat := by
  have h0 := b0.toNat_lt
  have h1 := b1.toNat_lt
  have h2 := b2.toNat_lt
  have h3 := b3.toNat_lt
  rw [fromBeBytes, UInt32.toNat_ofNat']
  omega

theorem fromBeBytes_toBeBytes (n : UInt32) :
    fromBeBytes (UInt8.ofNat (n.toNat / 2 ^ 24)) (UInt8.ofNat (n.toNat / 2 ^ 16))
      (UInt8.ofNat (n.toNat / 2 ^ 8)) (UInt8.ofNat n.toNat) = n := by
  have hn := n.toNat_lt
  apply UInt32.toNat_inj.mp
  rw [fromBeBytes_toNat]
  simp only [UInt8.toNat_ofNat']
  omega

theorem toBeBytes_fromBeBytes (b0 b1 b2 b3 : UInt8) :
    toBeBytes (fromBeBytes b0 b1 b2 b3) = [b0, b1, b2, b3] := by
  have h0 := b0.toNat_lt
  have h1 := b1.toNat_lt
  have h2 := b2.toNat_lt
  have h3 := b3.toNat_lt
  simp only [toBeBytes, fromBeBytes_toNat, List.cons.injEq, and_true]
  refine ⟨?_, ?_, ?_, ?_⟩ <;>
    · apply UInt8.toNat_inj.mp
      rw [UInt8.toNat_ofNat']
      omega

/-! ## UTF-8 -/

/-- `str::as_bytes`. -/
def utf8 (s : String) : List UInt8 := s.toByteArray.data.toList

/-- `String::from_utf8`. -/
def fromUtf8 (bytes : List UInt8) : Option String := String.fromUTF8? ⟨bytes.toArray⟩

@[simp] theorem fromUtf8_utf8 (s : String) : fromUtf8 (utf8 s) = some s := by
  have hbytes : (⟨(utf8 s).toArray⟩ : ByteArray) = s.toByteArray := by
    simp only [utf8, Array.toArray_toList]
  rw [fromUtf8, hbytes, String.fromUTF8?, dif_pos s.isValidUTF8]
  rfl

theorem utf8_ofList_of_ascii {cs : List Char} (h : ∀ c ∈ cs, c.toNat < 128) :
    utf8 (String.ofList cs) = cs.map (fun c => UInt8.ofNat c.toNat) := by
  have hbytes : ∀ l : List UInt8, l.toByteArray.data.toList = l := by
    intro l
    simp
  rw [utf8, String.toByteArray_ofList, List.utf8Encode, hbytes, List.map_eq_flatMap]
  refine List.flatMap_congr fun c hc => ?_
  have hsize : c.utf8Size = 1 := by
    rw [Char.utf8Size_eq_one_iff, UInt32.le_iff_toNat_le]
    exact Nat.le_of_lt_succ (h c hc)
  rw [String.utf8EncodeChar_eq_singleton hsize]
  rfl

theorem utf8_inj {s t : String} (h : utf8 s = utf8 t) : s = t := by
  have hs := fromUtf8_utf8 s
  rw [h, fromUtf8_utf8] at hs
  exact (Option.some.inj hs).symm

theorem toNat_ofNat_of_ascii {n : Nat} (h : n < 128) : (Char.ofNat n).toNat = n := by
  have hvalid : n.isValidChar := Or.inl (by omega)
  rw [Char.toNat_ofNat, if_pos hvalid]

theorem exists_utf8_of_ascii {bytes : List UInt8} (h : ∀ b ∈ bytes, b.toNat < 128) :
    ∃ cs, (∀ c ∈ cs, c.toNat < 128) ∧ utf8 (String.ofList cs) = bytes := by
  have hchar : ∀ b ∈ bytes, (Char.ofNat b.toNat).toNat = b.toNat := by
    intro b hb
    exact toNat_ofNat_of_ascii (h b hb)
  have hascii : ∀ c ∈ bytes.map (fun b => Char.ofNat b.toNat), c.toNat < 128 := by
    intro c hc
    obtain ⟨b, hb, rfl⟩ := List.mem_map.mp hc
    rw [hchar b hb]
    exact h b hb
  refine ⟨_, hascii, ?_⟩
  have hback : ∀ b ∈ bytes, UInt8.ofNat (Char.ofNat b.toNat).toNat = b := by
    intro b hb
    rw [hchar b hb, UInt8.ofNat_toNat]
  rw [utf8_ofList_of_ascii hascii, List.map_map]
  calc bytes.map ((fun c => UInt8.ofNat c.toNat) ∘ fun b => Char.ofNat b.toNat)
      = bytes.map id := List.map_congr_left hback
    _ = bytes := List.map_id bytes

def isCont (b : UInt8) : Bool := 0x80 ≤ b && b ≤ 0xBF

/-- Second bytes allowed after the leading byte of a three- or four-byte
sequence: no overlong forms, no surrogates, nothing above U+10FFFF. -/
def isSecond (lead b : UInt8) : Bool :=
  if lead = 0xE0 then 0xA0 ≤ b && b ≤ 0xBF
  else if lead = 0xED then 0x80 ≤ b && b ≤ 0x9F
  else if lead = 0xF0 then 0x90 ≤ b && b ≤ 0xBF
  else if lead = 0xF4 then 0x80 ≤ b && b ≤ 0x8F
  else isCont b

def sixBits (b : UInt8) : Nat := b.toNat % 64

def replacement : Char := Char.ofNat 0xFFFD

/-- The first character of a non-empty byte string and its length in bytes. -/
def lossyStep (b : UInt8) (rest : List UInt8) : Char × Nat :=
  if b < 0x80 then (Char.ofNat b.toNat, 1)
  else if 0xC2 ≤ b && b ≤ 0xDF then
    match rest with
    | c :: _ =>
        if isCont c then (Char.ofNat (b.toNat % 32 * 64 + sixBits c), 2) else (replacement, 1)
    | [] => (replacement, 1)
  else if 0xE0 ≤ b && b ≤ 0xEF then
    match rest with
    | c :: rest' =>
        if isSecond b c then
          match rest' with
          | d :: _ =>
              if isCont d then
                (Char.ofNat ((b.toNat % 16 * 64 + sixBits c) * 64 + sixBits d), 3)
              else (replacement, 2)
          | [] => (replacement, 2)
        else (replacement, 1)
    | [] => (replacement, 1)
  else if 0xF0 ≤ b && b ≤ 0xF4 then
    match rest with
    | c :: rest' =>
        if isSecond b c then
          match rest' with
          | d :: rest'' =>
              if isCont d then
                match rest'' with
                | e :: _ =>
                    if isCont e then
                      (Char.ofNat (((b.toNat % 8 * 64 + sixBits c) * 64 + sixBits d) * 64 +
                        sixBits e), 4)
                    else (replacement, 3)
                | [] => (replacement, 3)
              else (replacement, 2)
          | [] => (replacement, 2)
        else (replacement, 1)
    | [] => (replacement, 1)
  else (replacement, 1)

/-- `String::from_utf8_lossy`; every round consumes a byte. -/
def lossyChars : Nat → List UInt8 → List Char
  | 0, _ => []
  | _ + 1, [] => []
  | fuel + 1, b :: rest =>
      let (c, n) := lossyStep b rest
      c :: lossyChars fuel (rest.drop (n - 1))

def fromUtf8Lossy (bytes : List UInt8) : String := String.ofList (lossyChars bytes.length bytes)

/-! ## ASCII case -/

/-- `str::to_ascii_lowercase`. -/
def asciiLower (s : String) : String := String.ofList (s.toList.map Char.toLower)

theorem asciiLower_eq_self {s : String} (h : ∀ c ∈ s.toList, c.toLower = c) :
    asciiLower s = s := by
  rw [asciiLower, List.map_congr_left h, List.map_id', String.ofList_toList]

end Bytes
