import TrilliumGrpc.Data.Bytes
import TrilliumGrpc.Timeout

/-! # The grammar of `grpc-timeout`

The header is documented as a number of at most eight ASCII digits and a unit. The
parser works on the bytes of the text and does not count the digits.
-/

namespace TrilliumGrpc

open Time Digits Bytes

/-! ## The parser over bytes -/

/-- `u8::is_ascii_digit`. -/
def isAsciiDigit (b : UInt8) : Bool := 0x30 ≤ b && b ≤ 0x39

def unitNanosByte (suffix : UInt8) : Option Nat :=
  if suffix = 0x6E then some 1
  else if suffix = 0x75 then some 1000
  else if suffix = 0x6D then some 1000000
  else if suffix = 0x53 then some 1000000000
  else if suffix = 0x4D then some (60 * 1000000000)
  else if suffix = 0x48 then some (3600 * 1000000000)
  else none

def parseTimeoutBytes (bytes : List UInt8) : Option Duration :=
  match bytes.getLast? with
  | none => none
  | some suffix =>
      let digits := bytes.dropLast
      if digits = [] ∨ ¬ digits.all isAsciiDigit then none
      else do
        let text ← fromUtf8 digits
        let value ← parseUnsigned (2 ^ 64) text
        let unit ← unitNanosByte suffix
        scaleTimeout value unit

theorem isAsciiDigit_ofNat {c : Char} (h : c.toNat < 128) :
    isAsciiDigit (UInt8.ofNat c.toNat) = c.isDigit := by
  have hall : ∀ n < 128, isAsciiDigit (UInt8.ofNat n) = (Char.ofNat n).isDigit := by decide
  have hc := hall c.toNat h
  rw [Char.ofNat_toNat] at hc
  exact hc

theorem unitNanosByte_ofNat {c : Char} (h : c.toNat < 128) :
    unitNanosByte (UInt8.ofNat c.toNat) = unitNanos c := by
  have hall : ∀ n < 128, unitNanosByte (UInt8.ofNat n) = unitNanos (Char.ofNat n) := by decide
  have hc := hall c.toNat h
  rw [Char.ofNat_toNat] at hc
  exact hc

theorem lt_of_isAsciiDigit {b : UInt8} (h : isAsciiDigit b) : b.toNat < 128 := by
  have hhigh : b ≤ 0x39 := by
    rw [isAsciiDigit, Bool.and_eq_true, decide_eq_true_eq, decide_eq_true_eq] at h
    exact h.2
  exact Nat.lt_of_le_of_lt (UInt8.le_iff_toNat_le.mp hhigh) (by decide)

theorem lt_of_unitNanosByte {b : UInt8} {unit : Nat} (h : unitNanosByte b = some unit) :
    b.toNat < 128 := by
  unfold unitNanosByte at h
  split_ifs at h <;> simp_all

theorem lt_of_isDigit {c : Char} (h : c.isDigit) : c.toNat < 128 := by
  rw [Char.isDigit_iff_toNat] at h
  have hnine : '9'.toNat = 57 := rfl
  omega

theorem lt_of_unitNanos {c : Char} {unit : Nat} (h : unitNanos c = some unit) :
    c.toNat < 128 := by
  unfold unitNanos at h
  split at h <;> simp_all

theorem parseTimeoutBytes_ascii {cs : List Char} (h : ∀ c ∈ cs, c.toNat < 128) :
    parseTimeoutBytes (utf8 (String.ofList cs)) = parseGrpcTimeout (String.ofList cs) := by
  cases cs using List.reverseRecOn with
  | nil => rfl
  | append_singleton digits suffix =>
      have hsuffix : suffix.toNat < 128 := h suffix (by simp)
      have hdigits : ∀ c ∈ digits, c.toNat < 128 := fun c hc => h c (by simp [hc])
      have hall : (digits.map fun c => UInt8.ofNat c.toNat).all isAsciiDigit =
          digits.all Char.isDigit := by
        rw [List.all_map, Bool.eq_iff_iff, List.all_eq_true, List.all_eq_true]
        apply forall₂_congr
        intro c hc
        rw [Function.comp_apply, isAsciiDigit_ofNat (hdigits c hc)]
      have htext : fromUtf8 (digits.map fun c => UInt8.ofNat c.toNat) =
          some (String.ofList digits) := by
        rw [← utf8_ofList_of_ascii hdigits, fromUtf8_utf8]
      simp only [parseTimeoutBytes, parseGrpcTimeout, utf8_ofList_of_ascii h, List.map_append,
        List.map_cons, List.map_nil, String.toList_ofList, List.getLast?_concat,
        List.dropLast_concat, hall, htext, unitNanosByte_ofNat hsuffix, List.map_eq_nil_iff,
        bind, Option.bind_some]

theorem ascii_of_parseTimeoutBytes {bytes : List UInt8} {d : Duration}
    (h : parseTimeoutBytes bytes = some d) : ∀ b ∈ bytes, b.toNat < 128 := by
  cases bytes using List.reverseRecOn with
  | nil => simp
  | append_singleton digits suffix =>
      simp only [parseTimeoutBytes, List.getLast?_concat, List.dropLast_concat] at h
      split at h
      · simp at h
      · rename_i hdigits
        rw [not_or, not_not, List.all_eq_true] at hdigits
        cases hunit : unitNanosByte suffix with
        | none => simp [hunit, bind] at h
        | some unit =>
            intro b hb
            rcases List.mem_append.mp hb with hb | hb
            · exact lt_of_isAsciiDigit (hdigits.2 b hb)
            · rw [List.mem_singleton.mp hb]
              exact lt_of_unitNanosByte hunit

theorem Denotes.ascii {s : String} {value unit : Nat} (h : Denotes s value unit) :
    ∀ c ∈ s.toList, c.toNat < 128 := by
  obtain ⟨digits, suffix, htext, _, hall, _, hunit⟩ := h
  rw [List.all_eq_true] at hall
  intro c hc
  rw [htext] at hc
  rcases List.mem_append.mp hc with hc | hc
  · exact lt_of_isDigit (hall c hc)
  · rw [List.mem_singleton.mp hc]
    exact lt_of_unitNanos hunit

theorem parseTimeoutBytes_utf8 (s : String) :
    parseTimeoutBytes (utf8 s) = parseGrpcTimeout s := by
  by_cases hascii : ∀ c ∈ s.toList, c.toNat < 128
  · have h := parseTimeoutBytes_ascii hascii
    rw [String.ofList_toList] at h
    exact h
  · have hchars : parseGrpcTimeout s = none := by
      cases h : parseGrpcTimeout s with
      | none => rfl
      | some d =>
          obtain ⟨value, unit, hden⟩ := denotes_of_parse h
          exact absurd hden.ascii hascii
    rw [hchars]
    cases h : parseTimeoutBytes (utf8 s) with
    | none => rfl
    | some d =>
        obtain ⟨cs, hcs, hbytes⟩ := exists_utf8_of_ascii (ascii_of_parseTimeoutBytes h)
        have hs : String.ofList cs = s := utf8_inj hbytes
        rw [← hs, String.toList_ofList] at hascii
        exact absurd hcs hascii

/-! ## The documented grammar -/

/-- One to eight ASCII digits and a unit. -/
def InGrammar (s : String) : Prop :=
  ∃ digits suffix, s.toList = digits ++ [suffix] ∧ (1 ≤ digits.length ∧ digits.length ≤ 8) ∧
    digits.all Char.isDigit ∧ suffix ∈ ['H', 'M', 'S', 'm', 'u', 'n']

/-- The duration is the number of the header times its unit. -/
def Amounts (s : String) (d : Duration) : Prop :=
  ∃ value unit, Denotes s value unit ∧ d.asNanos = value * unit

/-- The parser takes the grammar and nothing else, and for what it denotes. -/
def GrammarKept (s : String) : Prop :=
  ((∃ d, parseTimeoutBytes (utf8 s) = some d) ↔ InGrammar s) ∧
    ∀ d, parseTimeoutBytes (utf8 s) = some d → Amounts s d

/-- Nine digits or more and a unit, the number and its seconds within 64 bits. -/
def Overlong (s : String) : Prop :=
  ∃ digits suffix unit, s.toList = digits ++ [suffix] ∧ 8 < digits.length ∧
    digits.all Char.isDigit ∧ unitNanos suffix = some unit ∧
    Nat.ofDigitChars 10 digits 0 < 2 ^ 64 ∧
    Nat.ofDigitChars 10 digits 0 * unit / 1000000000 < 2 ^ 64

theorem unitNanos_isSome_iff (c : Char) :
    (∃ unit, unitNanos c = some unit) ↔ c ∈ ['H', 'M', 'S', 'm', 'u', 'n'] := by
  constructor
  · rintro ⟨unit, hunit⟩
    unfold unitNanos at hunit
    split at hunit <;> simp at hunit ⊢
  · intro hc
    simp only [List.mem_cons, List.not_mem_nil, or_false] at hc
    rcases hc with rfl | rfl | rfl | rfl | rfl | rfl <;> exact ⟨_, rfl⟩

theorem ofDigitChars_lt {digits : List Char} (hall : digits.all Char.isDigit) :
    Nat.ofDigitChars 10 digits 0 < 10 ^ digits.length := by
  induction digits with
  | nil => decide
  | cons c rest ih =>
      rw [List.all_cons, Bool.and_eq_true] at hall
      have hrest := ih hall.2
      have hdigit : c.toNat - '0'.toNat < 10 := by
        have hrange := Char.isDigit_iff_toNat.mp hall.1
        have hzero : '0'.toNat = 48 := rfl
        have hnine : '9'.toNat = 57 := rfl
        omega
      rw [Nat.ofDigitChars_cons, Nat.ofDigitChars_eq_ofDigitChars_zero, List.length_cons,
        Nat.pow_succ, Nat.mul_zero, Nat.zero_add]
      have hhead := Nat.mul_le_mul_left (10 ^ rest.length) (Nat.le_of_lt_succ hdigit)
      omega

theorem exists_parse {s : String} {value unit : Nat} (hden : Denotes s value unit)
    (hvalue : value < 2 ^ 64) (hsecs : value * unit / 1000000000 < 2 ^ 64) :
    ∃ d, parseGrpcTimeout s = some d := by
  obtain ⟨d, hd⟩ : ∃ d, durationOfNanos (value * unit) = some d :=
    ⟨_, by rw [durationOfNanos, dif_pos hsecs]⟩
  have hnanos := ((durationOfNanos_eq_some_iff _ _).mp hd).2
  exact ⟨d, (parseGrpcTimeout_eq_some_iff s d).mpr ⟨value, unit, hden, hvalue, hsecs, hnanos⟩⟩

theorem InGrammar.short {s : String} (h : InGrammar s) : ¬ Overlong s := by
  obtain ⟨digits, suffix, htext, hlength, _, _⟩ := h
  rintro ⟨digits', suffix', _, htext', hlong, _⟩
  rw [htext] at htext'
  have hdigits : digits = digits' := (List.append_inj' htext' rfl).1
  rw [hdigits] at hlength
  omega

theorem parse_eq_some_iff (s : String) :
    (∃ d, parseGrpcTimeout s = some d) ↔ InGrammar s ∨ Overlong s := by
  constructor
  · rintro ⟨d, hd⟩
    obtain ⟨value, unit, hden, hvalue, hsecs, _⟩ := (parseGrpcTimeout_eq_some_iff s d).mp hd
    obtain ⟨digits, suffix, htext, hne, hall, rfl, hunit⟩ := hden
    by_cases hshort : digits.length ≤ 8
    · have hpos : 1 ≤ digits.length := List.length_pos_iff.mpr hne
      have hsuffix := (unitNanos_isSome_iff suffix).mp ⟨unit, hunit⟩
      exact Or.inl ⟨digits, suffix, htext, ⟨hpos, hshort⟩, hall, hsuffix⟩
    · have hlong : 8 < digits.length := Nat.lt_of_not_le hshort
      exact Or.inr ⟨digits, suffix, unit, htext, hlong, hall, hunit, hvalue, hsecs⟩
  · rintro (⟨digits, suffix, htext, ⟨hpos, hshort⟩, hall, hsuffix⟩ |
      ⟨digits, suffix, unit, htext, hlong, hall, hunit, hvalue, hsecs⟩)
    · obtain ⟨unit, hunit⟩ := (unitNanos_isSome_iff suffix).mpr hsuffix
      have hvalue : Nat.ofDigitChars 10 digits 0 < 10 ^ 8 :=
        Nat.lt_of_lt_of_le (ofDigitChars_lt hall) (Nat.pow_le_pow_right (by omega) hshort)
      have hden : Denotes s (Nat.ofDigitChars 10 digits 0) unit :=
        ⟨digits, suffix, htext, List.length_pos_iff.mp hpos, hall, rfl, hunit⟩
      have htotal := Nat.mul_le_mul (Nat.le_of_lt hvalue) hden.unit_le
      exact exists_parse hden (by omega) (by omega)
    · have hne : digits ≠ [] := by
        apply List.ne_nil_of_length_pos
        omega
      exact exists_parse ⟨digits, suffix, htext, hne, hall, rfl, hunit⟩ hvalue hsecs

theorem amounts_of_parse {s : String} {d : Duration} (h : parseGrpcTimeout s = some d) :
    Amounts s d := by
  obtain ⟨value, unit, hden, _, _, hnanos⟩ := (parseGrpcTimeout_eq_some_iff s d).mp h
  exact ⟨value, unit, hden, hnanos⟩

/-- The parser leaves the documented grammar exactly at the overlong headers. -/
theorem grammarKept_iff (s : String) : GrammarKept s ↔ ¬ Overlong s := by
  have hamounts : ∀ d, parseTimeoutBytes (utf8 s) = some d → Amounts s d := by
    intro d hd
    rw [parseTimeoutBytes_utf8] at hd
    exact amounts_of_parse hd
  have hparse : (∃ d, parseTimeoutBytes (utf8 s) = some d) ↔ InGrammar s ∨ Overlong s := by
    rw [parseTimeoutBytes_utf8]
    exact parse_eq_some_iff s
  rw [GrammarKept, hparse, and_iff_left hamounts]
  constructor
  · intro hkept hover
    exact (hkept.mp (Or.inr hover)).short hover
  · intro hshort
    exact ⟨fun h => h.resolve_right hshort, Or.inl⟩

/-- Nine digits are read as a number all the same. -/
theorem nine_digits_leave_grammar : ¬ GrammarKept "123456789S" := by
  have hover : Overlong "123456789S" :=
    ⟨['1', '2', '3', '4', '5', '6', '7', '8', '9'], 'S', 1000000000, rfl, by decide, by decide,
      rfl, by decide, by decide⟩
  rintro ⟨hkept, _⟩
  rw [parseTimeoutBytes_utf8] at hkept
  exact (hkept.mp ((parse_eq_some_iff _).mpr (Or.inr hover))).short hover

end TrilliumGrpc
