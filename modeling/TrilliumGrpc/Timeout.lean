import TrilliumGrpc.Data.Digits
import TrilliumGrpc.Data.Time

/-! # The `grpc-timeout` codec

`src/timeout.rs`. The text is split by characters where the source splits bytes:
a unit and a digit are single bytes, and a byte of a longer character is neither.
-/

namespace TrilliumGrpc

open Time Digits

def maxTimeoutValue : Nat := 99999999

/-- Units from the smallest to the largest, in nanoseconds. -/
def timeoutUnits : List (Nat × Char) :=
  [(1, 'n'), (1000, 'u'), (1000000, 'm'), (1000000000, 'S'), (60 * 1000000000, 'M'),
    (3600 * 1000000000, 'H')]

/-- The first unit whose rounded-up value fits in eight digits. -/
def formatGrpcTimeout (d : Duration) : String :=
  match timeoutUnits.find? (fun unit => (d.asNanos + unit.1 - 1) / unit.1 ≤ maxTimeoutValue) with
  | some unit => ((d.asNanos + unit.1 - 1) / unit.1).repr.push unit.2
  | none => maxTimeoutValue.repr.push 'H'

-- Stated between functions: at an argument the kernel would evaluate the search.
theorem formatGrpcTimeout_def : formatGrpcTimeout = fun d : Duration =>
    match timeoutUnits.find? (fun unit => (d.asNanos + unit.1 - 1) / unit.1 ≤ maxTimeoutValue) with
    | some unit => ((d.asNanos + unit.1 - 1) / unit.1).repr.push unit.2
    | none => maxTimeoutValue.repr.push 'H' := rfl

theorem formatGrpcTimeout_of_find {d : Duration} {fit : Option (Nat × Char)}
    (h : timeoutUnits.find? (fun unit => (d.asNanos + unit.1 - 1) / unit.1 ≤ maxTimeoutValue)
      = fit) :
    formatGrpcTimeout d = fit.elim (maxTimeoutValue.repr.push 'H')
      fun unit => ((d.asNanos + unit.1 - 1) / unit.1).repr.push unit.2 := by
  rw [formatGrpcTimeout_def]
  dsimp only
  rw [h]
  cases fit with
  | none => rfl
  | some unit => rfl

def unitNanos : Char → Option Nat
  | 'n' => some 1
  | 'u' => some 1000
  | 'm' => some 1000000
  | 'S' => some 1000000000
  | 'M' => some (60 * 1000000000)
  | 'H' => some (3600 * 1000000000)
  | _ => none

/-- `Duration::new` of a nanosecond total, if its seconds fit. -/
def durationOfNanos (total : Nat) : Option Duration :=
  if h : total / 1000000000 < 2 ^ 64 then
    some ⟨total / 1000000000, total % 1000000000, h, Nat.mod_lt _ (by decide)⟩
  else none

/-- The product is checked at `u128`. -/
def scaleTimeout (value unit : Nat) : Option Duration :=
  if value * unit < 2 ^ 128 then durationOfNanos (value * unit) else none

def parseGrpcTimeout (s : String) : Option Duration :=
  match s.toList.getLast? with
  | none => none
  | some suffix =>
      let digits := s.toList.dropLast
      if digits = [] ∨ ¬ digits.all Char.isDigit then none
      else do
        let value ← parseUnsigned (2 ^ 64) (String.ofList digits)
        let unit ← unitNanos suffix
        scaleTimeout value unit

theorem durationOfNanos_eq_some_iff (total : Nat) (d : Duration) :
    durationOfNanos total = some d ↔ total / 1000000000 < 2 ^ 64 ∧ d.asNanos = total := by
  unfold durationOfNanos
  split
  · rename_i hfits
    have htotal : (⟨total / 1000000000, total % 1000000000, hfits,
        Nat.mod_lt _ (by decide)⟩ : Duration).asNanos = total := Nat.div_add_mod' total 1000000000
    rw [Option.some.injEq]
    refine ⟨fun h => ⟨hfits, h ▸ htotal⟩, fun h => Duration.asNanos_inj (htotal.trans h.2.symm)⟩
  · rename_i hbig
    exact ⟨fun h => by simp at h, fun h => absurd h.1 hbig⟩

/-! ## What a header denotes -/

/-- The header is a run of digits of the given value and a unit of so many
nanoseconds. -/
def Denotes (s : String) (value unit : Nat) : Prop :=
  ∃ digits suffix, s.toList = digits ++ [suffix] ∧ digits ≠ [] ∧ digits.all Char.isDigit ∧
    value = Nat.ofDigitChars 10 digits 0 ∧ unitNanos suffix = some unit

theorem Denotes.unique {s : String} {value value' unit unit' : Nat} (h : Denotes s value unit)
    (h' : Denotes s value' unit') : value' = value ∧ unit' = unit := by
  obtain ⟨digits, suffix, htext, _, _, rfl, hunit⟩ := h
  obtain ⟨digits', suffix', htext', _, _, rfl, hunit'⟩ := h'
  rw [htext] at htext'
  obtain ⟨hdigits, hsuffix⟩ := List.append_inj' htext' rfl
  rw [List.cons.injEq] at hsuffix
  rw [← hsuffix.1, hunit] at hunit'
  exact ⟨by rw [hdigits], (Option.some.inj hunit').symm⟩

theorem unitNanos_le {c : Char} {unit : Nat} (h : unitNanos c = some unit) :
    unit ≤ 3600 * 1000000000 := by
  unfold unitNanos at h
  split at h <;> simp at h <;> omega

theorem Denotes.unit_le {s : String} {value unit : Nat} (h : Denotes s value unit) :
    unit ≤ 3600 * 1000000000 := by
  obtain ⟨_, _, _, _, _, _, hunit⟩ := h
  exact unitNanos_le hunit

theorem parseUnsigned_digits {digits : List Char} (hne : digits ≠ [])
    (hall : digits.all Char.isDigit) (bound : Nat) :
    parseUnsigned bound (String.ofList digits) =
      if Nat.ofDigitChars 10 digits 0 < bound then some (Nat.ofDigitChars 10 digits 0) else none := by
  have hplus : parseUnsigned bound (String.ofList digits) = parseDigits bound digits := by
    rw [parseUnsigned, String.toList_ofList]
    split
    · rename_i cs
      simp [Char.isDigit] at hall
    · rfl
  rw [hplus, parseDigits]
  simp only [hne, ne_eq, not_false_eq_true, hall, true_and]

theorem parseGrpcTimeout_of_denotes {s : String} {value unit : Nat} (h : Denotes s value unit) :
    parseGrpcTimeout s = if value < 2 ^ 64 then scaleTimeout value unit else none := by
  obtain ⟨digits, suffix, htext, hne, hall, rfl, hunit⟩ := h
  simp only [parseGrpcTimeout, htext, List.getLast?_concat, List.dropLast_concat, hne, hall,
    not_true_eq_false, or_self, if_false, parseUnsigned_digits hne hall, hunit, bind,
    Option.bind_some]
  split <;> rfl

theorem denotes_of_parse {s : String} {d : Duration} (h : parseGrpcTimeout s = some d) :
    ∃ value unit, Denotes s value unit := by
  unfold parseGrpcTimeout at h
  split at h
  · simp at h
  · rename_i suffix hlast
    dsimp only at h
    split at h
    · simp at h
    · rename_i hdigits
      rw [not_or, not_not] at hdigits
      rw [parseUnsigned_digits hdigits.1 hdigits.2] at h
      cases hu : unitNanos suffix with
      | none => simp [hu, bind, Option.bind] at h; split at h <;> simp at h
      | some unit =>
          refine ⟨_, unit, s.toList.dropLast, suffix, ?_, hdigits.1, hdigits.2, rfl, hu⟩
          have hmem := List.dropLast_append_getLast? suffix hlast
          exact hmem.symm

/-- A header parses exactly when it denotes a value of 64 bits whose total has
64 bits of seconds, and then to that total. -/
theorem parseGrpcTimeout_eq_some_iff (s : String) (d : Duration) :
    parseGrpcTimeout s = some d ↔ ∃ value unit, Denotes s value unit ∧ value < 2 ^ 64 ∧
      value * unit / 1000000000 < 2 ^ 64 ∧ d.asNanos = value * unit := by
  have hscale : ∀ {value unit : Nat}, Denotes s value unit → (parseGrpcTimeout s = some d ↔
      value < 2 ^ 64 ∧ value * unit / 1000000000 < 2 ^ 64 ∧ d.asNanos = value * unit) := by
    intro value unit h
    have hunit := h.unit_le
    rw [parseGrpcTimeout_of_denotes h]
    by_cases hvalue : value < 2 ^ 64
    · have hprod : value * unit < 2 ^ 128 := by
        have := Nat.mul_le_mul (Nat.le_of_lt hvalue) hunit
        omega
      rw [if_pos hvalue, scaleTimeout, if_pos hprod, durationOfNanos_eq_some_iff]
      exact ⟨fun h => ⟨hvalue, h⟩, fun h => h.2⟩
    · rw [if_neg hvalue]
      exact ⟨fun h => by simp at h, fun h => absurd h.1 hvalue⟩
  constructor
  · intro h
    obtain ⟨value, unit, hden⟩ := denotes_of_parse h
    exact ⟨value, unit, hden, (hscale hden).mp h⟩
  · rintro ⟨value, unit, hden, h⟩
    exact (hscale hden).mpr h

end TrilliumGrpc
