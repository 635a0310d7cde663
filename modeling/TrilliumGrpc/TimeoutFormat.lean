import TrilliumGrpc.Data.Scale
import TrilliumGrpc.Timeout

/-! # Timeouts written and read back

`format_grpc_timeout` chooses from a scale of six units, and `parse_grpc_timeout` reads
back the amount as it was written.
-/

namespace TrilliumGrpc

open Time Digits

def hour : Nat := 3600 * 1000000000

def timeoutScale : Scale Char where
  cap := maxTimeoutValue
  units := timeoutUnits
  largest := (hour, 'H')
  cap_pos := by decide
  pos := by decide
  sorted := by decide
  largest_mem := by decide
  le_largest := by decide

theorem formatGrpcTimeout_eq (d : Duration) : formatGrpcTimeout d =
    (timeoutScale.choice d.asNanos).1.repr.push (timeoutScale.choice d.asNanos).2.2 := by
  have hfind : timeoutUnits.find? (fun unit =>
      (d.asNanos + unit.1 - 1) / unit.1 ≤ maxTimeoutValue) = timeoutScale.fit d.asNanos := rfl
  rw [formatGrpcTimeout_of_find hfind, Scale.choice]
  cases timeoutScale.fit d.asNanos with
  | none => rfl
  | some unit => rfl

theorem unitNanos_of_mem : ∀ u ∈ timeoutUnits, unitNanos u.2 = some u.1 := by
  intro u hu
  simp only [timeoutUnits, List.mem_cons, List.not_mem_nil, or_false] at hu
  rcases hu with rfl | rfl | rfl | rfl | rfl | rfl <;> rfl

theorem all_isDigit (count : Nat) : (Nat.toDigits 10 count).all Char.isDigit := by
  rw [List.all_eq_true]
  intro c hc
  exact Nat.isDigit_of_mem_toDigits (by decide) (by decide) hc

section Choice

-- The choice stands as an equation: left in place the kernel would evaluate it.
variable {d : Duration} {count unit : Nat} {suffix : Char}
  (h : timeoutScale.choice d.asNanos = (count, unit, suffix))

include h

theorem mem_of_choice : (unit, suffix) ∈ timeoutUnits ∧ count ≤ maxTimeoutValue ∧
    ∀ smaller ∈ timeoutUnits, smaller.1 < unit → smaller.1 * maxTimeoutValue < d.asNanos := by
  have hspec := timeoutScale.choice_spec d.asNanos
  rw [h] at hspec
  exact hspec

theorem formatGrpcTimeout_of_choice : formatGrpcTimeout d = count.repr.push suffix := by
  rw [formatGrpcTimeout_eq, h]

theorem toList_formatGrpcTimeout :
    (formatGrpcTimeout d).toList = Nat.toDigits 10 count ++ [suffix] := by
  rw [formatGrpcTimeout_of_choice h, String.toList_push, Nat.toList_repr]

theorem denotes_format : Denotes (formatGrpcTimeout d) count unit := by
  exact ⟨_, _, toList_formatGrpcTimeout h, Nat.toDigits_ne_nil, all_isDigit count,
    (Nat.ofDigitChars_ten_toDigits).symm, unitNanos_of_mem _ (mem_of_choice h).1⟩

theorem round_of_choice : timeoutScale.round d.asNanos = count * unit := by
  rw [Scale.round, h, Nat.mul_comm]

theorem rounds_up_of_choice (hsmall : d.asNanos ≤ maxTimeoutValue * hour) :
    d.asNanos ≤ timeoutScale.round d.asNanos ∧
      timeoutScale.round d.asNanos < d.asNanos + unit ∧
      ∀ smaller ∈ timeoutUnits, smaller.1 < unit → maxTimeoutValue < d.asNanos ⌈/⌉ smaller.1 ∧
        maxTimeoutValue * smaller.1 < timeoutScale.round d.asNanos := by
  have hlimit : d.asNanos ≤ timeoutScale.largest.1 * timeoutScale.cap := by
    rw [Nat.mul_comm]
    exact hsmall
  have hround := Scale.le_round hlimit
  rw [h] at hround
  obtain ⟨hle, hlt⟩ := hround
  refine ⟨hle, hlt, ?_⟩
  intro smaller hmem hless
  have hover := (mem_of_choice h).2.2 smaller hmem hless
  constructor
  · apply Nat.lt_of_not_le
    intro hfits
    have hunder := (Scale.fits_iff (s := timeoutScale) hmem).mp hfits
    exact absurd hunder (Nat.not_le_of_lt hover)
  · rw [Nat.mul_comm]
    exact Nat.lt_of_lt_of_le hover hle

end Choice

theorem formatGrpcTimeout_of_large {d : Duration} (hlarge : maxTimeoutValue * hour < d.asNanos) :
    formatGrpcTimeout d = "99999999H" := by
  have hover : timeoutScale.largest.1 * timeoutScale.cap < d.asNanos := by
    rw [Nat.mul_comm]
    exact hlarge
  have htext : maxTimeoutValue.repr.push 'H' = "99999999H" := by decide
  rw [formatGrpcTimeout_of_choice (Scale.choice_of_large hover)]
  exact htext

theorem parse_format (d : Duration) : ∃ d', parseGrpcTimeout (formatGrpcTimeout d) = some d' ∧
    d'.asNanos = timeoutScale.round d.asNanos := by
  obtain ⟨⟨count, unit, suffix⟩, h⟩ : ∃ c, timeoutScale.choice d.asNanos = c := ⟨_, rfl⟩
  obtain ⟨hmem, hcount, _⟩ := mem_of_choice h
  have hunit : unit ≤ hour := timeoutScale.le_largest _ hmem
  have htotal : count * unit ≤ maxTimeoutValue * hour := Nat.mul_le_mul hcount hunit
  have hlimit : maxTimeoutValue * hour = 359999996400000000000 := by decide
  have hcap : maxTimeoutValue = 99999999 := rfl
  have hsecs : count * unit / 1000000000 < 2 ^ 64 := by omega
  obtain ⟨d', hd'⟩ : ∃ d', durationOfNanos (count * unit) = some d' :=
    ⟨_, by rw [durationOfNanos, dif_pos hsecs]⟩
  have hnanos := ((durationOfNanos_eq_some_iff _ _).mp hd').2
  have hparse : parseGrpcTimeout (formatGrpcTimeout d) = some d' := by
    apply (parseGrpcTimeout_eq_some_iff _ _).mpr
    exact ⟨count, unit, denotes_format h, by omega, hsecs, hnanos⟩
  exact ⟨d', hparse, hnanos.trans (round_of_choice h).symm⟩

/-- Up to 99,999,999 hours the text is the amount rounded up in the smallest unit in
which eight digits suffice, and beyond that it is 99,999,999 hours. What is read back
grows with the amount and is written the same way again. -/
theorem format_rounds_up (d : Duration) : ∃ digits suffix unit d',
    (formatGrpcTimeout d).toList = digits ++ [suffix] ∧ (unit, suffix) ∈ timeoutUnits ∧
    (digits.all Char.isDigit ∧ 1 ≤ digits.length ∧ digits.length ≤ 8) ∧
    parseGrpcTimeout (formatGrpcTimeout d) = some d' ∧
    (d.asNanos ≤ maxTimeoutValue * hour →
      d.asNanos ≤ d'.asNanos ∧ d'.asNanos < d.asNanos + unit ∧
      ∀ smaller ∈ timeoutUnits, smaller.1 < unit →
        maxTimeoutValue < d.asNanos ⌈/⌉ smaller.1 ∧ maxTimeoutValue * smaller.1 < d'.asNanos) ∧
    (maxTimeoutValue * hour < d.asNanos → formatGrpcTimeout d = "99999999H") ∧
    (∀ e e', d.asNanos ≤ e.asNanos → parseGrpcTimeout (formatGrpcTimeout e) = some e' →
      d'.asNanos ≤ e'.asNanos) ∧
    formatGrpcTimeout d' = formatGrpcTimeout d := by
  obtain ⟨⟨count, unit, suffix⟩, h⟩ : ∃ c, timeoutScale.choice d.asNanos = c := ⟨_, rfl⟩
  obtain ⟨hmem, hcount, _⟩ := mem_of_choice h
  obtain ⟨d', hparse, hround⟩ := parse_format d
  have hlength : (Nat.toDigits 10 count).length ≤ 8 := by
    apply (Nat.length_toDigits_le_iff (by decide) (by decide)).mpr
    exact Nat.lt_succ_of_le hcount
  have hmono : ∀ e e', d.asNanos ≤ e.asNanos → parseGrpcTimeout (formatGrpcTimeout e) = some e' →
      d'.asNanos ≤ e'.asNanos := by
    intro e e' hle he
    obtain ⟨e'', hparse', hround'⟩ := parse_format e
    rw [hparse', Option.some.injEq] at he
    rw [hround, ← he, hround']
    exact timeoutScale.round_mono hle
  have hagain : formatGrpcTimeout d' = formatGrpcTimeout d := by
    rw [formatGrpcTimeout_eq, formatGrpcTimeout_eq, hround, Scale.choice_round]
  refine ⟨_, suffix, unit, d', toList_formatGrpcTimeout h, hmem,
    ⟨all_isDigit count, Nat.length_toDigits_pos, hlength⟩, hparse, ?_, formatGrpcTimeout_of_large, hmono,
    hagain⟩
  rw [hround]
  exact rounds_up_of_choice h

end TrilliumGrpc
