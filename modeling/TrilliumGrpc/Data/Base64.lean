import TrilliumGrpc.Data.Bytes

/-! # Unpadded base64

The standard alphabet, three bytes to four characters; a rest of one or two bytes
takes two or three characters whose unused bits are zero.
-/

namespace Base64Text

open Bytes

def alphabet : List Char :=
  "ABCDEFGHIJKLMNOPQRSTUVWXYZabcdefghijklmnopqrstuvwxyz0123456789+/".toList

def digit (n : Nat) : Char := alphabet.getD n 'A'

def value (b : UInt8) : Option Nat :=
  if 65 ≤ b ∧ b ≤ 90 then some (b.toNat - 65)
  else if 97 ≤ b ∧ b ≤ 122 then some (b.toNat - 97 + 26)
  else if 48 ≤ b ∧ b ≤ 57 then some (b.toNat - 48 + 52)
  else if b = 43 then some 62
  else if b = 47 then some 63
  else none

def encodeChars : List UInt8 → List Char
  | [] => []
  | [a] => [digit (a.toNat / 4), digit (a.toNat % 4 * 16)]
  | [a, b] =>
      [digit (a.toNat / 4), digit (a.toNat % 4 * 16 + b.toNat / 16), digit (b.toNat % 16 * 4)]
  | a :: b :: c :: rest =>
      digit (a.toNat / 4) :: digit (a.toNat % 4 * 16 + b.toNat / 16) ::
        digit (b.toNat % 16 * 4 + c.toNat / 64) :: digit (c.toNat % 64) :: encodeChars rest

def encode (bytes : List UInt8) : String := String.ofList (encodeChars bytes)

def decode : List UInt8 → Option (List UInt8)
  | [] => some []
  | [_] => none
  | [w, x] => do
      let w ← value w
      let x ← value x
      if x % 16 = 0 then some [UInt8.ofNat (w * 4 + x / 16)] else none
  | [w, x, y] => do
      let w ← value w
      let x ← value x
      let y ← value y
      if y % 4 = 0 then
        some [UInt8.ofNat (w * 4 + x / 16), UInt8.ofNat (x % 16 * 16 + y / 4)]
      else none
  | w :: x :: y :: z :: rest => do
      let w ← value w
      let x ← value x
      let y ← value y
      let z ← value z
      let tail ← decode rest
      some (UInt8.ofNat (w * 4 + x / 16) :: UInt8.ofNat (x % 16 * 16 + y / 4) ::
        UInt8.ofNat (y % 4 * 64 + z) :: tail)

theorem value_digit {n : Nat} (h : n < 64) :
    value (UInt8.ofNat (digit n).toNat) = some n ∧ (digit n).toNat < 128 := by
  have hall : ∀ n : Fin 64, value (UInt8.ofNat (digit n.1).toNat) = some n.1 ∧
      (digit n.1).toNat < 128 := by
    decide +kernel
  exact hall ⟨n, h⟩

theorem ofNat_eq {n : Nat} {b : UInt8} (h : n = b.toNat) : UInt8.ofNat n = b := by
  rw [h, UInt8.ofNat_toNat]

theorem encodeChars_ascii (bytes : List UInt8) : ∀ c ∈ encodeChars bytes, c.toNat < 128 := by
  have hdigit : ∀ n, (digit n).toNat < 128 := by
    intro n
    by_cases h : n < 64
    · exact (value_digit h).2
    · have hlen : alphabet.length ≤ n := Nat.not_lt.mp h
      rw [digit, List.getD, List.getElem?_eq_none hlen]
      decide
  fun_induction encodeChars bytes with
  | case1 => simp
  | case2 a => simp [hdigit]
  | case3 a b => simp [hdigit]
  | case4 a b c rest ih => simpa [hdigit] using ih

theorem decode_encodeChars (bytes : List UInt8) :
    decode ((encodeChars bytes).map (fun c => UInt8.ofNat c.toNat)) = some bytes := by
  fun_induction encodeChars bytes with
  | case1 => rfl
  | case2 a =>
      have ha := a.toNat_lt
      simp only [List.map_cons, List.map_nil, decode, bind, Option.bind,
        (value_digit (n := a.toNat / 4) (by omega)).1,
        (value_digit (n := a.toNat % 4 * 16) (by omega)).1]
      rw [if_pos (by omega), ofNat_eq (b := a) (by omega)]
  | case3 a b =>
      have ha := a.toNat_lt
      have hb := b.toNat_lt
      simp only [List.map_cons, List.map_nil, decode, bind, Option.bind,
        (value_digit (n := a.toNat / 4) (by omega)).1,
        (value_digit (n := a.toNat % 4 * 16 + b.toNat / 16) (by omega)).1,
        (value_digit (n := b.toNat % 16 * 4) (by omega)).1]
      rw [if_pos (by omega), ofNat_eq (b := a) (by omega), ofNat_eq (b := b) (by omega)]
  | case4 a b c rest ih =>
      have ha := a.toNat_lt
      have hb := b.toNat_lt
      have hc := c.toNat_lt
      simp only [List.map_cons, decode, bind, Option.bind, ih,
        (value_digit (n := a.toNat / 4) (by omega)).1,
        (value_digit (n := a.toNat % 4 * 16 + b.toNat / 16) (by omega)).1,
        (value_digit (n := b.toNat % 16 * 4 + c.toNat / 64) (by omega)).1,
        (value_digit (n := c.toNat % 64) (by omega)).1]
      rw [ofNat_eq (b := a) (by omega), ofNat_eq (b := b) (by omega), ofNat_eq (b := c) (by omega)]

theorem decode_encode (bytes : List UInt8) : decode (utf8 (encode bytes)) = some bytes := by
  rw [encode, utf8_ofList_of_ascii (encodeChars_ascii bytes), decode_encodeChars]

theorem decode_alphabet {text bytes : List UInt8} (h : decode text = some bytes) :
    ∀ b ∈ text, (value b).isSome := by
  induction text using decode.induct generalizing bytes with
  | case1 => simp
  | case2 => cases h
  | case3 w x =>
      simp only [decode, bind, Option.bind_eq_some_iff] at h
      obtain ⟨v, hw, v', hx, _⟩ := h
      simp [hw, hx]
  | case4 w x y =>
      simp only [decode, bind, Option.bind_eq_some_iff] at h
      obtain ⟨v, hw, v', hx, v'', hy, _⟩ := h
      simp [hw, hx, hy]
  | case5 w x y z rest ih =>
      simp only [decode, bind, Option.bind_eq_some_iff] at h
      obtain ⟨v, hw, v', hx, v'', hy, v''', hz, tail, hrest, _⟩ := h
      simpa [hw, hx, hy, hz] using ih hrest

end Base64Text
