import TrilliumGrpc.Data.HeaderMap

/-! # Preflight headers

`src/content_type.rs`. Text is a list of characters: the prefix compared here is
ASCII, so the source's byte slice of its length is these characters or nothing.
-/

namespace TrilliumGrpc

open Bytes HeaderMap

/-- `char::is_whitespace`: the Unicode `White_Space` property. -/
def isWhitespace (c : Char) : Bool :=
  let n := c.toNat
  (0x09 ≤ n && n ≤ 0x0D) || n = 0x20 || n = 0x85 || n = 0xA0 || n = 0x1680 ||
    (0x2000 ≤ n && n ≤ 0x200A) || n = 0x2028 || n = 0x2029 || n = 0x202F || n = 0x205F ||
    n = 0x3000

/-- `str::trim`. -/
def trim (cs : List Char) : List Char := (cs.dropWhile isWhitespace).rdropWhile isWhitespace

theorem dropWhile_append_of_clean {front : List Char} (h : ∀ c ∈ front, isWhitespace c = false)
    (hne : front ≠ []) (rest : List Char) :
    (front ++ rest).dropWhile isWhitespace = front ++ rest := by
  cases front with
  | nil => exact absurd rfl hne
  | cons c front =>
      rw [List.cons_append, List.dropWhile_cons_of_neg (by simp [h c List.mem_cons_self])]

theorem rdropWhile_of_clean {cs : List Char} (h : ∀ c ∈ cs, isWhitespace c = false) :
    cs.rdropWhile isWhitespace = cs := by
  rw [List.rdropWhile_eq_self_iff]
  intro hne
  simp [h _ (List.getLast_mem hne)]

/-- `str::eq_ignore_ascii_case`. -/
def eqIgnoreAsciiCase (a b : List Char) : Bool := a.map Char.toLower = b.map Char.toLower

def grpcPrefix : List Char := "application/grpc".toList

/-- `value.split(';').next()` is everything up to the first semicolon. -/
def parseGrpcContentType (value : String) : Option String :=
  let mediaType := trim ((trim value.toList).takeWhile (fun c => c ≠ ';'))
  if eqIgnoreAsciiCase (mediaType.take grpcPrefix.length) grpcPrefix then
    match mediaType.drop grpcPrefix.length with
    | [] => some "proto"
    | '+' :: suffix => some (String.ofList suffix)
    | _ => none
  else none

theorem trim_append {front : List Char} (h : ∀ c ∈ front, isWhitespace c = false)
    (hne : front ≠ []) (rest : List Char) : ∃ rest', trim (front ++ rest) = front ++ rest' := by
  rw [trim, dropWhile_append_of_clean h hne, List.rdropWhile, List.reverse_append]
  induction rest.reverse with
  | nil =>
      have hback := rdropWhile_of_clean h
      rw [List.rdropWhile] at hback
      exact ⟨[], by simp [hback]⟩
  | cons c back ih =>
      by_cases hc : isWhitespace c
      · rw [List.cons_append, List.dropWhile_cons_of_pos hc]
        exact ih
      · rw [List.cons_append, List.dropWhile_cons_of_neg hc]
        exact ⟨back.reverse ++ [c], by simp⟩

theorem parseGrpcContentType_isSome (suffix : String) :
    (parseGrpcContentType ("application/grpc+" ++ suffix)).isSome := by
  have hws : ∀ c ∈ "application/grpc+".toList, isWhitespace c = false := by
    have hall : "application/grpc+".toList.all (fun c => !isWhitespace c) = true := by decide
    simpa using hall
  have hsemi : ∀ c ∈ "application/grpc+".toList, decide (c ≠ ';') = true :=
    List.all_eq_true.mp (by decide)
  obtain ⟨rest, hrest⟩ := trim_append hws (by decide) suffix.toList
  obtain ⟨rest', hrest'⟩ := trim_append hws (by decide) (rest.takeWhile (fun c => c ≠ ';'))
  have hmedia : trim ((trim ("application/grpc+" ++ suffix).toList).takeWhile (fun c => c ≠ ';')) =
      "application/grpc+".toList ++ rest' := by
    rw [String.toList_append, hrest, List.takeWhile_append_of_pos hsemi, hrest']
  have htake : ("application/grpc+".toList ++ rest').take grpcPrefix.length = grpcPrefix := rfl
  have hdrop : ("application/grpc+".toList ++ rest').drop grpcPrefix.length = '+' :: rest' := rfl
  simp only [parseGrpcContentType, hmedia, htake, hdrop]
  rw [if_pos (by decide)]
  rfl

def hasTeTrailers {H : Type} [HeaderMap H] (headers : H) : Bool :=
  (((values headers "te").filterMap HeaderValue.asStr).flatMap
    (fun s => s.toList.splitOn ',')).any
      (fun tok => eqIgnoreAsciiCase (trim tok) "trailers".toList)

end TrilliumGrpc
