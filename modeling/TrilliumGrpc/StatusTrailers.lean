import TrilliumGrpc.MetadataRuns
import TrilliumGrpc.Status

/-! # Statuses read back from the trailers

Into fresh trailers a status is written without loss. Into trailers that a handler
has filled, it keeps its code, and its message unless that is empty.
-/

namespace TrilliumGrpc

open HeaderMap

namespace Status

def trailersMessage {H : Type} [HeaderMap H] (headers : H) : String :=
  ((getStr headers "grpc-message").map percentDecode).getD ""

section Fresh

variable {H : Type} [HeaderMap H] [Base64]

/-- Code, message and metadata are read back as they were, and no other keys. -/
theorem status_survives_trailers {s : Status} (hcode : s.code ≠ .ok)
    (hbuilt : Metadata.Built s.metadata) :
    ∃ t, fromTrailers (s.intoTrailers : H) = .error t ∧ t.code = s.code ∧
      t.message = s.message ∧ (∀ key, t.metadata.valuesOf key = s.metadata.valuesOf key) ∧
      ∀ entry ∈ t.metadata.entries, ∃ own ∈ s.metadata.entries, own.1 = entry.1 := by
  obtain ⟨t, hread, hsame⟩ := fromTrailers_writeInto (H := H) hbuilt.valid hcode
  refine ⟨t, hread, hsame.code, hsame.message, hsame.metadata, ?_⟩
  intro entry hmem
  have hvalue : entry.2 ∈ t.metadata.valuesOf entry.1 :=
    (Metadata.mem_valuesOf _ _ _).mpr hmem
  rw [hsame.metadata, Metadata.mem_valuesOf] at hvalue
  exact ⟨_, hvalue, rfl⟩

end Fresh

theorem mixed_metadata_survives : letI := standardNoPad
    ∃ t, fromTrailers (intoTrailers ⟨.internal, "50%\n", ⟨[("x-note", .ascii "a"),
        ("x-raw-bin", .binary [255]), ("x-note", .ascii "b")]⟩⟩ : HeaderList) = .error t ∧
      t.code = .internal ∧ t.message = "50%\n" ∧
      t.metadata.valuesOf "x-note" = [.ascii "a", .ascii "b"] := by
  let _ := standardNoPad
  have hfirst : Metadata.new.insertAscii "x-note" "a" = .ok ⟨[("x-note", .ascii "a")]⟩ := rfl
  have hraw : (⟨[("x-note", .ascii "a")]⟩ : Metadata).insertBinary "x-raw-bin" [255] =
      .ok ⟨[("x-note", .ascii "a"), ("x-raw-bin", .binary [255])]⟩ := rfl
  have hlast : (⟨[("x-note", .ascii "a"), ("x-raw-bin", .binary [255])]⟩ : Metadata).insertAscii
      "x-note" "b" = .ok ⟨[("x-note", .ascii "a"), ("x-raw-bin", .binary [255]),
        ("x-note", .ascii "b")]⟩ := rfl
  obtain ⟨t, hread, hcode, hmessage, hvalues, _⟩ := status_survives_trailers (H := HeaderList)
    (s := ⟨.internal, "50%\n", ⟨[("x-note", .ascii "a"), ("x-raw-bin", .binary [255]),
      ("x-note", .ascii "b")]⟩⟩) (by decide) (.ascii (.binary (.ascii .new hfirst) hraw) hlast)
  exact ⟨t, hread, hcode, hmessage, hvalues "x-note"⟩

/-! ## Trailers with something in them -/

section Filled

variable {H : Type} [HeaderMap H] [Base64] [TextOfValues H] {s : Status}
  (hk : ∀ entry ∈ s.metadata.entries, OwnKey entry.1)

include hk

theorem trailersMessage_of_empty (hmessage : s.message = "") (headers : H) :
    trailersMessage (s.writeInto headers) = trailersMessage headers := by
  have hother : ¬ SameName "grpc-message" "grpc-status" := by decide
  have hvalues : values (s.writeInto headers) "grpc-message" = values headers "grpc-message" := by
    rw [writeInto, Metadata.values_writeInto_reserved hk _ _ (by decide), if_pos hmessage,
      values_insert_other _ _ hother]
  rw [trailersMessage, trailersMessage, TextOfValues.getStr_congr hvalues]

omit [TextOfValues H] in
theorem trailersMessage_of_ne (hmessage : s.message ≠ "") (headers : H) :
    trailersMessage (s.writeInto headers) = s.message := by
  have hvalues : values (s.writeInto headers) "grpc-message" =
      [.ofString (percentEncode s.message)] := by
    rw [writeInto, Metadata.values_writeInto_reserved hk _ _ (by decide), if_neg hmessage,
      values_insert_self]
  rw [trailersMessage, getStr_of_singleton hvalues, HeaderValue.asStr_ofString, Option.map_some,
    Option.getD_some, percentDecode_percentEncode]

theorem trailersMessage_eq_iff (headers : H) : trailersMessage (s.writeInto headers) = s.message ↔
    s.message ≠ "" ∨ trailersMessage headers = "" := by
  by_cases hmessage : s.message = ""
  · rw [trailersMessage_of_empty hk hmessage, hmessage]
    exact ⟨fun h => .inr h, fun h => h.resolve_left (fun hne => hne rfl)⟩
  · rw [trailersMessage_of_ne hk hmessage]
    exact ⟨fun _ => .inl hmessage, fun _ => rfl⟩

omit hk in
/-- The code always wins over what the trailers held; the message does exactly when it is
not empty or they held none. -/
theorem terminal_status_wins_iff (hcode : s.code ≠ .ok)
    (hreached : s.metadata.Reachable H) (bag : H) :
    ∃ t, fromTrailers (s.writeInto bag) = .error t ∧ t.code = s.code ∧
      (t.message = s.message ↔ s.message ≠ "" ∨ trailersMessage bag = "") := by
  have hk := hreached.keys
  rw [fromTrailers, trailersCode_writeInto hk, if_neg hcode]
  exact ⟨_, rfl, rfl, trailersMessage_eq_iff hk bag⟩

end Filled

theorem message_replaces_stale_one : letI := standardNoPad
    ∃ t, fromTrailers ((notFound "gone").writeInto
        (insert (empty : HeaderList) "grpc-message" (.ofString "stale"))) = .error t ∧
      t.code = .notFound ∧ t.message = "gone" := by
  let _ := standardNoPad
  obtain ⟨t, hread, hcode, hmessage⟩ := terminal_status_wins_iff (s := notFound "gone")
    (by decide) (H := HeaderList) ⟨[], rfl⟩ (insert empty "grpc-message" (.ofString "stale"))
  exact ⟨t, hread, hcode, hmessage.mpr (.inl (by decide))⟩

/-- A handler's own `grpc-message` is sent with a status that has none. -/
theorem stale_message_kept : letI := standardNoPad
    ∃ t, fromTrailers ((notFound "").writeInto
        (insert (empty : HeaderList) "grpc-message" (.ofString "stale"))) = .error t ∧
      t.message = "stale" := by
  let _ := standardNoPad
  have hmessage := trailersMessage_of_empty (s := notFound "") (H := HeaderList)
    (fun entry hmem => by cases hmem) rfl (insert empty "grpc-message" (.ofString "stale"))
  have hstale : trailersMessage (insert (empty : HeaderList) "grpc-message" (.ofString "stale")) =
      "stale" := by decide
  rw [fromTrailers, trailersCode_writeInto (fun entry hmem => by cases hmem), if_neg (by decide)]
  exact ⟨_, rfl, hmessage.trans hstale⟩

end Status

end TrilliumGrpc
