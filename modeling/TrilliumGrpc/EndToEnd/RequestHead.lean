import TrilliumGrpc.Client.Heads
import TrilliumGrpc.EndToEnd.ContentTypes
import TrilliumGrpc.EndToEnd.Unary

/-! # The head of a request at the server

What `prepare_grpc_conn`, the handlers of a call and `Metadata::from_headers` find in the
headers of a request, in whatever run of its call it was put on the wire.
-/

namespace TrilliumGrpc

open Async Bytes HeaderMap Time

variable {ρ ρ' ω H Req Resp : Type} [HeaderMap H]

theorem Metadata.Built.reachable [Base64] {m : Metadata} (h : m.Built) : m.Reachable H := by
  induction h with
  | new => exact ⟨[], rfl⟩
  | ascii _ hinsert ih =>
      obtain ⟨ops, rfl⟩ := ih
      exact ⟨ops ++ [.insertAscii _ _], by rw [run_concat, apply, run_pushAscii, hinsert]; rfl⟩
  | binary _ hinsert ih =>
      obtain ⟨ops, rfl⟩ := ih
      exact ⟨ops ++ [.insertBinary _ _], by rw [run_concat, apply, run_pushBinary, hinsert]; rfl⟩

/-! ## Headers as they were built -/

theorem OwnKey.not_sameName {key name : String} (h : OwnKey key)
    (hname : isReserved (asciiLower name) = true) : ¬ SameName key name := by
  obtain ⟨hvalid, hfree⟩ := h
  intro hsame
  rw [SameName, asciiLower_of_valid hvalid] at hsame
  rw [← hsame, hfree] at hname
  cases hname

section

variable [Base64]

/-- Metadata that is written to headers is read behind what they had under its key. -/
theorem Metadata.valuesOf_writeInto {m : Metadata} (hm : ∀ entry ∈ m.entries, EntryValid entry)
    (headers : H) (key : String) :
    (fromHeaders (m.writeInto headers)).valuesOf key =
      (fromHeaders headers).valuesOf key ++ m.valuesOf key := by
  by_cases hkey : OwnKey key
  · obtain ⟨hvalid, hfree⟩ := hkey
    have hown : m.entries.filter (fun entry => SameName key entry.1) =
        m.entries.filter (fun entry => entry.1 = key) := by
      refine List.filter_congr fun entry hmem => ?_
      simp only [SameName, asciiLower_of_valid hvalid, asciiLower_of_valid (hm entry hmem).key.1,
        eq_comm]
    have hread : ∀ entry ∈ m.entries.filter (fun entry => entry.1 = key),
        readValue key (encodeValue entry.2) = some entry.2 := by
      intro entry hmem
      obtain ⟨hmem, heq⟩ := List.mem_filter.mp hmem
      have heq : entry.1 = key := by simpa using heq
      exact heq ▸ readValue_encodeValue (hm entry hmem)
    rw [valuesOf_fromHeaders _ _ hvalid hfree, valuesOf_fromHeaders _ _ hvalid hfree,
      values_writeInto, hown, List.filterMap_append, List.filterMap_map, valuesOf]
    exact congrArg _ (List.filterMap_eq_map_iff_forall_eq_some.mpr hread)
  · rw [valuesOf_fromHeaders_of_unread _ hkey, valuesOf_fromHeaders_of_unread _ hkey,
      valuesOf_of_unread hm hkey]
    rfl

variable [Features] (c : GrpcClientConn ρ ω H Req Resp) {p : Pending H}

theorem values_framework (hbuilt : p.requestMetadata.Built) (now : Instant)
    (body : List UInt8) :
    values (c.buildRequest p now body).headers "content-type" = [.ofString p.contentType] ∧
      values (c.buildRequest p now body).headers "te" = [.ofString "trailers"] ∧
      values (c.buildRequest p now body).headers "grpc-encoding" =
        if c.outboundEncoding = .identity then values p.defaultHeaders "grpc-encoding"
        else [.ofString c.outboundEncoding.asGrpcEncoding] := by
  unfold GrpcClientConn.buildRequest
  dsimp only
  refine ⟨?_, ?_, ?_⟩
  · rw [Metadata.values_writeInto_reserved hbuilt.keys _ _ (by decide)]
    split <;> split <;> simp +decide only [values_insert, if_true, if_false]
  · rw [Metadata.values_writeInto_reserved hbuilt.keys _ _ (by decide)]
    split <;> split <;> simp +decide only [values_insert, if_true, if_false]
  · rw [Metadata.values_writeInto_reserved hbuilt.keys _ _ (by decide)]
    split <;> split <;> simp +decide only [values_insert, if_true, if_false]

theorem valuesOf_buildRequest (hbuilt : p.requestMetadata.Built) (now : Instant)
    (body : List UInt8) (key : String) :
    (Metadata.fromHeaders (c.buildRequest p now body).headers).valuesOf key =
      (Metadata.fromHeaders p.defaultHeaders).valuesOf key ++ p.requestMetadata.valuesOf key := by
  unfold GrpcClientConn.buildRequest
  dsimp only
  rw [Metadata.valuesOf_writeInto hbuilt.valid]
  congr 1
  by_cases hkey : OwnKey key
  · have hother : ∀ name, isReserved (asciiLower name) = true → ¬ SameName key name :=
      fun name hname => hkey.not_sameName hname
    rw [Metadata.valuesOf_fromHeaders _ _ hkey.1 hkey.2,
      Metadata.valuesOf_fromHeaders _ _ hkey.1 hkey.2]
    congr 1
    split <;> split <;> simp only [values_insert_other _ _ (hother "grpc-timeout" (by decide)),
      values_insert_other _ _ (hother "grpc-encoding" (by decide)),
      values_insert_other _ _ (hother "grpc-accept-encoding" (by decide)),
      values_insert_other _ _ (hother "te" (by decide)),
      values_insert_other _ _ (hother "content-type" (by decide))]
  · rw [Metadata.valuesOf_fromHeaders_of_unread _ hkey,
      Metadata.valuesOf_fromHeaders_of_unread _ hkey]

end

theorem prepareGrpcConn_buildRequest [Base64] (server : Features) [Features]
    (c : GrpcClientConn ρ ω H Req Resp) {p : Pending H} (hbuilt : p.requestMetadata.Built)
    (now : Instant) (body : List UInt8) {conn : Conn H ρ'}
    (hheaders : conn.requestHeaders = (c.buildRequest p now body).headers) (suffix : String) :
    (∃ prepared, @prepareGrpcConn H ρ' _ server conn suffix = .ok prepared) ↔
      parseGrpcContentType p.contentType = some suffix := by
  obtain ⟨htype, hte, _⟩ := values_framework c hbuilt now body
  rw [← hheaders] at htype hte
  have htrailers : hasTeTrailers conn.requestHeaders = true := by
    simp only [hasTeTrailers, hte, List.filterMap_cons, HeaderValue.asStr_ofString]
    decide
  refine @prepareGrpcConn_isOk_iff ρ' H _ server conn p.contentType suffix ?_ htrailers
  rw [getStr_of_singleton htype, HeaderValue.asStr_ofString]

/-! ## Every request of a run -/

/-- Whatever a user does with a call: a server reads from each of its requests, under every
key, what the defaults had and behind it what the setters in front of the action that sent
it have added, accepted values only, in their order; and none of it makes the server's
preflight refuse the request. -/
theorem request_metadata_received [ResponseBody ρ H] [AsyncWrite ω] [CodecCrates] [Base64]
    (server : Features) [Features] {s : Call ρ ω H Req Resp} {p : Pending H}
    (hinner : s.conn.inner = .pending p)
    (hbuilt : p.requestMetadata.Built) (hnone : s.world.requests = [])
    (actions : List (Action ρ ω H Req)) {r : Request H}
    (hr : r ∈ (s.acts actions).2.world.requests) :
    ∃ front action, front ++ [action] <+: actions ∧ s.Sends front action r ∧
      (∀ key, (Metadata.fromHeaders r.headers).valuesOf key =
        (Metadata.fromHeaders p.defaultHeaders).valuesOf key ++
          (Metadata.mk (p.requestMetadata.entries ++ front.filterMap Action.entry)).valuesOf key) ∧
      ∀ (conn : Conn H ρ') (suffix : String), conn.requestHeaders = r.headers →
        ((∃ prepared, @prepareGrpcConn H ρ' _ server conn suffix = .ok prepared) ↔
          parseGrpcContentType p.contentType = some suffix) := by
  obtain ⟨front, action, hfront, hsends, c, q, built, body, _, _, hafter, rfl⟩ :=
    Call.acts_built hinner hnone actions hr
  have hdefaults : q.defaultHeaders = p.defaultHeaders := hafter.defaults
  have htype : q.contentType = p.contentType := hafter.contentType
  have hentries : q.requestMetadata.entries =
      p.requestMetadata.entries ++ front.filterMap Action.entry := hafter.metadata
  have hbuilt' : q.requestMetadata.Built := hafter.built hbuilt
  refine ⟨front, action, hfront, hsends, fun key => ?_, fun conn suffix hheaders => ?_⟩
  · rw [valuesOf_buildRequest c hbuilt' built body key, hdefaults, ← hentries]
  · rw [prepareGrpcConn_buildRequest server c hbuilt' built body hheaders suffix, htype]

/-- A key with two values, set on either side of an opening that is dropped. -/
def taggedActions : List (Action ScriptedBody SinkScript HeaderList (List UInt8)) :=
  [.addAsciiMetadata "x-key" "7", .operate .openHead [quietTick .connecting],
    .addAsciiMetadata "x-key" "8", .operate .openHead [quietTick .sent]]

/-- The opening that was dropped sent nothing, so the request has both values. -/
theorem tagged_request_received :
    letI := storedCrates
    letI := standardNoPad
    letI := allFeatures
    ∃ r, ((plainCall false).acts taggedActions).2.world.requests = [r] ∧
      (Metadata.fromHeaders r.headers).valuesOf "x-key" = [.ascii "7", .ascii "8"] ∧
        ∃ prepared, @prepareGrpcConn _ Script _ deflateOnly
          ⟨r.headers, empty, none, ⟨[], [], none⟩, false⟩ "proto" = .ok prepared := by
  let _ := storedCrates
  let _ := standardNoPad
  let _ := allFeatures
  have hlength : ((plainCall false).acts taggedActions).2.world.requests.length = 1 := by
    decide +kernel
  obtain ⟨r, hone⟩ := List.length_eq_one_iff.mp hlength
  have hr : r ∈ ((plainCall false).acts taggedActions).2.world.requests := by
    rw [hone]
    exact List.mem_singleton_self r
  obtain ⟨front, action, ⟨rest, hfront⟩, ⟨new, hnew, hmem⟩, hreceived, hprepared⟩ :=
    @request_metadata_received _ Script _ _ _ _ _ _ _ _ _ deflateOnly _ (plainCall false) _ rfl
      .new rfl taggedActions _ hr
  have htaken : front ++ [action] = taggedActions.take (front.length + 1) := by
    rw [← hfront, List.take_left' (by simp)]
  have hfour : front.length < 4 := by
    have hlength := congrArg List.length hfront
    simp only [List.length_append, taggedActions, List.length_cons, List.length_nil] at hlength
    omega
  have hearly : ∀ k < 3,
      ((plainCall false).acts (taggedActions.take (k + 1))).2.world.requests = [] := by
    decide +kernel
  have hlast : front.length = 3 := by
    by_contra hother
    rw [htaken, hearly _ (by omega)] at hnew
    rw [(List.nil_eq_append_iff.mp hnew).2] at hmem
    cases hmem
  have hall : front = taggedActions.take 3 := by
    have hinit := congrArg List.dropLast htaken
    rw [hlast] at hinit
    simpa [taggedActions] using hinit
  refine ⟨r, hone, ?_, (hprepared _ "proto" rfl).mpr (by decide)⟩
  rw [hreceived "x-key", hall]
  rfl

end TrilliumGrpc
