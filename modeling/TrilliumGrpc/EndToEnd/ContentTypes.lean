import TrilliumGrpc.Client.ResponseHead
import TrilliumGrpc.Server.Dispatch

/-! # The content type between the two sides

Which content types `process_head` of `src/client/conn.rs` and `prepare_grpc_conn` of
`src/server/dispatch.rs` let through for a codec.
-/

namespace TrilliumGrpc

open Async HeaderMap

variable {ρ ρ' ω H Req Resp : Type}

/-! ## One rule for each side -/

section

variable [HeaderMap H] [Features]

theorem prepareGrpcConn_isOk_iff {conn : Conn H ρ'} {value suffix : String}
    (htype : getStr conn.requestHeaders "content-type" = some value)
    (hte : hasTeTrailers conn.requestHeaders = true) :
    (∃ prepared, prepareGrpcConn conn suffix = .ok prepared) ↔
      parseGrpcContentType value = some suffix := by
  simp only [prepareGrpcConn, htype, hte, Option.bind_some]
  by_cases hparse : parseGrpcContentType value = some suffix
  · simp [hparse]
  · simp [hparse]

theorem processHead_isOk_iff [Base64] {r : Response ρ ω H} {value : String}
    (h200 : r.status = some 200) (htype : getStr r.headers "content-type" = some value)
    (hencoding : ∀ name, getStr r.headers "grpc-encoding" = some name →
      (Encoding.fromGrpcEncoding name).isSome) :
    (∃ head, processHead r = .ok head) ↔ (parseGrpcContentType value).isSome := by
  simp only [processHead, h200, htype, Option.bind_some, ne_eq, not_true_eq_false, if_false]
  cases hparse : parseGrpcContentType value with
  | none => simp
  | some suffix =>
      cases hname : getStr r.headers "grpc-encoding" with
      | none => simp [Except.map]
      | some name =>
          obtain ⟨encoding, hknown⟩ := Option.isSome_iff_exists.mp (hencoding name hname)
          simp [Except.map, hknown]

/-! ## The two rules compared -/

variable [ResponseBody ρ H] [AsyncWrite ω] [CodecCrates] [Base64]

/-- `open_head` succeeds, and the body behind the head is read with the codec's decoder. -/
def Call.DecodesBody (s : Call ρ ω H Req Resp) (codec : Codec Req Resp) (r : Response ρ ω H)
    (future : OpFuture H Req) (ticks : List (Tick ρ ω H)) : Prop :=
  (s.drive future ticks).1 = some (.unit (.ok ())) ∧ ∃ head writer,
    (s.drive future ticks).2.1.LiveAt
      ⟨GrpcClientConn.decodeResponse codec.decode, head.responseEncoding, s.conn.maxMessageSize⟩
      head writer (r.reader, .new)

/-- `open_head` fails, and the conn has failed with its status. -/
def Call.RefusesHead (s : Call ρ ω H Req Resp) (future : OpFuture H Req)
    (ticks : List (Tick ρ ω H)) : Prop :=
  ∃ status, (s.drive future ticks).1 = some (.unit (.error status)) ∧
    (s.drive future ticks).2.1.conn.inner = .failed status

/-- Both sides let the same content types through for a codec, and neither one that
names another codec. -/
structure SameTypeRule (s : Call ρ ω H Req Resp) (codec : Codec Req Resp) (r : Response ρ ω H)
    (future : OpFuture H Req) (ticks : List (Tick ρ ω H)) (conn : Conn H ρ') (value : String) :
    Prop where
  agree : s.DecodesBody codec r future ticks ↔
    ∃ prepared, prepareGrpcConn conn codec.contentTypeSuffix = .ok prepared
  foreign : ∀ other, parseGrpcContentType value = some other → other ≠ codec.contentTypeSuffix →
    s.RefusesHead future ticks ∧
      ∃ refused, prepareGrpcConn conn codec.contentTypeSuffix = .error refused

section

variable {s : Call ρ ω H Req Resp} {codec : Codec Req Resp} {r : Response ρ ω H}
  {future : OpFuture H Req} {ticks : List (Tick ρ ω H)} {value : String}
  (hcomes : Call.HeadComes .openHead r s future ticks) (h200 : r.status = some 200)
  (htype : getStr r.headers "content-type" = some value)
  (hencoding : ∀ name, getStr r.headers "grpc-encoding" = some name →
    (Encoding.fromGrpcEncoding name).isSome)

include hcomes h200 htype hencoding

theorem Call.decodesBody_of_parsed
    (hmade : s.conn.decode = GrpcClientConn.decodeResponse codec.decode)
    (hparsed : (parseGrpcContentType value).isSome) : s.DecodesBody codec r future ticks := by
  obtain ⟨head, hr⟩ := (processHead_isOk_iff h200 htype hencoding).mpr hparsed
  obtain ⟨hanswer, writer, hlive⟩ := hcomes.opened hr
  rw [GrpcClientConn.readConfig, hmade] at hlive
  exact ⟨hanswer, head, writer, hlive⟩

theorem Call.refusesHead_iff :
    s.RefusesHead future ticks ↔ parseGrpcContentType value = none := by
  have hok := processHead_isOk_iff h200 htype hencoding
  cases hr : processHead r with
  | error status =>
      have hunparsed : parseGrpcContentType value = none := by
        rw [← Option.not_isSome_iff_eq_none, ← hok, hr]
        simp
      exact iff_of_true ⟨status, hcomes.refused hr⟩ hunparsed
  | ok head =>
      have hparsed := hok.mp ⟨head, hr⟩
      have hsuccess := (hcomes.opened hr).1
      constructor
      · rintro ⟨status, hfailed, _⟩
        rw [hsuccess] at hfailed
        cases hfailed
      · intro hunparsed
        rw [hunparsed] at hparsed
        cases hparsed

/-- For a response of HTTP status 200 in a known encoding, and a request that asks for trailers:
the two sides have the same rule exactly when the content type names no other codec. -/
theorem content_type_rule_iff
    (hmade : s.conn.decode = GrpcClientConn.decodeResponse codec.decode) {conn : Conn H ρ'}
    (hconn : getStr conn.requestHeaders "content-type" = some value)
    (hte : hasTeTrailers conn.requestHeaders = true) :
    SameTypeRule s codec r future ticks conn value ↔
      ∀ other, parseGrpcContentType value = some other → other = codec.contentTypeSuffix := by
  have hserver : (∃ prepared, prepareGrpcConn conn codec.contentTypeSuffix = .ok prepared) ↔
      parseGrpcContentType value = some codec.contentTypeSuffix :=
    prepareGrpcConn_isOk_iff hconn hte
  have hrefuses := Call.refusesHead_iff hcomes h200 htype hencoding
  constructor
  · intro hrule other hother
    by_contra hne
    have hnone := hrefuses.mp (hrule.foreign other hother hne).1
    rw [hother] at hnone
    cases hnone
  · intro honly
    refine ⟨⟨?_, ?_⟩, ?_⟩
    · rintro ⟨hanswer, _⟩
      cases hparse : parseGrpcContentType value with
      | none =>
          obtain ⟨status, hfailed, _⟩ := hrefuses.mpr hparse
          rw [hanswer] at hfailed
          cases hfailed
      | some other => exact hserver.mpr (by rw [hparse, honly other hparse])
    · intro haccepts
      refine Call.decodesBody_of_parsed hcomes h200 htype hencoding hmade ?_
      rw [hserver.mp haccepts]
      rfl
    · intro other hother hne
      exact absurd (honly other hother) hne

end

end

def plainProto : Codec (List UInt8) (List UInt8) := ⟨"proto", .ok, .ok⟩

/-- A head whose body is labelled as `value`. -/
def labelledResponse (value : String) : Response ScriptedBody SinkScript HeaderList :=
  { emptyResponse with headers := insert empty "content-type" (.ofString value) }

def labelledRequest (value : String) : Conn HeaderList Unit :=
  ⟨insert (insert empty "te" (.ofString "trailers")) "content-type" (.ofString value), empty, none,
    (), true⟩

theorem te_labelledRequest (value : String) :
    hasTeTrailers (labelledRequest value).requestHeaders = true := by
  have hvalues : values (labelledRequest value).requestHeaders "te" = [.ofString "trailers"] := by
    rw [labelledRequest, values_insert_other _ _ (by decide), values_insert_self]
  simp only [hasTeTrailers, hvalues, List.filterMap_cons, HeaderValue.asStr_ofString]
  decide

theorem same_type_rule_proto :
    letI := storedCrates
    letI := standardNoPad
    letI := allFeatures
    SameTypeRule (plainCall false) plainProto (labelledResponse "application/grpc")
      (.start .openHead) [quietTick (.response (labelledResponse "application/grpc"))]
      (labelledRequest "application/grpc") "application/grpc" := by
  let _ := storedCrates
  let _ := standardNoPad
  let _ := allFeatures
  have hopens : (Op.openHead : Op (List UInt8)).Opens := rfl
  have hnone : getStr (labelledResponse "application/grpc").headers "grpc-encoding" = none := by
    rw [getStr_of_nil]
    rw [labelledResponse, values_insert_other _ _ (by decide), values_empty]
  refine (content_type_rule_iff (.now [] (.first hopens rfl rfl rfl) rfl) rfl
    (getStr_insert_self _ _ _) ?_ rfl (getStr_insert_self _ _ _) (te_labelledRequest _)).mpr ?_
  · intro name hname
    rw [hnone] at hname
    cases hname
  · intro other hother
    exact (Option.some.inj hother).symm

/-- JSON is handed to the decoder of a call for protobuf. -/
theorem json_decoded_as_proto :
    letI := storedCrates
    letI := standardNoPad
    letI := allFeatures
    ¬ SameTypeRule (plainCall false) plainProto (labelledResponse "application/grpc+json")
      (.start .openHead) [quietTick (.response (labelledResponse "application/grpc+json"))]
      (labelledRequest "application/grpc+json") "application/grpc+json" := by
  let _ := storedCrates
  let _ := standardNoPad
  let _ := allFeatures
  intro hrule
  have hjson : parseGrpcContentType "application/grpc+json" = some "json" := by decide
  obtain ⟨⟨status, hfailed, _⟩, _⟩ := hrule.foreign "json" hjson (by decide)
  have hopened : ((plainCall false).drive (.start .openHead)
      [quietTick (.response (labelledResponse "application/grpc+json"))]).1 =
        some (.unit (.ok ())) := rfl
  rw [hopened] at hfailed
  cases hfailed

end TrilliumGrpc
