import TrilliumGrpc.Client.Conn
import TrilliumGrpc.Server.Dispatch

/-! # The response head between the two sides

The encoding that a server chooses from the list a client's request carries is one of
the client's build, and the head announcing it is one that the client accepts. The
two sides may be built with different codecs.
-/

namespace TrilliumGrpc

open HeaderMap Time

/-! ## The list of encodings -/

theorem split_acceptedEncodings [client : Features] :
    (Encoding.acceptedEncodings.toList.splitOn ',').map trim =
      Encoding.all.map (fun e => e.asGrpcEncoding.toList) := by
  have hall : ∀ gzip deflate zstd : Bool,
      let all : List Encoding := [.identity] ++ (if gzip then [.gzip] else []) ++
        (if deflate then [.deflate] else []) ++ (if zstd then [.zstd] else [])
      ((",".intercalate (all.map Encoding.asGrpcEncoding)).toList.splitOn ',').map trim =
        all.map (fun e => e.asGrpcEncoding.toList) := by
    decide +kernel
  exact hall client.gzip client.deflate client.zstd

theorem asGrpcEncoding_inj {e e' : Encoding}
    (h : e.asGrpcEncoding.toList = e'.asGrpcEncoding.toList) : e = e' := by
  revert h
  cases e <;> cases e' <;> decide

variable {ρ ρ' ω H Req Resp : Type} [HeaderMap H]

theorem getStr_acceptEncoding [Base64] [Features] (c : GrpcClientConn ρ ω H Req Resp) {p : Pending H}
    (hbuilt : p.requestMetadata.Built) (now : Instant) (body : List UInt8) :
    getStr (c.buildRequest p now body).headers "grpc-accept-encoding" =
      some Encoding.acceptedEncodings := by
  have hencoding : ¬ SameName "grpc-accept-encoding" "grpc-encoding" := by decide
  have htimeout : ¬ SameName "grpc-accept-encoding" "grpc-timeout" := by decide
  have hvalues : values (c.buildRequest p now body).headers "grpc-accept-encoding" =
      [.ofString Encoding.acceptedEncodings] := by
    unfold GrpcClientConn.buildRequest
    dsimp only
    rw [Metadata.values_writeInto_reserved hbuilt.keys _ _ (by decide)]
    split <;> split <;>
      simp only [values_insert_other _ _ htimeout, values_insert_other _ _ hencoding,
        values_insert_self]
  rw [getStr_of_singleton hvalues, HeaderValue.asStr_ofString]

theorem negotiated_mem (server : Features) [Features] {requestHeaders : H}
    (haccept : getStr requestHeaders "grpc-accept-encoding" = some Encoding.acceptedEncodings) :
    @negotiateResponseEncoding H _ server requestHeaders ∈ Encoding.all := by
  simp only [negotiateResponseEncoding, haccept, split_acceptedEncodings]
  cases hfind : List.find? _ _ with
  | none => simp [Encoding.all]
  | some e =>
      have hlisted := List.find?_some hfind
      simp only [List.contains_eq_mem, List.mem_map, decide_eq_true_eq] at hlisted
      obtain ⟨e', hmem, hname⟩ := hlisted
      exact asGrpcEncoding_inj hname ▸ hmem

/-! ## The head -/

/-- What `prepare_grpc_conn` leaves in the head. -/
theorem prepareGrpcConn_ok [Features] {conn prepared : Conn H ρ'} {suffix : String}
    (h : prepareGrpcConn conn suffix = .ok prepared) :
    prepared.status = some 200 ∧
      getStr prepared.responseHeaders "content-type" = some ("application/grpc+" ++ suffix) ∧
      values prepared.responseHeaders "grpc-status" = values conn.responseHeaders "grpc-status" ∧
      values prepared.responseHeaders "grpc-encoding" =
        if negotiateResponseEncoding conn.requestHeaders = .identity then
          values conn.responseHeaders "grpc-encoding"
        else [.ofString (negotiateResponseEncoding conn.requestHeaders).asGrpcEncoding] := by
  have htype : ¬ SameName "content-type" "grpc-accept-encoding" := by decide
  have htype' : ¬ SameName "content-type" "grpc-encoding" := by decide
  have hstatus : ¬ SameName "grpc-status" "content-type" := by decide
  have hstatus' : ¬ SameName "grpc-status" "grpc-accept-encoding" := by decide
  have hstatus'' : ¬ SameName "grpc-status" "grpc-encoding" := by decide
  have hencoding : ¬ SameName "grpc-encoding" "content-type" := by decide
  have hencoding' : ¬ SameName "grpc-encoding" "grpc-accept-encoding" := by decide
  unfold prepareGrpcConn at h
  dsimp only at h
  split at h
  · cases h
  · split at h
    · cases h
    · cases h
      refine ⟨rfl, ?_, ?_, ?_⟩
      · rw [← HeaderValue.asStr_ofString ("application/grpc+" ++ suffix)]
        refine getStr_of_singleton ?_
        dsimp only
        split <;> simp only [values_insert_other _ _ htype, values_insert_other _ _ htype',
          values_insert_self]
      · dsimp only
        split <;> simp only [values_insert_other _ _ hstatus, values_insert_other _ _ hstatus',
          values_insert_other _ _ hstatus'']
      · dsimp only
        split <;> simp only [values_insert_other _ _ hencoding, values_insert_other _ _ hencoding',
          values_insert_self]

/-- A head that was prepared is a call's head at the client, without a status, and
with the encoding that was chosen. -/
theorem processHead_prepared [Base64] (server : Features) [Features] {conn prepared : Conn H ρ'}
    {suffix : String} (h : @prepareGrpcConn H ρ' _ server conn suffix = .ok prepared)
    (haccept : getStr conn.requestHeaders "grpc-accept-encoding" = some Encoding.acceptedEncodings)
    (hnoStatus : values conn.responseHeaders "grpc-status" = [])
    (hnoEncoding : values conn.responseHeaders "grpc-encoding" = []) {r : Response ρ ω H}
    (hstatus : r.status = prepared.status) (hheaders : r.headers = prepared.responseHeaders) :
    processHead r = .ok ⟨prepared.responseHeaders,
      @negotiateResponseEncoding H _ server conn.requestHeaders, none⟩ := by
  have hknown := Encoding.fromGrpcEncoding_asGrpcEncoding (negotiated_mem server haccept)
  obtain ⟨h200, htype, hst, henc⟩ := @prepareGrpcConn_ok _ _ _ server _ _ _ h
  rw [hnoStatus] at hst
  rw [hnoEncoding] at henc
  have hsuffix : ¬ (parseGrpcContentType ("application/grpc+" ++ suffix)).isNone = true := by
    rw [Option.isNone_iff_eq_none]
    exact Option.ne_none_iff_isSome.mpr (parseGrpcContentType_isSome suffix)
  simp only [processHead, hstatus, h200, hheaders, htype, Option.bind_some, getStr_of_nil hst]
  rw [if_neg (by simp), if_neg hsuffix]
  split at henc
  · rename_i hidentity
    rw [getStr_of_nil henc, hidentity]
    rfl
  · rw [getStr_of_singleton henc, HeaderValue.asStr_ofString]
    dsimp only
    rw [hknown]
    rfl

end TrilliumGrpc
