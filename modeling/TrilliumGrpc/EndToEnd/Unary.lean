import TrilliumGrpc.Client.UnaryOutcome
import TrilliumGrpc.Client.UnaryRequest
import TrilliumGrpc.EndToEnd.ServerStreaming
import TrilliumGrpc.Frame.Outgoing
import TrilliumGrpc.Server.Answered

/-! # A unary call from end to end

The request that an awaited call puts on the wire, the user function that a server calls
for it, and what the caller is told of its result.
-/

namespace TrilliumGrpc

open Async ByteSource HeaderMap Time

variable {φ σ ρ ρ' ω H Req Resp : Type} [HeaderMap H]

/-! ## The request at the server -/

section

variable [Base64] [Features]

/-- A call without a deadline says nothing of a timeout, and names its encoding. -/
theorem values_buildRequest (c : GrpcClientConn ρ ω H Req Resp) {p : Pending H}
    (hbuilt : p.requestMetadata.Built) (hdeadline : c.deadline = none)
    (htimeout : values p.defaultHeaders "grpc-timeout" = []) (now : Instant) (body : List UInt8) :
    values (c.buildRequest p now body).headers "grpc-timeout" = [] ∧
      values (c.buildRequest p now body).headers "grpc-encoding" =
        if c.outboundEncoding = .identity then values p.defaultHeaders "grpc-encoding"
        else [.ofString c.outboundEncoding.asGrpcEncoding] := by
  have htype : ¬ SameName "grpc-timeout" "content-type" := by decide
  have hte : ¬ SameName "grpc-timeout" "te" := by decide
  have haccept : ¬ SameName "grpc-timeout" "grpc-accept-encoding" := by decide
  have hencoding : ¬ SameName "grpc-timeout" "grpc-encoding" := by decide
  have htype' : ¬ SameName "grpc-encoding" "content-type" := by decide
  have hte' : ¬ SameName "grpc-encoding" "te" := by decide
  have haccept' : ¬ SameName "grpc-encoding" "grpc-accept-encoding" := by decide
  unfold GrpcClientConn.buildRequest
  simp only [hdeadline]
  constructor
  · rw [Metadata.values_writeInto_reserved hbuilt.keys _ _ (by decide)]
    split <;> simp only [values_insert_other _ _ hencoding, values_insert_other _ _ haccept,
      values_insert_other _ _ hte, values_insert_other _ _ htype, htimeout]
  · rw [Metadata.values_writeInto_reserved hbuilt.keys _ _ (by decide)]
    split <;> simp only [values_insert_other _ _ haccept', values_insert_other _ _ hte',
      values_insert_other _ _ htype', values_insert_self]

omit [Base64] in
theorem extractRequestEncoding_of_values {requestHeaders : H} {e : Encoding}
    (hencoding : values requestHeaders "grpc-encoding" =
      if e = .identity then [] else [.ofString e.asGrpcEncoding]) :
    if e ∈ Encoding.all then extractRequestEncoding requestHeaders = .ok e
    else ∃ message, extractRequestEncoding requestHeaders = .error (.unimplemented message) := by
  rw [extractRequestEncoding]
  split at hencoding
  · rename_i hidentity
    have hknown : e ∈ Encoding.all := by
      rw [hidentity]
      simp [Encoding.all]
    rw [if_pos hknown, getStr_of_nil hencoding, hidentity]
  · rw [getStr_of_singleton hencoding, HeaderValue.asStr_ofString]
    dsimp only
    split
    · rename_i hknown
      rw [Encoding.fromGrpcEncoding_asGrpcEncoding hknown]
    · rename_i hunknown
      rw [Encoding.fromGrpcEncoding_of_not_mem hunknown]
      exact ⟨_, rfl⟩

omit [Base64] in
theorem startCall_admits {conn : Conn H ρ'} {e : Encoding} (hknown : e ∈ Encoding.all)
    (htimeout : values conn.requestHeaders "grpc-timeout" = [])
    (hencoding : values conn.requestHeaders "grpc-encoding" =
      if e = .identity then [] else [.ofString e.asGrpcEncoding]) (now now' : Instant) :
    startCall conn now now' = .ok (.ok ⟨⟨none⟩, negotiateResponseEncoding conn.requestHeaders,
      ⟨conn, empty, e, none⟩⟩) := by
  have hextract := extractRequestEncoding_of_values hencoding
  rw [if_pos hknown] at hextract
  have hnone := getStr_of_nil htimeout
  rw [startCall, hextract]
  dsimp only
  rw [Cancellation.fromConn, hnone, GrpcServerConn.new, hnone]
  rfl

end

/-! ## The response at the client -/

/-- The names of the head that the client reads. -/
def headNames : List String := ["content-type", "grpc-encoding", "grpc-status"]

/-- A conn whose head and trailers a user function has left as they were, but for headers
of its own. -/
structure GrpcServerConn.Keeps (before grpc : GrpcServerConn H ρ') : Prop where
  status : grpc.conn.status = before.conn.status
  headers : ∀ name ∈ headNames,
    values grpc.conn.responseHeaders name = values before.conn.responseHeaders name
  trailers : grpc.responseTrailers = before.responseTrailers

/-- A function that sets initial metadata at most. -/
def Handler.KeepsHead (f : Handler φ H ρ' Req Resp) : Prop :=
  ∀ future (grpc : GrpcServerConn H ρ'), grpc.Keeps (f.poll future grpc).2.2

/-- A head that was prepared is accepted by the client, whatever metadata came to it. -/
theorem processHead_kept [Base64] (server : Features) [Features] {conn prepared : Conn H ρ'}
    {suffix : String} (h : @prepareGrpcConn H ρ' _ server conn suffix = .ok prepared)
    (haccept : getStr conn.requestHeaders "grpc-accept-encoding" = some Encoding.acceptedEncodings)
    (hnoStatus : values conn.responseHeaders "grpc-status" = [])
    (hnoEncoding : values conn.responseHeaders "grpc-encoding" = []) {r : Response ρ ω H}
    (hstatus : r.status = prepared.status)
    (hheaders : ∀ name ∈ headNames, values r.headers name = values prepared.responseHeaders name) :
    processHead r = .ok ⟨r.headers,
      @negotiateResponseEncoding H _ server conn.requestHeaders, none⟩ := by
  have hknown := Encoding.fromGrpcEncoding_asGrpcEncoding (negotiated_mem server haccept)
  obtain ⟨h200, _, hst, henc⟩ := @prepareGrpcConn_ok _ _ _ server _ _ _ h
  have htype : values prepared.responseHeaders "content-type" =
      [.ofString ("application/grpc+" ++ suffix)] := by
    have hother : ¬ SameName "content-type" "grpc-accept-encoding" := by decide
    have hother' : ¬ SameName "content-type" "grpc-encoding" := by decide
    unfold prepareGrpcConn at h
    dsimp only at h
    split at h
    · cases h
    · split at h
      · cases h
      · cases h
        dsimp only
        split <;> simp only [values_insert_other _ _ hother, values_insert_other _ _ hother',
          values_insert_self]
  rw [← hheaders _ (by simp [headNames])] at htype hst henc
  rw [hnoStatus] at hst
  rw [hnoEncoding] at henc
  have hsuffix : ¬ (parseGrpcContentType ("application/grpc+" ++ suffix)).isNone = true := by
    rw [Option.isNone_iff_eq_none]
    exact Option.ne_none_iff_isSome.mpr (parseGrpcContentType_isSome suffix)
  simp only [processHead, hstatus, h200, getStr_of_singleton htype, HeaderValue.asStr_ofString,
    Option.bind_some, getStr_of_nil hst]
  rw [if_neg (by simp), if_neg hsuffix]
  split at henc
  · rename_i hidentity
    rw [getStr_of_nil henc, hidentity]
    rfl
  · rw [getStr_of_singleton henc, HeaderValue.asStr_ofString]
    dsimp only
    rw [hknown]
    rfl

theorem UnaryAwait.step_response [EndingSource ρ H] [AsyncWrite ω] [CodecCrates] [Base64] [Features]
    [AsyncStream σ Req] {c : GrpcClientConn ρ ω H Req Resp} {p : Pending H}
    {u : UnaryAwait ρ ω H Req Resp σ} {o : Opening H} (hmode : c.fullDuplex = false)
    (hstage : u.stage = .closing (.opening .closeSend o)) (hconn : u.call.conn = c.awaiting p)
    {tick : Tick ρ ω H} {r : Response ρ ω H} {head : Head H} (hnet : tick.net = .response r)
    (hhead : processHead r = .ok head)
    (hfree : interrupt u.call.conn.deadline true (u.call.world.observe tick.opening)
      tick.opening.timer = none) :
    u.Accepts tick r head ∧ (u.step tick).call.conn = (c.awaiting p).goLive r head := by
  have hinner : ((c.awaiting p).goLive r head).inner = .reading ⟨r.reader, head.responseHeaders,
      .new, head.responseEncoding, head.headStatus⟩ := by
    simp [GrpcClientConn.goLive, GrpcClientConn.awaiting, GrpcClientConn.buffering, hmode]
  have hstep : u.step tick = { u with
      call := ⟨(c.awaiting p).goLive r head, (u.call.world.observe tick.opening).put o⟩
      stage := .reading (.start .recv) } := by
    rw [hconn] at hfree
    rw [step, hstage]
    simp only [Call.poll, Call.pollOpening, hfree, hnet, hhead, Call.afterOpen, hconn, hinner]
    rfl
  exact ⟨⟨hnet, hhead, ⟨_, hstage⟩, by rw [hstep]⟩, by rw [hstep]⟩

/-! ## The result -/

section

variable [CodecCrates]

/-- The client can read the frame of the result, or tell its status from a success. -/
def Conveyable (cfg : ReadConfig Resp) (encode : Resp → Except Status (List UInt8)) :
    Except Status Resp → Prop
  | .error status => status.code ≠ .ok ∧ status.metadata.Built
  | .ok resp =>
      match encodeFrame encode resp cfg.encoding with
      | .ok bytes => Carries cfg encode resp bytes
      | .error status => status.code ≠ .ok ∧ status.metadata.Built

/-- The caller has the message, or a failure with the code, the message and the metadata of
the function's, or of the codec's. -/
def Conveyed (encode : Resp → Except Status (List UInt8)) (e : Encoding)
    (result told : Except Status Resp) : Prop :=
  match result with
  | .error status => ∃ t, told = .error t ∧ t.Same status
  | .ok resp =>
      match encodeFrame encode resp e with
      | .ok _ => told = .ok resp
      | .error status => ∃ t, told = .error t ∧ t.Same status

theorem parse_nothing (cfg : ReadConfig Resp) : parse cfg none [] = [none] := by
  have heof : parseOne cfg none [] = .eof := parseOne_eq_eof_iff.mpr ⟨rfl, rfl⟩
  rw [parse]
  split <;> simp_all

variable [LawfulCrates] [Base64]

/-- The body of a response and its trailers, read back. -/
theorem finishUnary_conveys {cfg : ReadConfig Resp} {encode : Resp → Except Status (List UInt8)}
    (hcap : cfg.maxMessageSize < 2 ^ 32) {result : Except Status Resp}
    (h : Conveyable cfg encode result) (conn : Conn H ρ') :
    let reply := finishUnary encode conn result cfg.encoding (empty : H)
    ∃ messages : List Resp, parse cfg none (rest reply.body) =
        messages.map (fun m => some (.ok m)) ++ [none] ∧
      Conveyed encode cfg.encoding result
        (Outcome.message (unaryOutcome messages (closing (reply.body.trailers.getD empty)))) := by
  intro reply
  -- a failure goes into the trailers behind an empty body
  have hfailure : ∀ status : Status, status.code ≠ .ok ∧ status.metadata.Built →
      reply.body = .new [] (status.writeInto empty) → ∃ messages : List Resp,
        parse cfg none (rest reply.body) = messages.map (fun m => some (.ok m)) ++ [none] ∧
          ∃ t, Outcome.message
            (unaryOutcome messages (closing (reply.body.trailers.getD empty))) = .error t ∧
              t.Same status := by
    rintro status ⟨hcode, hbuilt⟩ hbody
    obtain ⟨t, hread, hsame⟩ :=
      Status.fromTrailers_writeInto (H := H) (s := status) hbuilt.valid hcode
    refine ⟨[], ?_, t, ?_, hsame⟩
    · rw [hbody]
      exact parse_nothing cfg
    · have hclosing : (closing (reply.body.trailers.getD empty) : Except Status (Option Resp)) =
          .error t := by
        rw [hbody, closing]
        simp only [OneShotBody.new, Option.getD_some, hread]
        rfl
      rw [hclosing]
      rfl
  cases result with
  | error status => exact hfailure status h rfl
  | ok resp =>
      unfold Conveyable at h
      unfold Conveyed
      dsimp only at h ⊢
      cases hframe : encodeFrame encode resp cfg.encoding with
      | error status =>
          rw [hframe] at h
          refine hfailure status h ?_
          simp only [reply, finishUnary, hframe]
          rfl
      | ok bytes =>
          rw [hframe] at h
          obtain ⟨flag, payload, hbytes, hword, hmax, hok⟩ := h.deframe hcap
          have hbody : reply.body = .new bytes (Status.ok.writeInto empty) := by
            simp only [reply, finishUnary, hframe]
            rfl
          refine ⟨[resp], ?_, ?_⟩
          · rw [hbody]
            exact parse_eq_single_iff.mpr ⟨rfl, flag, payload, hbytes, hword, hmax, hok⟩
          · have hclosing : (closing (reply.body.trailers.getD empty) :
                Except Status (Option Resp)) = .ok none := by
              rw [hbody, closing]
              simp only [OneShotBody.new, Option.getD_some, Status.fromTrailers_ok]
              rfl
            rw [hclosing]
            rfl

end

/-! ## The call -/

/-- A unary call before its first poll: the request is in its body, it has no deadline, and
the client's default headers say nothing of a timeout or of another encoding. -/
structure UnaryConn.Asks [CodecCrates] (conn : UnaryConn ρ ω H Req Resp σ) (p : Pending H)
    (request : Req) : Prop where
  buffered : conn.requests = none
  inner : conn.engine.inner = .pending p
  fresh : p.sendClosed = false
  mode : conn.engine.fullDuplex = false
  deadline : conn.engine.deadline = none
  frame : conn.engine.encodeMessage request = .ok p.body
  metadata : p.requestMetadata.Built
  timeout : values p.defaultHeaders "grpc-timeout" = []
  encoding : conn.engine.outboundEncoding = .identity →
    values p.defaultHeaders "grpc-encoding" = []

theorem GrpcServerConn.Keeps.trans {a b c : GrpcServerConn H ρ'} (h : a.Keeps b) (h' : b.Keeps c) :
    a.Keeps c :=
  ⟨h'.status.trans h.status, fun name hn => (h'.headers name hn).trans (h.headers name hn),
    h'.trailers.trans h.trailers⟩

theorem prepareGrpcConn_requestBody [Features] {conn prepared : Conn H ρ'} {suffix : String}
    (h : prepareGrpcConn conn suffix = .ok prepared) :
    prepared.requestBody = conn.requestBody := by
  unfold prepareGrpcConn at h
  dsimp only at h
  split at h
  · cases h
  · split at h
    · cases h
    · cases h
      rfl

/-- A request without a deadline is admitted as it was sent, if the server knows its encoding. -/
theorem startCall_of_request [Base64] (server : Features) [Features]
    {c : GrpcClientConn ρ ω H Req Resp} {p : Pending H} (hmetadata : p.requestMetadata.Built)
    (hdeadline : c.deadline = none) (htimeout : values p.defaultHeaders "grpc-timeout" = [])
    (hidentity : c.outboundEncoding = .identity → values p.defaultHeaders "grpc-encoding" = [])
    {arrived prepared : Conn H ρ'} {suffix : String} {time : Instant} {body : List UInt8}
    (hheaders : arrived.requestHeaders = (c.buildRequest p time body).headers)
    (hprepared : @prepareGrpcConn H ρ' _ server arrived suffix = .ok prepared)
    (hknown : c.outboundEncoding ∈ @Encoding.all server) (now now' : Instant) :
    @startCall _ _ _ server prepared now now' = .ok (.ok ⟨⟨none⟩,
      @negotiateResponseEncoding H _ server arrived.requestHeaders,
      ⟨prepared, empty, c.outboundEncoding, none⟩⟩) := by
  obtain ⟨hnone, hencoding⟩ := values_buildRequest c hmetadata hdeadline htimeout time body
  rw [← hheaders] at hnone hencoding
  have hrequest := @prepareGrpcConn_requestHeaders _ _ _ server _ _ _ hprepared
  have hencoding' : values prepared.requestHeaders "grpc-encoding" =
      if c.outboundEncoding = .identity then []
      else [.ofString c.outboundEncoding.asGrpcEncoding] := by
    rw [hrequest, hencoding]
    split
    · rename_i hplain
      exact hidentity hplain
    · rfl
  rw [← hrequest]
  exact @startCall_admits _ _ _ server prepared _ hknown (by rw [hrequest]; exact hnone) hencoding'
    now now'

/-- The request that waits for its response has the frames of all that the call sends, and
the call is as it was but for that. -/
theorem UnaryConn.requested_of_closing [EndingSource ρ H] [AsyncWrite ω] [CodecCrates] [Base64]
    [Features] [ItemSource σ Req] {conn : UnaryConn ρ ω H Req Resp σ} {p : Pending H}
    (hinner : conn.engine.inner = .pending p) (hfresh : p.sendClosed = false)
    (hmode : conn.engine.fullDuplex = false) {w : World H} (hw : w.requests = [])
    (before : List (Tick ρ ω H)) {future : OpFuture H Req}
    (hstage : ((UnaryAwait.start conn w).run before).stage = .closing future) {sent : Request H}
    (hsent : sent ∈ ((UnaryAwait.start conn w).run before).call.world.requests) :
    (∃ o, future = .opening .closeSend o) ∧
      ((UnaryAwait.start conn w).run before).call.conn = conn.engine.awaiting p ∧
      ∃ now body, Framed conn.engine p ((conn.requests.map ItemSource.items).getD []) body ∧
        sent = conn.engine.buildRequest p now body := by
  have hkept : ((UnaryAwait.start conn w).run before).Requesting conn.engine p
      ((conn.requests.map ItemSource.items).getD []) :=
    kept_of_step (fun _ tick hu => hu.step hmode hfresh tick)
      (UnaryAwait.Requesting.start hinner hw) before
  rw [UnaryAwait.Requesting, hstage] at hkept
  cases future with
  | start op =>
      rw [hkept.2.2.1] at hsent
      exact absurd hsent List.not_mem_nil
  | opening op o =>
      obtain ⟨rfl, _, hconn, ⟨now, body, hframed, hrequest⟩, hrequests⟩ := hkept
      refine ⟨⟨o, rfl⟩, hconn, now, body, hframed, ?_⟩
      rw [hrequests] at hsent
      split at hsent
      · rw [List.mem_singleton.mp hsent, hrequest]
      · exact absurd hsent List.not_mem_nil
  | _ => exact hkept.elim

theorem UnaryConn.Asks.requested [EndingSource ρ H] [AsyncWrite ω] [CodecCrates] [Base64]
    [Features] [ItemSource σ Req] {conn : UnaryConn ρ ω H Req Resp σ} {p : Pending H}
    {request : Req}
    (h : conn.Asks p request) {w : World H} (hw : w.requests = []) (before : List (Tick ρ ω H))
    {future : OpFuture H Req}
    (hstage : ((UnaryAwait.start conn w).run before).stage = .closing future) {sent : Request H}
    (hsent : sent ∈ ((UnaryAwait.start conn w).run before).call.world.requests) :
    (∃ o, future = .opening .closeSend o) ∧
      ((UnaryAwait.start conn w).run before).call.conn = conn.engine.awaiting p ∧
      ∃ now, sent = conn.engine.buildRequest p now p.body := by
  obtain ⟨hopening, hconn, now, body, ⟨fs, hfs, rfl⟩, hrequest⟩ :=
    requested_of_closing h.inner h.fresh h.mode hw before hstage hsent
  rw [h.buffered] at hfs
  cases hfs
  exact ⟨hopening, hconn, now, by rw [hrequest, List.flatten_nil, List.append_nil]⟩

/-- A call that waits for its response gets the one that `finish_unary` makes: whatever the
function came to on the conn that was prepared for it, the awaited call gives, once it has
been polled often enough and if none of its polls loses a race. -/
theorem answer_conveyed [ItemSource σ Req] [EndingSource ρ H] [AsyncWrite ω] [ByteSource ρ']
    [CodecCrates] [LawfulCrates] [Base64] (server : Features) [Features]
    {c : GrpcClientConn ρ ω H Req Resp} {p : Pending H} (hmode : c.fullDuplex = false)
    (hcap : c.maxMessageSize < 2 ^ 32)
    {u : UnaryAwait ρ ω H Req Resp σ} {o : Opening H}
    (hstage : u.stage = .closing (.opening .closeSend o)) (hconn : u.call.conn = c.awaiting p)
    {arrived prepared : Conn H ρ'} {suffix : String}
    (hprepared : @prepareGrpcConn H ρ' _ server arrived suffix = .ok prepared)
    (haccept : getStr arrived.requestHeaders "grpc-accept-encoding" =
      some Encoding.acceptedEncodings)
    (hnoStatus : values arrived.responseHeaders "grpc-status" = [])
    (hnoEncoding : values arrived.responseHeaders "grpc-encoding" = [])
    {encode : Resp → Except Status (List UInt8)} {result : Except Status Resp}
    {before left : GrpcServerConn H ρ'} (hbefore : before.conn.status = prepared.status ∧
      before.conn.responseHeaders = prepared.responseHeaders ∧ before.responseTrailers = empty)
    (hkeeps : before.Keeps left) :
    let e := @negotiateResponseEncoding H _ server arrived.requestHeaders
    let reply := finishUnary encode left.conn result e left.responseTrailers
    Conveyable (c.readConfig e) encode result →
      ∀ (tick : Tick ρ ω H) (r : Response ρ ω H), tick.net = .response r →
        r.status = reply.conn.status → r.headers = reply.conn.responseHeaders →
        rest r.reader = rest reply.body → fault r.reader = none →
        EndingSource.behind r.reader = reply.body.trailers →
        interrupt u.call.conn.deadline true (u.call.world.observe tick.opening)
          tick.opening.timer = none →
        (∃ N, ∀ ticks, N ≤ ticks.length →
          ∃ awaited, ((u.step tick).run ticks).output = some (.ok awaited)) ∧
        ∀ ticks awaited, ((u.step tick).run ticks).output = some (.ok awaited) →
          (u.step tick).Uninterrupted ticks → Conveyed encode e result awaited.intoMessage := by
  intro e reply hconveyable tick r hnet hstatus hfields hrest hwhole' hbehind hfree
  -- the head that the function leaves
  have hleft : reply.conn = left.conn := finishUnary_conn _ _ _ _ _
  rw [hleft] at hstatus hfields
  have haccepted : processHead r = .ok ⟨r.headers, e, none⟩ := by
    refine processHead_kept server hprepared haccept hnoStatus hnoEncoding ?_ fun name hname => ?_
    · rw [hstatus, hkeeps.status, hbefore.1]
    · rw [hfields, hkeeps.headers name hname, hbefore.2.1]
  obtain ⟨haccepts, hlater⟩ := UnaryAwait.step_response hmode hstage hconn hnet haccepted hfree
  -- the body and the trailers behind it
  obtain ⟨messages, hparse, hconveyed⟩ := finishUnary_conveys hcap hconveyable left.conn
  have htrailers : left.responseTrailers = empty := hkeeps.trailers.trans hbefore.2.2
  rw [show finishUnary encode left.conn result (c.readConfig e).encoding empty = reply from
    by rw [← htrailers]; rfl] at hparse hconveyed
  have hbeforeHead : u.BeforeHead := by
    rw [UnaryAwait.BeforeHead, hstage]
    exact ⟨by rw [hconn]; exact ⟨trivial, hmode⟩, .inr ⟨o, rfl⟩⟩
  have hlive := haccepts.liveAt_of_before hbeforeHead
  have hconfig : (u.step tick).call.conn.readConfig e = c.readConfig e := by
    rw [hlater]
    unfold GrpcClientConn.goLive
    split <;> rfl
  change (u.step tick).call.LiveAt ((u.step tick).call.conn.readConfig e) _ none (r.reader, .new)
    at hlive
  rw [hconfig] at hlive
  have hv : Remaining (c.readConfig e) messages none reply.body.trailers (r.reader, .new) := by
    refine ⟨?_, by simp [ReadState.new], hbehind⟩
    rw [← follow_ahead_new, hrest, hwhole']
    exact hparse
  obtain ⟨hsame, hok⟩ := processHead_ok haccepted
  refine ⟨?_, fun ticks awaited houtput hwhole => ?_⟩
  · obtain ⟨N, hN⟩ : ∃ N, ∀ u : UnaryAwait ρ ω H Req Resp σ,
        u.AtRecv (c.readConfig e) ⟨r.headers, e, none⟩ none (false, (r.reader, .new)) →
          ∀ ticks, N ≤ ticks.length → (u.run ticks).outcome ≠ none :=
      UnaryAwait.awaiting_ends hv
    refine ⟨N, fun ticks hlong => ?_⟩
    have hends := hN _ ⟨hlive, .start .recv, trivial, haccepts.reading⟩ ticks hlong
    obtain ⟨outcome, houtcome⟩ := Option.ne_none_iff_exists'.mp hends
    exact ⟨_, UnaryAwait.output_eq_ok_iff.mpr ⟨outcome, houtcome, rfl⟩⟩
  · obtain ⟨outcome, houtcome, rfl⟩ := UnaryAwait.output_eq_ok_iff.mp houtput
    have hresults := UnaryAwait.outcome_of_reading haccepts.reading trivial hlive hok hv hwhole
      houtcome
    have hnoHead : getStr r.headers "grpc-status" = none := hok.headStatus_eq_none_iff.mp rfl
    rw [readUnary_resultsOf, Option.some.injEq] at hresults
    simp only [verdict, hnoHead, Option.isSome_none, Bool.false_eq_true, if_false] at hresults
    rw [intoMessage_eq rfl, ← hresults]
    exact hconveyed

theorem Readable.single [CodecCrates] [LawfulCrates] {cfg : ReadConfig Req}
    (hcap : cfg.maxMessageSize < 2 ^ 32) {encode : Req → Except Status (List UInt8)} {request : Req}
    (h : Readable cfg encode request) {bytes : List UInt8}
    (hframe : encodeFrame encode request cfg.encoding = .ok bytes) :
    SingleFrame cfg none bytes request := by
  obtain ⟨flag, payload, hbytes, hword, hmax, hok⟩ := (h bytes hframe).deframe hcap
  exact ⟨rfl, flag, payload, hbytes, hword, hmax, hok⟩

/-- A unary call that neither side cancels: the server's function is called once, with the
message of the request, however the body comes in; it answers if the function returns; and
what the function's future comes to, the awaited call gives: the message, or a failure with
the same code, message and metadata. The two sides may be built with different codecs. -/
theorem unary_call_answered [ItemSource σ Req] [EndingSource ρ H] [AsyncWrite ω] [ByteSource ρ']
    [CodecCrates] [LawfulCrates] [Base64] (server : Features) [Features]
    -- the client's call, up to its request
    {conn : UnaryConn ρ ω H Req Resp σ} {p : Pending H} {request : Req}
    (hasks : conn.Asks p request) (hcap : conn.engine.maxMessageSize < 2 ^ 32) {w : World H}
    (hw : w.requests = []) (before : List (Tick ρ ω H)) {future : OpFuture H Req}
    (hstage : ((UnaryAwait.start conn w).run before).stage = .closing future) {sent : Request H}
    (hsent : sent ∈ ((UnaryAwait.start conn w).run before).call.world.requests)
    -- the server's, whose response has no headers of the framework's yet
    {arrived prepared : Conn H ρ'} {suffix : String}
    (hheaders : arrived.requestHeaders = sent.headers)
    (hbytes : rest arrived.requestBody = sent.body) (hfault : fault arrived.requestBody = none)
    (hprepared : @prepareGrpcConn H ρ' _ server arrived suffix = .ok prepared)
    (hnoStatus : values arrived.responseHeaders "grpc-status" = [])
    (hnoEncoding : values arrived.responseHeaders "grpc-encoding" = [])
    (hknown : conn.engine.outboundEncoding ∈ @Encoding.all server)
    {decode : List UInt8 → Except Status Req}
    (hdecode : ∀ raw status, decode raw = .error status → status.Fails H)
    (hreads : Readable ⟨decode, conn.engine.outboundEncoding, defaultMaxMessageSize⟩
      conn.engine.encode request)
    (encode : Resp → Except Status (List UInt8)) {f : Handler φ H ρ' Req Resp} (hhead : f.KeepsHead)
    (hreturns : ∀ grpc, f.Returns grpc) (now now' : Instant) :
    let u := (UnaryAwait.start conn w).run before
    let e := @negotiateResponseEncoding H _ server arrived.requestHeaders
    let serve := @unaryImpl _ _ _ _ _ _ server _ _ _ decode encode f prepared now now'
    (∃ N, ∀ sigs, Cancellation.Uncancelled ⟨none⟩ false sigs → N ≤ sigs.length →
      ∃ reply invoked, serve sigs = .ok ⟨some reply, invoked⟩) ∧
    ∀ sigs reply invoked, Cancellation.Uncancelled ⟨none⟩ false sigs →
      serve sigs = .ok ⟨some reply, invoked⟩ →
        invoked = [request] ∧ ∃ grpc result left, f.Gives (f.call request) grpc result left ∧
          (Conveyable (conn.engine.readConfig e) encode result →
            ∀ (tick : Tick ρ ω H) (r : Response ρ ω H), tick.net = .response r →
              r.status = reply.conn.status → r.headers = reply.conn.responseHeaders →
              rest r.reader = rest reply.body → fault r.reader = none →
              EndingSource.behind r.reader = reply.body.trailers →
              interrupt u.call.conn.deadline true (u.call.world.observe tick.opening)
                tick.opening.timer = none →
              (∃ N, ∀ ticks, N ≤ ticks.length →
                ∃ awaited, ((u.step tick).run ticks).output = some (.ok awaited)) ∧
              ∀ ticks awaited, ((u.step tick).run ticks).output = some (.ok awaited) →
                (u.step tick).Uninterrupted ticks →
                  Conveyed encode e result awaited.intoMessage) := by
  intro u e serve
  obtain ⟨⟨o, rfl⟩, hconn, time, rfl⟩ := hasks.requested hw before hstage hsent
  -- the call at the server
  have hcall := startCall_of_request server hasks.metadata hasks.deadline hasks.timeout
    hasks.encoding hheaders hprepared hknown now now'
  have haccept := getStr_acceptEncoding conn.engine hasks.metadata time p.body
  rw [← hheaders] at haccept
  have hbody := @prepareGrpcConn_requestBody _ _ _ server _ _ _ hprepared
  have hsingle : SingleFrame ⟨decode, conn.engine.outboundEncoding, defaultMaxMessageSize⟩
      (fault prepared.requestBody) (rest prepared.requestBody) request := by
    rw [hbody, hfault, hbytes]
    exact hreads.single (show defaultMaxMessageSize < 2 ^ 32 by decide) hasks.frame
  obtain ⟨hends, hanswers⟩ := @unaryImpl_answers _ _ _ _ _ _ _ _ _ server _ hdecode encode f _ _ _ _
    hcall _ hsingle (hreturns _)
  refine ⟨hends, fun sigs reply invoked hwhole hout => ?_⟩
  obtain ⟨hinvoked, body, result, left, hgives, rfl⟩ := hanswers sigs reply invoked hwhole hout
  -- the answer at the client
  have hkept := hgives.kept (K := fun grpc => GrpcServerConn.Keeps
    (GrpcServerConn.withBody ⟨prepared, empty, conn.engine.outboundEncoding, none⟩ body) grpc)
    (fun future grpc h => h.trans (hhead future grpc)) ⟨rfl, fun _ _ => rfl, rfl⟩
  refine ⟨hinvoked, _, result, left, hgives, ?_⟩
  exact answer_conveyed server hasks.mode hcap hstage hconn hprepared haccept hnoStatus hnoEncoding
    ⟨rfl, rfl, rfl⟩ hkept

section

variable [CodecCrates] [Base64] {encode : Resp → Except Status (List UInt8)}

theorem finishUnary_trailers (conn : Conn H ρ) (result : Except Status Resp) (e : Encoding)
    (trailers : H) :
    ∃ left, (finishUnary encode conn result e trailers).body.trailers = some left := by
  unfold finishUnary
  split
  · split
    · exact ⟨_, rfl⟩
    · exact ⟨_, rfl⟩
  · exact ⟨_, rfl⟩

/-- Every reply of `unary_impl` has trailers. -/
theorem unaryImpl_trailers [Features] [AsyncRead ρ] {decode : List UInt8 → Except Status Req}
    {f : Handler φ H ρ Req Resp} {conn : Conn H ρ} {now now' : Instant} {sigs : List Signals}
    {reply : Reply H ρ (OneShotBody H)} {invoked : List Req}
    (h : unaryImpl decode encode f conn now now' sigs = .ok ⟨some reply, invoked⟩) :
    ∃ left, reply.body.trailers = some left := by
  rw [unaryImpl] at h
  rcases hstart : startCall conn now now' with panic | (status | call)
  · rw [hstart] at h
    cases h
  · rw [hstart] at h
    cases h
    exact ⟨_, rfl⟩
  · rw [hstart] at h
    simp only [Except.map, Except.ok.injEq, Dispatched.mk.injEq, Option.map_eq_some_iff] at h
    obtain ⟨⟨result, _, rfl⟩, _⟩ := h
    exact finishUnary_trailers _ result _ _

end

/-! ### One call -/

def plainUnary : UnaryConn ScriptedBody SinkScript HeaderList (List UInt8) (List UInt8)
    (ItemScript (List UInt8)) :=
  ⟨{ plainConn false with
      inner := .pending ⟨empty, "/echo", "application/grpc+proto", ⟨[("x-key", .ascii "7")]⟩,
        frame 0 [7], false⟩ }, none, none⟩

/-- The call of `plainUnary` as it comes in at the server, in pieces. -/
def arrivedUnary : Conn HeaderList Script :=
  letI := standardNoPad
  letI := allFeatures
  { requestHeaders := (plainUnary.engine.buildRequest ⟨empty, "/echo", "application/grpc+proto",
      ⟨[("x-key", .ascii "7")]⟩, frame 0 [7], false⟩ epoch []).headers
    responseHeaders := empty
    status := none
    requestBody := ⟨frame 0 [7], [.pending, .chunk 3], none⟩
    hasRuntime := true }

/-- The body of a reply as it arrives, in pieces of its own. -/
def answeredBody (body : OneShotBody HeaderList) : ScriptedBody :=
  ⟨⟨rest body, [.chunk 2, .pending], none⟩, body.trailers.getD empty⟩

theorem behind_answeredBody {body : OneShotBody HeaderList} {trailers : HeaderList}
    (h : body.trailers = some trailers) :
    EndingSource.behind (answeredBody body) = body.trailers := by
  change some (body.trailers.getD empty) = body.trailers
  rw [h]
  rfl

/-- The poll at which a reply comes in at the client. -/
def answeredTick (reply : Reply HeaderList Script (OneShotBody HeaderList)) :
    Tick ScriptedBody SinkScript HeaderList :=
  quietTick (.response
    { status := reply.conn.status
      headers := reply.conn.responseHeaders
      reader := answeredBody reply.body
      writer := ⟨[]⟩ })

theorem conveyable_deflated {cfg : ReadConfig (List UInt8)} (hdecode : cfg.decode = .ok)
    (hdeflate : cfg.encoding = .deflate) (hmax : cfg.maxMessageSize = defaultMaxMessageSize)
    {m out : List UInt8} (hout : deflateTable.encode m = .ok out)
    (hlen : m.length ≤ defaultMaxMessageSize) (hlen' : out.length ≤ defaultMaxMessageSize) :
    @Conveyable _ tableCrates cfg .ok (.ok m) := by
  let _ := tableCrates
  have hframe : encodeFrame (T := List UInt8) .ok m .deflate = .ok (frame 1 out) := by
    have hcompress : Encoding.compress .deflate m = .ok out := congrArg (Except.mapError _) hout
    simp only [encodeFrame, bind, Except.bind, encodePayload, framePayload, hcompress]
    rfl
  simp only [Conveyable, hdeflate, hframe]
  refine ⟨by rw [hdeflate, hframe], fun h => by rw [hdecode, ← h], fun h => ?_, ?_⟩
  · cases h
    rw [hmax]
    exact hlen
  · rw [hmax, frame_length]
    exact Nat.add_le_add_left hlen' _

theorem unary_echo_answered :
    letI := tableCrates
    letI := standardNoPad
    letI := allFeatures
    let u := (UnaryAwait.start plainUnary (.fresh epoch)).run [quietTick .sent]
    ∃ prepared, @prepareGrpcConn _ _ _ deflateOnly arrivedUnary "proto" = .ok prepared ∧
      ∃ N, ∀ sigs, Cancellation.Uncancelled ⟨none⟩ false sigs → N ≤ sigs.length →
        ∃ reply, @unaryImpl _ _ _ _ _ _ deflateOnly _ _ _ .ok .ok echoHandler prepared epoch epoch
            sigs = .ok ⟨some reply, [[7]]⟩ ∧
          ∃ N, ∀ ticks, N ≤ ticks.length → ∃ awaited,
            ((u.step (answeredTick reply)).run ticks).output = some (.ok awaited) ∧
            ((u.step (answeredTick reply)).Uninterrupted ticks → awaited.intoMessage = .ok [7]) := by
  let _ := tableCrates
  let _ := standardNoPad
  let _ := allFeatures
  have _ := tableCrates_lawful
  intro u
  obtain ⟨prepared, hprepared⟩ : ∃ prepared,
      @prepareGrpcConn _ _ _ deflateOnly arrivedUnary "proto" = .ok prepared := ⟨_, rfl⟩
  have hascii : Metadata.new.insertAscii "x-key" "7" = .ok ⟨[("x-key", .ascii "7")]⟩ := rfl
  have hasks : plainUnary.Asks ⟨empty, "/echo", "application/grpc+proto",
      ⟨[("x-key", .ascii "7")]⟩, frame 0 [7], false⟩ [7] :=
    ⟨rfl, rfl, rfl, rfl, rfl, rfl, .ascii .new hascii, rfl, fun _ => rfl⟩
  have hreads : Readable ⟨.ok, plainUnary.engine.outboundEncoding, defaultMaxMessageSize⟩
      plainUnary.engine.encode [7] := readable_plain rfl rfl (by decide)
  have hreturns : ∀ grpc, echoHandler.Returns grpc :=
    fun grpc message body => ⟨.ok message, _, .ready rfl⟩
  have hhead : echoHandler.KeepsHead := fun _ _ => ⟨rfl, fun _ _ => rfl, rfl⟩
  have hnegotiated : @negotiateResponseEncoding HeaderList _ deflateOnly
      arrivedUnary.requestHeaders = .deflate := by decide +kernel
  obtain ⟨⟨N, hends⟩, hanswers⟩ := unary_call_answered deflateOnly hasks (by decide)
    (w := .fresh epoch) rfl [quietTick .sent] rfl (List.mem_singleton.mpr rfl) rfl rfl rfl hprepared
    rfl rfl (by decide) (fun _ _ h => by cases h) hreads .ok hhead hreturns epoch epoch
  refine ⟨prepared, hprepared, N, fun sigs hwhole hlong => ?_⟩
  obtain ⟨reply, invoked, hserve⟩ := hends sigs hwhole hlong
  obtain ⟨rfl, grpc, result, left, hgives, htold⟩ := hanswers sigs reply invoked hwhole hserve
  have hresult : result = .ok [7] := by
    cases hgives with
    | ready poll =>
        cases poll
        rfl
    | pending poll => cases poll
  subst hresult
  obtain ⟨trailers, htrailers⟩ :=
    @unaryImpl_trailers _ _ _ _ _ _ _ _ _ deflateOnly _ _ _ _ _ _ _ _ _ hserve
  obtain ⟨⟨N, hends⟩, hconveyed⟩ := htold (conveyable_deflated rfl hnegotiated rfl rfl (by decide) (by decide))
    (answeredTick reply) _ rfl rfl rfl rfl rfl (behind_answeredBody htrailers) rfl
  refine ⟨reply, hserve, N, fun ticks hlong => ?_⟩
  obtain ⟨awaited, houtput⟩ := hends ticks hlong
  refine ⟨awaited, houtput, fun hraces => ?_⟩
  have htells := hconveyed ticks awaited houtput hraces
  rw [hnegotiated] at htells
  exact htells

end TrilliumGrpc
