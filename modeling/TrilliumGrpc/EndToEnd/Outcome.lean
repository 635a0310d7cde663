import TrilliumGrpc.EndToEnd.Unary
import TrilliumGrpc.Server.SingleResponse

/-! # What the caller is told

A server may refuse a call's request before the user function runs, fail to read it, cancel
it, find it late, or answer it. Whichever it is, the awaited call tells it.
-/

namespace TrilliumGrpc

open Async ByteSource HeaderMap Time

variable {φ σ ρ ρ' ω H Req Resp T F : Type}

/-! ## Where a result comes from -/

/-- An error of the framework's own, or an answer of the user function. -/
inductive Handler.Origin (f : Handler φ H ρ Req T) : Except Status T → Prop where
  | framework {status : Status} (raised : status.Raised) : f.Origin (.error status)
  | function {future : φ} {grpc : GrpcServerConn H ρ} {result : Except Status T}
      (answer : (f.poll future grpc).1 = .ready result) : f.Origin result

theorem Cancellation.run_result {c : Cancellation} {poll : F → Poll (Except Status T) × F}
    {Kept : F → Prop} {Good : Except Status T → Prop}
    (hraised : ∀ status : Status, status.Raised → Good (.error status))
    (hpending : ∀ s s', Kept s → poll s = (.pending, s') → Kept s')
    (hready : ∀ s s' result, Kept s → poll s = (.ready result, s') → Good result)
    {started : Bool} {sigs : List Signals} {s s' : F} {result : Except Status T} (hs : Kept s)
    (hrun : c.run poll started sigs s = (some result, s')) : Good result := by
  have herror : ∀ status : Status, status.Raised →
      True ∧ Good (.error status) := fun status h => ⟨trivial, hraised status h⟩
  have hstill : ∀ s s', Kept s → poll s = (.pending, s') → True ∧ Kept s' :=
    fun s s' hs hp => ⟨trivial, hpending s s' hs hp⟩
  have hover : ∀ s s' result, Kept s → poll s = (.ready result, s') →
      (True ↔ True) ∧ Good result := fun s s' result hs hp => ⟨Iff.rfl, hready s s' result hs hp⟩
  exact (meets_iff herror hstill hover hs hrun).2

namespace OneRequest

variable [AsyncRead ρ] [CodecCrates] {f : Handler φ H ρ Req Resp} {s : OneRequest φ H ρ Req}
  {decode : List UInt8 → Except Status Req} {Good : Except Status Resp → Prop}

def Came (decode : List UInt8 → Except Status Req) (Good : Except Status Resp → Prop) :
    Poll (Except Status Resp) × OneRequest φ H ρ Req → Prop
  | (.pending, s) => s.Decodes decode
  | (.ready result, _) => Good result

variable (hraised : ∀ status : Status, status.Raised → Good (.error status))
  (hdecode : ∀ raw status, decode raw = .error status → Good (.error status))
  (hf : ∀ future grpc result, (f.poll future grpc).1 = .ready result → Good result)

include hf

omit [AsyncRead ρ] [CodecCrates] in
theorem pollHandler_came (s : OneRequest φ H ρ Req) (future : φ) :
    Came decode Good (pollHandler f s future) := by
  have hanswer := hf future s.grpc
  rw [pollHandler]
  rcases hp : f.poll future s.grpc with ⟨_ | result, later, grpc⟩
  · exact trivial
  · rw [hp] at hanswer
    exact hanswer result rfl

include hraised hdecode

omit hf in
theorem recv_came {requests : RequestStream Req ρ} (hs : requests.config.decode = decode)
    {future : RecvFuture} {status : Status}
    (h : (requests.recv future).1 = .ready (.error status)) : Good (.error status) := by
  rcases RequestStream.recv_error h with hown | ⟨raw, hraw⟩
  · exact hraised status hown
  · rw [hs] at hraw
    exact hdecode raw status hraw

theorem pollSecond_came {requests : RequestStream Req ρ} (hs : requests.config.decode = decode)
    (request : Req) (future : RecvFuture) :
    Came decode Good (pollSecond f s request requests future) := by
  have hown : ∀ status, (requests.recv future).1 = .ready (.error status) →
      Good (.error status) := fun _ h => recv_came hraised hdecode hs h
  have hlater : (requests.recv future).2.1.config.decode = decode := by
    rw [RequestStream.recv_config, hs]
  rw [pollSecond]
  rcases hp : requests.recv future with ⟨_ | (status | _ | second), later, future'⟩
  · rw [hp] at hlater
    exact hlater
  · rw [hp] at hown
    exact hown status rfl
  · exact pollHandler_came hf _ _
  · exact hraised _ (Status.raised_new (by decide) _)

theorem pollFirst_came {requests : RequestStream Req ρ} (hs : requests.config.decode = decode)
    (future : RecvFuture) : Came decode Good (pollFirst f s requests future) := by
  have hown : ∀ status, (requests.recv future).1 = .ready (.error status) →
      Good (.error status) := fun _ h => recv_came hraised hdecode hs h
  have hlater : (requests.recv future).2.1.config.decode = decode := by
    rw [RequestStream.recv_config, hs]
  rw [pollFirst]
  rcases hp : requests.recv future with ⟨_ | (status | _ | request), later, future'⟩
  · rw [hp] at hlater
    exact hlater
  · rw [hp] at hown
    exact hown status rfl
  · exact hraised _ (Status.raised_new (by decide) _)
  · rw [hp] at hlater
    exact pollSecond_came hraised hdecode hf hlater request .unresumed

theorem poll_came (hs : s.Decodes decode) : Came decode Good (poll decode f s) := by
  rw [poll]
  rw [Decodes] at hs
  cases hstage : s.stage with
  | start => exact pollFirst_came hraised hdecode hf rfl .unresumed
  | first requests future =>
      rw [hstage] at hs
      exact pollFirst_came hraised hdecode hf hs future
  | second request requests future =>
      rw [hstage] at hs
      exact pollSecond_came hraised hdecode hf hs request future
  | handling future => exact pollHandler_came hf s future

theorem run_came {c : Cancellation} {started : Bool} {sigs : List Signals}
    {s' : OneRequest φ H ρ Req} {result : Except Status Resp} (hs : s.Decodes decode)
    (hrun : c.run (poll decode f) started sigs s = (some result, s')) : Good result := by
  have hcame : ∀ s : OneRequest φ H ρ Req, s.Decodes decode →
      Came decode Good (poll decode f s) := fun s hs => poll_came hraised hdecode hf hs
  refine Cancellation.run_result hraised ?_ ?_ hs hrun
  · intro s s' hs hp
    have hafter := hcame s hs
    rwa [hp] at hafter
  · intro s s' result hs hp
    have hafter := hcame s hs
    rwa [hp] at hafter

end OneRequest

/-! ## The server -/

section

variable [HeaderMap H] [Features]

/-- What a unary call comes to: its refusal, or the result of its race. -/
def unaryResult [AsyncRead ρ] [CodecCrates] (decode : List UInt8 → Except Status Req)
    (f : Handler φ H ρ Req Resp) (conn : Conn H ρ) (now now' : Instant) (sigs : List Signals) :
    MayPanic (Option (Except Status Resp)) :=
  (startCall conn now now').map fun
    | .error status => some (.error status)
    | .ok call => (call.cancellation.run (OneRequest.poll decode f) false sigs (.new call.grpc)).1

def clientStreamingResult (f : Handler φ H ρ Unit Resp) (conn : Conn H ρ) (now now' : Instant)
    (sigs : List Signals) : MayPanic (Option (Except Status Resp)) :=
  (startCall conn now now').map fun
    | .error status => some (.error status)
    | .ok call => (call.cancellation.run f.resume false sigs ⟨f.call (), call.grpc⟩).1

variable [CodecCrates] [Base64]

/-- A reply to `conn` is its result, on the conn as the user function left it. -/
def Replies (encode : Resp → Except Status (List UInt8)) (conn : Conn H ρ)
    (result : Except Status Resp) (reply : Reply H ρ (OneShotBody H)) : Prop :=
  ∃ before left : GrpcServerConn H ρ, before.conn.status = conn.status ∧
    before.conn.responseHeaders = conn.responseHeaders ∧ before.responseTrailers = empty ∧
    before.Keeps left ∧ reply = finishUnary encode left.conn result
      (negotiateResponseEncoding conn.requestHeaders) left.responseTrailers

theorem errorResponse_replies (encode : Resp → Except Status (List UInt8))
    (conn : Conn H ρ) (status : Status) :
    Replies encode conn (.error status) (errorResponse conn status) :=
  ⟨⟨conn, empty, .identity, none⟩, ⟨conn, empty, .identity, none⟩, rfl, rfl, rfl,
    ⟨rfl, fun _ _ => rfl, rfl⟩, rfl⟩

variable {conn : Conn H ρ} {now now' : Instant} {sigs : List Signals}
  {encode : Resp → Except Status (List UInt8)} {Good : Except Status Resp → Prop}

/-- Each reply of `unary_impl` is what the call came to. -/
theorem unaryImpl_replies [AsyncRead ρ] {decode : List UInt8 → Except Status Req}
    {f : Handler φ H ρ Req Resp} (hhead : f.KeepsHead)
    (hraised : ∀ status : Status, status.Raised → Good (.error status))
    (hdecode : ∀ raw status, decode raw = .error status → Good (.error status))
    (hf : ∀ future grpc result, (f.poll future grpc).1 = .ready result → Good result)
    {reply : Reply H ρ (OneShotBody H)} {invoked : List Req}
    (hserve : unaryImpl decode encode f conn now now' sigs = .ok ⟨some reply, invoked⟩) :
    ∃ result, unaryResult decode f conn now now' sigs = .ok (some result) ∧ Good result ∧
      Replies encode conn result reply := by
  rw [unaryImpl] at hserve
  rw [unaryResult]
  rcases hstart : startCall conn now now' with panic | (status | call)
  · rw [hstart] at hserve
    cases hserve
  · rw [hstart] at hserve
    cases hserve
    exact ⟨.error status, rfl, hraised status (startCall_error hstart),
      errorResponse_replies encode conn status⟩
  · obtain ⟨_, hencoding, hconn, htrailers⟩ := startCall_ok hstart
    rw [hstart] at hserve
    rcases hrun : call.cancellation.run (OneRequest.poll decode f) false sigs (.new call.grpc)
      with ⟨_ | result, s⟩
    · simp only [Except.map, hrun, Option.map_none, Except.ok.injEq, Dispatched.mk.injEq,
        reduceCtorEq, false_and] at hserve
    · simp only [Except.map, hrun, Option.map_some, Except.ok.injEq, Dispatched.mk.injEq,
        Option.some.injEq] at hserve
      have hbody : ∀ (grpc : GrpcServerConn H ρ) body, call.grpc.Keeps grpc →
          call.grpc.Keeps (grpc.withBody body) :=
        fun grpc body h => ⟨h.status, h.headers, h.trailers⟩
      have hkept : call.grpc.Keeps s.grpc := by
        have hpoll : ∀ s : OneRequest φ H ρ Req, call.grpc.Keeps s.grpc →
            call.grpc.Keeps (OneRequest.poll decode f s).2.grpc :=
          fun s hs => OneRequest.poll_kept hbody
            (fun future grpc h => h.trans (hhead future grpc)) decode hs
        have hafter := Cancellation.run_kept (c := call.cancellation) hpoll false sigs
          (s := .new call.grpc) ⟨rfl, fun _ _ => rfl, rfl⟩
        rw [hrun] at hafter
        exact hafter
      refine ⟨result, by simp only [Except.map, hrun], ?_, call.grpc, s.release, by rw [hconn],
        by rw [hconn], htrailers, OneRequest.release_kept hbody hkept, ?_⟩
      · have hfresh : (OneRequest.new call.grpc : OneRequest φ H ρ Req).Decodes decode := trivial
        exact OneRequest.run_came hraised hdecode hf hfresh hrun
      · rw [← hserve.1, hencoding]

/-- Each reply of `client_streaming_impl` is. -/
theorem clientStreamingImpl_replies {f : Handler φ H ρ Unit Resp} (hhead : f.KeepsHead)
    (hraised : ∀ status : Status, status.Raised → Good (.error status))
    (hf : ∀ future grpc result, (f.poll future grpc).1 = .ready result → Good result)
    {reply : Reply H ρ (OneShotBody H)}
    (hserve : clientStreamingImpl encode f conn now now' sigs = .ok (some reply)) :
    ∃ result, clientStreamingResult f conn now now' sigs = .ok (some result) ∧ Good result ∧
      Replies encode conn result reply := by
  rw [clientStreamingImpl] at hserve
  rw [clientStreamingResult]
  rcases hstart : startCall conn now now' with panic | (status | call)
  · rw [hstart] at hserve
    cases hserve
  · rw [hstart] at hserve
    cases hserve
    exact ⟨.error status, rfl, hraised status (startCall_error hstart),
      errorResponse_replies encode conn status⟩
  · obtain ⟨_, hencoding, hconn, htrailers⟩ := startCall_ok hstart
    rw [hstart] at hserve
    rcases hrun : call.cancellation.run f.resume false sigs ⟨f.call (), call.grpc⟩
      with ⟨_ | result, s⟩
    · simp only [Except.map, hrun, Option.map_none, Except.ok.injEq, reduceCtorEq] at hserve
    · simp only [Except.map, hrun, Option.map_some, Except.ok.injEq, Option.some.injEq] at hserve
      have hkept : call.grpc.Keeps s.grpc := by
        have hpoll : ∀ s : Handling φ H ρ, call.grpc.Keeps s.grpc →
            call.grpc.Keeps (f.resume s).2.grpc :=
          fun s hs => hs.trans (hhead s.future s.grpc)
        have hafter := Cancellation.run_kept (c := call.cancellation) hpoll false sigs
          (s := ⟨f.call (), call.grpc⟩) ⟨rfl, fun _ _ => rfl, rfl⟩
        rw [hrun] at hafter
        exact hafter
      have hstill : ∀ s s' : Handling φ H ρ, True → f.resume s = (.pending, s') → True :=
        fun _ _ _ _ => trivial
      have hanswer : ∀ (s s' : Handling φ H ρ) result, True →
          f.resume s = (.ready result, s') → Good result :=
        fun s _ result _ hp => hf s.future s.grpc result (congrArg Prod.fst hp)
      have hgood : Good result :=
        Cancellation.run_result hraised hstill hanswer trivial hrun
      exact ⟨result, by simp only [Except.map, hrun], hgood, call.grpc, s.grpc, by rw [hconn],
        by rw [hconn], htrailers, hkept, by rw [← hserve, hencoding]⟩

end

/-! ## The client -/

/-- The awaited call, once this reply is its response, tells the result: in whatever pieces the
body comes in, and if none of its polls loses a race. -/
def UnaryAwait.Tells [HeaderMap H] [ItemSource σ Req] [EndingSource ρ H] [AsyncWrite ω]
    [CodecCrates] [Base64] [Features] (u : UnaryAwait ρ ω H Req Resp σ)
    (encode : Resp → Except Status (List UInt8)) (e : Encoding) (result : Except Status Resp)
    (reply : Reply H ρ' (OneShotBody H)) : Prop :=
  ∀ (tick : Tick ρ ω H) (r : Response ρ ω H), tick.net = .response r →
    r.status = reply.conn.status → r.headers = reply.conn.responseHeaders →
    rest r.reader = rest reply.body → fault r.reader = none →
    EndingSource.behind r.reader = reply.body.trailers →
    interrupt u.call.conn.deadline true (u.call.world.observe tick.opening)
      tick.opening.timer = none →
    (∃ N, ∀ ticks, N ≤ ticks.length →
      ∃ awaited, ((u.step tick).run ticks).output = some (.ok awaited)) ∧
    ∀ ticks awaited, ((u.step tick).run ticks).output = some (.ok awaited) →
      (u.step tick).Uninterrupted ticks → Conveyed encode e result awaited.intoMessage

/-- Whatever a server makes of the request of an awaited call (it refuses the encoding or the
timeout, cannot read the body, cancels the call, finds it late, or answers it), its reply is
that result, on the conn as the user function left it; and where the result can be conveyed,
the call tells it: the message, or a failure with the code, the message and the metadata. What
the framework answers on its own can always be conveyed. -/
theorem every_outcome_told [HeaderMap H] [ItemSource σ Req] [EndingSource ρ H] [AsyncWrite ω]
    [ByteSource ρ'] [CodecCrates] [LawfulCrates] [Base64] (server : Features) [Features]
    -- the client's call, up to its request
    {conn : UnaryConn ρ ω H Req Resp σ} {p : Pending H} (hinner : conn.engine.inner = .pending p)
    (hfresh : p.sendClosed = false) (hmode : conn.engine.fullDuplex = false)
    (hmetadata : p.requestMetadata.Built) (hcap : conn.engine.maxMessageSize < 2 ^ 32)
    {w : World H} (hw : w.requests = []) (before : List (Tick ρ ω H)) {future : OpFuture H Req}
    (hstage : ((UnaryAwait.start conn w).run before).stage = .closing future) {sent : Request H}
    (hsent : sent ∈ ((UnaryAwait.start conn w).run before).call.world.requests)
    -- the server's, whose response has no headers of the framework's yet
    {arrived prepared : Conn H ρ'} {suffix : String}
    (hheaders : arrived.requestHeaders = sent.headers)
    (hprepared : @prepareGrpcConn H ρ' _ server arrived suffix = .ok prepared)
    (hnoStatus : values arrived.responseHeaders "grpc-status" = [])
    (hnoEncoding : values arrived.responseHeaders "grpc-encoding" = [])
    (encode : Resp → Except Status (List UInt8)) (now now' : Instant) (sigs : List Signals) :
    let u := (UnaryAwait.start conn w).run before
    let e := @negotiateResponseEncoding H _ server arrived.requestHeaders
    let conveys := Conveyable (conn.engine.readConfig e) encode
    (∀ status : Status, status.Raised → conveys (.error status)) ∧
    (∀ (decode : List UInt8 → Except Status Req) (f : Handler φ H ρ' Req Resp), f.KeepsHead →
      ∀ reply invoked, @unaryImpl _ _ _ _ _ _ server _ _ _ decode encode f prepared now now' sigs =
          .ok ⟨some reply, invoked⟩ →
        ∃ result, @unaryResult _ _ _ _ _ _ server _ _ decode f prepared now now' sigs =
            .ok (some result) ∧
          (f.Origin result ∨ ∃ raw status, decode raw = .error status ∧ result = .error status) ∧
          @Replies _ _ _ _ server _ _ encode prepared result reply ∧
          (conveys result → u.Tells encode e result reply)) ∧
    ∀ f : Handler φ H ρ' Unit Resp, f.KeepsHead →
      ∀ reply, @clientStreamingImpl _ _ _ _ _ server _ _ encode f prepared now now' sigs =
          .ok (some reply) →
        ∃ result, @clientStreamingResult _ _ _ _ _ server f prepared now now' sigs =
            .ok (some result) ∧
          f.Origin result ∧ @Replies _ _ _ _ server _ _ encode prepared result reply ∧
          (conveys result → u.Tells encode e result reply) := by
  intro u e conveys
  obtain ⟨⟨o, rfl⟩, hconn, time, body, _, rfl⟩ :=
    UnaryConn.requested_of_closing hinner hfresh hmode hw before hstage hsent
  have haccept := getStr_acceptEncoding conn.engine hmetadata time body
  rw [← hheaders] at haccept
  have hrequest := @prepareGrpcConn_requestHeaders _ _ _ server _ _ _ hprepared
  -- a reply whose result can be conveyed is told
  have htold : ∀ result (reply : Reply H ρ' (OneShotBody H)),
      @Replies _ _ _ _ server _ _ encode prepared result reply → conveys result →
        u.Tells encode e result reply := by
    rintro result _ ⟨opened, left, hstatus, hfields, htrailers, hkeeps, rfl⟩ hconveys
    rw [hrequest]
    exact answer_conveyed server hmode hcap hstage hconn hprepared haccept hnoStatus hnoEncoding
      ⟨hstatus, hfields, htrailers⟩ hkeeps hconveys
  refine ⟨?_, ?_, ?_⟩
  · rintro status ⟨hcode, hnew⟩
    exact ⟨hcode, hnew ▸ .new⟩
  · intro decode f hhead reply invoked hserve
    obtain ⟨result, hresult, horigin, hreplies⟩ := @unaryImpl_replies _ _ _ _ _ _ server _ _ _ _ _ _
      _ (fun result => f.Origin result ∨
        ∃ raw status, decode raw = .error status ∧ result = .error status) _ decode f hhead
      (fun _ h => .inl (.framework h)) (fun raw status h => .inr ⟨raw, status, h, rfl⟩)
      (fun _ _ _ h => .inl (.function h)) _ _ hserve
    exact ⟨result, hresult, horigin, hreplies, htold result reply hreplies⟩
  · intro f hhead reply hserve
    obtain ⟨result, hresult, horigin, hreplies⟩ := @clientStreamingImpl_replies _ _ _ _ _ server _ _
      _ _ _ _ _ _ f hhead (fun _ h => Handler.Origin.framework h) (fun _ _ _ h => .function h) _
      hserve
    exact ⟨result, hresult, horigin, hreplies, htold result reply hreplies⟩

/-! ### One call -/

/-- The call of `plainUnary` with a codec that not every server has. -/
def zstdUnary : UnaryConn ScriptedBody SinkScript HeaderList (List UInt8) (List UInt8)
    (ItemScript (List UInt8)) :=
  { plainUnary with engine := { plainUnary.engine with outboundEncoding := .zstd } }

def arrivedZstd : Conn HeaderList Script :=
  letI := standardNoPad
  letI := allFeatures
  { arrivedUnary with requestHeaders := (zstdUnary.engine.buildRequest ⟨empty, "/echo",
      "application/grpc+proto", ⟨[("x-key", .ascii "7")]⟩, frame 0 [7], false⟩ epoch []).headers }

theorem zstd_refusal_told :
    letI := storedCrates
    letI := standardNoPad
    letI := allFeatures
    ∃ prepared, @prepareGrpcConn _ _ _ deflateOnly arrivedZstd "proto" = .ok prepared ∧
      ∃ reply status, @unaryImpl _ _ _ _ _ _ deflateOnly _ _ _ .ok .ok echoHandler prepared epoch
          epoch [] = .ok ⟨some reply, []⟩ ∧
        status.code = .unimplemented ∧
        ((UnaryAwait.start zstdUnary (.fresh epoch)).run [quietTick .sent]).Tells .ok
          (@negotiateResponseEncoding _ _ deflateOnly arrivedZstd.requestHeaders) (.error status)
          reply := by
  let _ := storedCrates
  let _ := standardNoPad
  let _ := allFeatures
  have _ := storedCrates_lawful
  obtain ⟨prepared, hprepared⟩ : ∃ prepared,
      @prepareGrpcConn _ _ _ deflateOnly arrivedZstd "proto" = .ok prepared := ⟨_, rfl⟩
  have hhead : echoHandler.KeepsHead := fun _ _ => ⟨rfl, fun _ _ => rfl, rfl⟩
  have hascii : Metadata.new.insertAscii "x-key" "7" = .ok ⟨[("x-key", .ascii "7")]⟩ := rfl
  obtain ⟨status, hcode, hstart⟩ : ∃ status, status.code = .unimplemented ∧
      @startCall _ _ _ deflateOnly prepared epoch epoch = .ok (.error status) := by
    cases hprepared
    exact ⟨_, rfl, rfl⟩
  have hraised := @startCall_error _ _ _ deflateOnly _ _ _ _ hstart
  have hcap : zstdUnary.engine.maxMessageSize < 2 ^ 32 := by decide
  obtain ⟨hconveys, hunary, _⟩ := every_outcome_told (φ := List UInt8) deflateOnly
    rfl rfl rfl (.ascii .new hascii) hcap (w := .fresh epoch) rfl
    [quietTick .sent] rfl (List.mem_singleton.mpr rfl) rfl hprepared rfl rfl .ok epoch epoch []
  have hserve : @unaryImpl _ _ _ _ _ _ deflateOnly _ _ _ .ok .ok echoHandler prepared epoch epoch
      [] = .ok ⟨some (errorResponse prepared status), []⟩ := by
    unfold unaryImpl
    rw [hstart]
    rfl
  obtain ⟨result, hresult, _, _, htells⟩ := hunary .ok echoHandler hhead _ _ hserve
  unfold unaryResult at hresult
  rw [hstart] at hresult
  cases hresult
  exact ⟨prepared, hprepared, _, status, hserve, hcode, htells (hconveys status hraised)⟩

end TrilliumGrpc
