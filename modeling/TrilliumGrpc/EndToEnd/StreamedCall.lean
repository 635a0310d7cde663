import TrilliumGrpc.EndToEnd.Unary

/-! # A server-streaming call on both sides

The request that the first `recv` sends, the function that a server calls for it, and its
stream in the client's `recv`s.
-/

namespace TrilliumGrpc

open Async ByteSource HeaderMap Time

variable {φ σ ρ ρ' ω H Req Resp : Type}

/-! ## The request of a `recv` -/

namespace Call

variable [ResponseBody ρ H] [AsyncWrite ω] [CodecCrates] [HeaderMap H] [Base64] [Features]
  {s : Call ρ ω H Req Resp}

/-- A `recv` that waits for its head: the conn is `c`, and the request `r` is on the wire, or
not yet. -/
def AwaitsHead (c : GrpcClientConn ρ ω H Req Resp) (r : Request H) (s : Call ρ ω H Req Resp)
    (o : Opening H) : Prop :=
  s.conn = c ∧ o.request = r ∧ s.world.requests = if o.sent then [r] else []

omit [AsyncWrite ω] [Features] in
theorem pollReading_pending {started : Bool} {tick : Tick ρ ω H}
    (h : (s.pollReading started tick).answer = .pending) :
    (s.pollReading started tick).future = .reading := by
  unfold pollReading at h ⊢
  dsimp only at h ⊢
  cases hi : interrupt s.conn.deadline started (s.world.observe tick.live) tick.live.timer with
  | some status =>
      simp only [hi] at h
      cases h
  | none =>
      simp only [hi] at h ⊢
      rcases hr : s.conn.pollRead with ⟨_ | item, conn⟩
      · rfl
      · simp only [hr] at h
        cases h

omit [AsyncWrite ω] [Features] in
theorem deliver_pending {tick : Tick ρ ω H} (h : (s.deliver tick).answer = .pending) :
    (s.deliver tick).future = .reading := by
  unfold deliver at h ⊢
  split at h
  · cases h
  · cases h
  · exact pollReading_pending h

/-- A poll that is not ready waits on for the head, or for a message behind it. -/
theorem pollOpening_pending {c : GrpcClientConn ρ ω H Req Resp} {r : Request H} {o : Opening H}
    (h : s.AwaitsHead c r o) {started : Bool} {tick : Tick ρ ω H}
    (hpending : (s.pollOpening .recv o started tick).answer = .pending) :
    (s.pollOpening .recv o started tick).future = .reading ∨
      ∃ o', (s.pollOpening .recv o started tick).future = .opening .recv o' ∧
        (s.pollOpening .recv o started tick).call.AwaitsHead c r o' := by
  obtain ⟨hconn, hrequest, hrequests⟩ := h
  unfold pollOpening at hpending ⊢
  dsimp only at hpending ⊢
  cases hi : interrupt s.conn.deadline started (s.world.observe tick.opening)
      tick.opening.timer with
  | some status =>
      simp only [hi] at hpending
      cases hpending
  | none =>
      simp only [hi] at hpending ⊢
      cases hnet : tick.net with
      | connecting => exact .inr ⟨o, rfl, hconn, hrequest, hrequests⟩
      | sent =>
          refine .inr ⟨{ o with sent := true }, rfl, hconn, hrequest, ?_⟩
          dsimp only
          rw [World.put]
          split
          · rename_i hput
            rw [hput] at hrequests
            exact hrequests
          · rename_i hput
            rw [if_neg hput] at hrequests
            rw [← hrequest]
            change s.world.requests ++ [o.request] = _
            rw [hrequests]
            rfl
      | refused e =>
          simp only [hnet] at hpending
          cases hpending
      | broken e =>
          simp only [hnet] at hpending
          cases hpending
      | response r =>
          simp only [hnet] at hpending ⊢
          cases hhead : processHead r with
          | error status =>
              simp only [hhead] at hpending
              cases hpending
          | ok head =>
              simp only [hhead] at hpending ⊢
              exact .inl (deliver_pending hpending)

/-- The futures of a `recv` that has not been dropped, from its first poll on. -/
def Receives (c : GrpcClientConn ρ ω H Req Resp) (r : Request H) (s : Call ρ ω H Req Resp)
    (future : OpFuture H Req) : Prop :=
  future = .reading ∨ ∃ o, future = .opening .recv o ∧ s.AwaitsHead c r o

theorem Receives.drive {c : GrpcClientConn ρ ω H Req Resp} {r : Request H}
    {future : OpFuture H Req} (h : s.Receives c r future) (ticks : List (Tick ρ ω H))
    (hnone : (s.drive future ticks).1 = none) :
    (s.drive future ticks).2.1.Receives c r (s.drive future ticks).2.2 := by
  induction ticks generalizing s future with
  | nil => exact h
  | cons tick ticks ih =>
      have hstep : (s.poll tick future).answer = .pending →
          (s.poll tick future).call.Receives c r (s.poll tick future).future := by
        intro hpending
        rcases h with rfl | ⟨o, rfl, hawaits⟩
        · exact .inl (pollReading_pending hpending)
        · exact pollOpening_pending hawaits hpending
      rw [Call.drive] at hnone ⊢
      rcases hp : s.poll tick future with ⟨_ | answer, later, future'⟩
      · rw [hp] at hnone hstep
        exact ih (hstep rfl) hnone
      · rw [hp] at hnone
        cases hnone

theorem materialize_pending {p : Pending H} (hw : s.world.requests = []) {tick : Tick ρ ω H}
    (hpending : (s.materialize p .recv tick).answer = .pending) :
    ∃ now, (s.materialize p .recv tick).call.Receives
      { s.conn with inner := .pending { p with body := [] } } (s.conn.buildRequest p now p.body)
      (s.materialize p .recv tick).future := by
  unfold materialize at hpending ⊢
  cases hinit : s.conn.initError with
  | some status =>
      simp only [hinit] at hpending
      cases hpending
  | none =>
      simp only [hinit] at hpending ⊢
      refine ⟨s.world.now.later tick.build, pollOpening_pending ⟨?_, rfl, ?_⟩ hpending⟩
      · rfl
      · simp [hw]

/-- The request of a call's first `recv`, while it waits for the head. -/
theorem recv_requested {p : Pending H} (hinner : s.conn.inner = .pending p)
    (hw : s.world.requests = []) {before : List (Tick ρ ω H)} {s' : Call ρ ω H Req Resp}
    {o : Opening H} (hwaits : s.drive (.start .recv) before = (none, s', .opening .recv o))
    {sent : Request H} (hsent : sent ∈ s'.world.requests) :
    s'.conn = { s.conn with inner := .pending { p with body := [] } } ∧
      ∃ now, sent = s.conn.buildRequest p now p.body := by
  cases before with
  | nil => cases hwaits
  | cons tick ticks =>
      rw [Call.drive] at hwaits
      have hpoll : s.poll tick (.start .recv) = s.materialize p .recv tick := by
        simp only [Call.poll, startRecv, hinner]
      have hstep := @materialize_pending _ _ _ _ _ _ _ _ _ _ _ s p hw tick
      rw [← hpoll] at hstep
      rcases hp : s.poll tick (.start .recv) with ⟨_ | answer, later, future⟩
      · rw [hp] at hwaits hstep
        obtain ⟨now, hreceives⟩ := hstep rfl
        have hlater := hreceives.drive ticks
        dsimp only at hwaits hlater
        rw [hwaits] at hlater
        rcases hlater rfl with hreading | ⟨o', ho, hconn, _, hrequests⟩
        · cases hreading
        · refine ⟨hconn, now, ?_⟩
          rw [hrequests] at hsent
          split at hsent
          · exact List.mem_singleton.mp hsent
          · cases hsent
      · rw [hp] at hwaits
        cases hwaits

/-- The poll at which the head comes in is the first of a `recv` on the live call. -/
theorem drive_of_head {o : Opening H} {tick : Tick ρ ω H} {r : Response ρ ω H} {head : Head H}
    (hnet : tick.net = .response r) (hhead : processHead r = .ok head)
    (hfree : interrupt s.conn.deadline true (s.world.observe tick.opening)
      tick.opening.timer = none)
    (ticks : List (Tick ρ ω H)) :
    s.drive (.opening .recv o) (tick :: ticks) =
      (⟨s.conn.goLive r head, (s.world.observe tick.opening).put o⟩ : Call ρ ω H Req Resp).drive
        (.start .recv) (tick :: ticks) := by
  have hpoll : s.poll tick (.opening .recv o) = (⟨s.conn.goLive r head,
      (s.world.observe tick.opening).put o⟩ : Call ρ ω H Req Resp).deliver tick := by
    simp only [Call.poll, pollOpening, hfree, hnet, hhead, afterOpen]
  have hlive : (⟨s.conn.goLive r head, (s.world.observe tick.opening).put o⟩ :
      Call ρ ω H Req Resp).poll tick (.start .recv) = (⟨s.conn.goLive r head,
        (s.world.observe tick.opening).put o⟩ : Call ρ ω H Req Resp).deliver tick := by
    have hopened := (goLive_encodeMessage s.conn r head).2
    simp only [Call.poll, startRecv]
    cases hinner : (s.conn.goLive r head).inner with
    | pending p =>
        rw [hinner] at hopened
        exact absurd trivial hopened
    | _ => rfl
  rw [Call.drive, Call.drive, hpoll, hlive]

end Call

/-! ## The call -/

/-- A server-streaming call before its first `recv`: the request is in its body, it has no
deadline, and the client's default headers say nothing of a timeout or of another encoding. -/
structure GrpcClientConn.Asks [HeaderMap H] [CodecCrates] (c : GrpcClientConn ρ ω H Req Resp)
    (p : Pending H) (request : Req) : Prop where
  inner : c.inner = .pending p
  mode : c.fullDuplex = false
  deadline : c.deadline = none
  frame : c.encodeMessage request = .ok p.body
  metadata : p.requestMetadata.Built
  timeout : values p.defaultHeaders "grpc-timeout" = []
  encoding : c.outboundEncoding = .identity → values p.defaultHeaders "grpc-encoding" = []

/-- A server-streaming call that the server does not cancel: its function is called once, with
the message of the request, however the body comes in; the call is answered if the function
returns; and if that gives a stream, the client's `recv`s, the one that waits for the head
among them, give its messages in order, once each, then how it ended, then nothing more. The
two sides may be built with different codecs. -/
theorem server_stream_answered [HeaderMap H] [ItemSource σ (Except Status Resp)]
    [TrailedSource ρ H] [AsyncWrite ω] [ByteSource ρ'] [CodecCrates] [LawfulCrates] [Base64]
    (server : Features) [Features]
    -- the client's call, up to its request
    {c : GrpcClientConn ρ ω H Req Resp} {p : Pending H} {request : Req} (hasks : c.Asks p request)
    (hcap : c.maxMessageSize < 2 ^ 32) {w : World H} (hw : w.requests = [])
    {before : List (Tick ρ ω H)} {s : Call ρ ω H Req Resp} {o : Opening H}
    (hwaits : (Call.mk c w).drive (.start .recv) before = (none, s, .opening .recv o))
    {sent : Request H} (hsent : sent ∈ s.world.requests)
    -- the server's, whose response has no headers of the framework's yet
    {arrived prepared : Conn H ρ'} {suffix : String}
    (hheaders : arrived.requestHeaders = sent.headers)
    (hbytes : rest arrived.requestBody = sent.body) (hfault : fault arrived.requestBody = none)
    (hprepared : @prepareGrpcConn H ρ' _ server arrived suffix = .ok prepared)
    (hnoStatus : values arrived.responseHeaders "grpc-status" = [])
    (hnoEncoding : values arrived.responseHeaders "grpc-encoding" = [])
    (hknown : c.outboundEncoding ∈ @Encoding.all server)
    {decode : List UInt8 → Except Status Req}
    (hdecode : ∀ raw status, decode raw = .error status → status.Fails H)
    (hreads : Readable ⟨decode, c.outboundEncoding, defaultMaxMessageSize⟩ c.encode request)
    (encode : Resp → Except Status (List UInt8)) {f : Handler φ H ρ' Req σ} (hhead : f.KeepsHead)
    (hreturns : ∀ grpc, f.Returns grpc) (now now' : Instant) :
    let e := @negotiateResponseEncoding H _ server arrived.requestHeaders
    let cfg := c.readConfig e
    let serve := @serverStreamingImpl _ _ _ _ _ _ _ server _ _ _ decode encode f prepared now now'
    (∃ N, ∀ sigs, Cancellation.Uncancelled ⟨none⟩ false sigs → N ≤ sigs.length →
      ∃ reply invoked, serve sigs = .ok ⟨some reply, invoked⟩) ∧
    ∀ sigs reply invoked, Cancellation.Uncancelled ⟨none⟩ false sigs →
      serve sigs = .ok ⟨some reply, invoked⟩ →
        invoked = [request] ∧ ∃ grpc result left, f.Gives (f.call request) grpc result left ∧
          ∀ stream, result = .ok stream → ∃ body : Uncut σ H Resp,
            reply.body = .streaming body.body ∧
            ∀ messages failure later,
              ItemSource.items stream = messages.map .ok ++ ending failure later →
              (∀ m ∈ messages, ∃ bytes, encodeFrame encode m e = .ok bytes ∧
                bytes.length ≤ prefixLen + cfg.maxMessageSize) →
              (∀ m ∈ messages, ∀ raw, encode m = .ok raw → raw.length ≤ cfg.maxMessageSize) →
              (∀ m ∈ messages, ∀ raw, encode m = .ok raw → cfg.decode raw = .ok m) →
              (∀ status, failure = some status → status.code ≠ .ok ∧ status.metadata.Built) →
              ∀ lens : Nat → Nat, (∀ k, 0 < lens k) →
                (∃ N, ∀ n ≥ N, ∃ last, (drain n lens body).2 = some last) ∧
                ∀ n last, (drain n lens body).2 = some last →
                  ∀ (tick : Tick ρ ω H) (r : Response ρ ω H), tick.net = .response r →
                    r.status = reply.conn.status → r.headers = reply.conn.responseHeaders →
                    rest r.reader = (drain n lens body).1 → fault r.reader = none →
                    TrailedSource.coming r.reader = last.body.trailers →
                    interrupt s.conn.deadline true (s.world.observe tick.opening)
                      tick.opening.timer = none →
                    ∃ live : Call ρ ω H Req Resp,
                      (∀ ticks, s.drive (.opening .recv o) (tick :: ticks) =
                        live.drive (.start .recv) (tick :: ticks)) ∧
                      ∃ outcome, Tells failure outcome ∧
                        (∀ ticks, Uncancelled ticks →
                          live.received ticks <+: replies messages outcome ticks.length) ∧
                        ∃ N, ∀ ticks, Uncancelled ticks → (∀ polls ∈ ticks, N ≤ polls.length) →
                          live.received ticks =
                            (replies messages outcome ticks.length).take ticks.length := by
  intro e cfg serve
  obtain ⟨hconn, time, rfl⟩ := Call.recv_requested hasks.inner hw hwaits hsent
  -- the call at the server
  have hcall := startCall_of_request server hasks.metadata hasks.deadline hasks.timeout
    hasks.encoding hheaders hprepared hknown now now'
  have haccept := getStr_acceptEncoding c hasks.metadata time p.body
  rw [← hheaders] at haccept
  have hbody := @prepareGrpcConn_requestBody _ _ _ server _ _ _ hprepared
  have hsingle : SingleFrame ⟨decode, c.outboundEncoding, defaultMaxMessageSize⟩
      (fault prepared.requestBody) (rest prepared.requestBody) request := by
    rw [hbody, hfault, hbytes]
    exact hreads.single (show defaultMaxMessageSize < 2 ^ 32 by decide) hasks.frame
  obtain ⟨hends, hanswers⟩ := @serverStreamingImpl_answers _ _ _ _ _ _ _ _ _ server _ _ hdecode
    encode f _ _ _ _ hcall _ hsingle (hreturns _)
  refine ⟨hends, fun sigs reply invoked hwhole hout => ?_⟩
  obtain ⟨hinvoked, body, result, left, hgives, hreply, hstreams⟩ :=
    hanswers sigs reply invoked hwhole hout
  refine ⟨hinvoked, _, result, left, hgives, ?_⟩
  rintro stream rfl
  -- the stream at the client
  have hkept := hgives.kept (K := fun grpc => GrpcServerConn.Keeps
    (GrpcServerConn.withBody ⟨prepared, empty, c.outboundEncoding, none⟩ body) grpc)
    (fun future grpc h => h.trans (hhead future grpc)) ⟨rfl, fun _ _ => rfl, rfl⟩
  have htrailers : left.responseTrailers = empty := hkept.trailers
  have hstreaming := hstreams stream rfl
  rw [htrailers] at hstreaming
  refine ⟨⟨.new stream encode e empty true⟩, hstreaming, ?_⟩
  intro messages failure later hitems hframes hraw hread hfailure lens hlens
  refine ⟨drain_ends hlens rfl, ?_⟩
  intro n last hlast tick r hnet hstatus hfields hrest hwhole' hcoming hfree
  have haccepted : processHead r = .ok ⟨r.headers, e, none⟩ := by
    refine processHead_kept server hprepared haccept hnoStatus hnoEncoding ?_ fun name hname => ?_
    · rw [hstatus, hreply, hkept.status]
      rfl
    · rw [hfields, hreply, hkept.headers name hname]
      rfl
  refine ⟨_, Call.drive_of_head hnet haccepted hfree, ?_⟩
  have hlive : (⟨s.conn.goLive r ⟨r.headers, e, none⟩, (s.world.observe tick.opening).put o⟩ :
      Call ρ ω H Req Resp).At cfg (r.reader, .new) := by
    have hcalm : ((s.world.observe tick.opening).put o).cancelled = false := by
      have hobserved : (s.world.observe tick.opening).cancelled = false := by
        cases hcancelled : (s.world.observe tick.opening).cancelled with
        | false => rfl
        | true =>
            obtain ⟨status, hlost⟩ := Call.interrupt_of_cancelled hcancelled
            rw [hlost] at hfree
            cases hfree
      rw [World.put]
      split
      · exact hobserved
      · exact hobserved
    rw [hconn]
    refine ⟨⟨r.headers, ?_⟩, ?_, ?_, hcalm⟩
    · simp only [GrpcClientConn.goLive, hasks.mode, Bool.false_eq_true, if_false]
      rfl
    · simp only [GrpcClientConn.goLive, hasks.mode, Bool.false_eq_true, if_false]
      rfl
    · simp only [GrpcClientConn.goLive, hasks.mode, Bool.false_eq_true, if_false]
      exact hasks.deadline
  have hcap' : cfg.maxMessageSize < 2 ^ 32 := hcap
  exact stream_delivered hcap' hframes hraw hread hfailure hitems hlens hlast hrest hwhole'
    hcoming hlive

/-! ### One call -/

def plainStreamed : GrpcClientConn ScriptedBody SinkScript HeaderList (List UInt8) (List UInt8) :=
  { plainConn false with
    inner := .pending ⟨empty, "/echo", "application/grpc+proto", .new, frame 0 [7], false⟩ }

/-- The call of `plainStreamed` as it comes in at the server, in pieces. -/
def arrivedStreamed : Conn HeaderList Script :=
  letI := standardNoPad
  letI := allFeatures
  { requestHeaders := (plainStreamed.buildRequest
      ⟨empty, "/echo", "application/grpc+proto", .new, frame 0 [7], false⟩ epoch []).headers
    responseHeaders := empty
    status := none
    requestBody := ⟨frame 0 [7], [.pending, .chunk 3], none⟩
    hasRuntime := true }

def twiceHandler : Handler (List UInt8) HeaderList Script (List UInt8)
    (ItemScript (Except Status (List UInt8))) :=
  ⟨id, fun message grpc =>
    (.ready (.ok ⟨[(false, .ok message), (true, .ok message)]⟩), message, grpc)⟩

abbrev TwiceBody := Uncut (ItemScript (Except Status (List UInt8))) HeaderList (List UInt8)

/-- The poll at which a streamed reply comes in at the client, in pieces of its own. -/
def streamedTick (conn : Conn HeaderList Script) (bytes : List UInt8) (trailers : HeaderList) :
    Tick ScriptedBody SinkScript HeaderList :=
  quietTick (.response
    { status := conn.status
      headers := conn.responseHeaders
      reader := ⟨⟨bytes, [.chunk 2, .pending], none⟩, trailers⟩
      writer := ⟨[]⟩ })

theorem streamed_call_answered :
    letI := tableCrates
    letI := standardNoPad
    letI := allFeatures
    ∃ prepared, @prepareGrpcConn _ _ _ deflateOnly arrivedStreamed "proto" = .ok prepared ∧
      ∃ s o, (Call.mk plainStreamed (.fresh epoch)).drive (.start .recv) [quietTick .sent] =
          (none, s, .opening .recv o) ∧
        ∃ N, ∀ sigs, Cancellation.Uncancelled ⟨none⟩ false sigs → N ≤ sigs.length →
          ∃ reply, @serverStreamingImpl _ _ _ _ _ _ _ deflateOnly _ _ _ .ok .ok twiceHandler
              prepared epoch epoch sigs = .ok ⟨some reply, [[7]]⟩ ∧
            ∃ (body last : TwiceBody) (n : Nat), reply.body = .streaming body.body ∧
              (drain n (fun _ => 3) body).2 = some last ∧
              ∃ live : Call ScriptedBody SinkScript HeaderList (List UInt8) (List UInt8),
                let tick := streamedTick reply.conn (drain n (fun _ => 3) body).1 last.body.trailers
                (∀ ticks, s.drive (.opening .recv o) (tick :: ticks) =
                  live.drive (.start .recv) (tick :: ticks)) ∧
                ∃ outcome, Tells none outcome ∧ ∃ N, ∀ ticks, Uncancelled ticks →
                  (∀ polls ∈ ticks, N ≤ polls.length) → live.received ticks =
                    (replies [[7], [7]] outcome ticks.length).take ticks.length := by
  let _ := tableCrates
  let _ := standardNoPad
  let _ := allFeatures
  have _ := tableCrates_lawful
  obtain ⟨prepared, hprepared⟩ : ∃ prepared,
      @prepareGrpcConn _ _ _ deflateOnly arrivedStreamed "proto" = .ok prepared := ⟨_, rfl⟩
  have hasks : plainStreamed.Asks
      ⟨empty, "/echo", "application/grpc+proto", .new, frame 0 [7], false⟩ [7] :=
    ⟨rfl, rfl, rfl, rfl, .new, rfl, fun _ => rfl⟩
  have hreads : Readable ⟨.ok, plainStreamed.outboundEncoding, defaultMaxMessageSize⟩
      plainStreamed.encode [7] := readable_plain rfl rfl (by decide)
  have hhead : twiceHandler.KeepsHead := fun _ _ => ⟨rfl, fun _ _ => rfl, rfl⟩
  have hreturns : ∀ grpc, twiceHandler.Returns grpc := fun grpc message body => ⟨_, _, .ready rfl⟩
  have hnegotiated : @negotiateResponseEncoding HeaderList _ deflateOnly
      arrivedStreamed.requestHeaders = .deflate := by decide +kernel
  obtain ⟨s, o, hwaits, hsent⟩ : ∃ (s : Call ScriptedBody SinkScript HeaderList (List UInt8)
      (List UInt8)) (o : Opening HeaderList), (Call.mk plainStreamed (.fresh epoch)).drive
        (.start .recv) [quietTick .sent] = (none, s, .opening .recv o) ∧
        plainStreamed.buildRequest ⟨empty, "/echo", "application/grpc+proto", .new, frame 0 [7],
          false⟩ epoch (frame 0 [7]) ∈ s.world.requests :=
    ⟨_, _, rfl, List.mem_singleton.mpr rfl⟩
  obtain ⟨⟨N, hends⟩, hanswers⟩ := server_stream_answered deflateOnly hasks (by decide) rfl hwaits
    hsent rfl rfl rfl hprepared rfl rfl (by decide)
    (fun _ _ h => by cases h) hreads .ok hhead hreturns epoch epoch
  refine ⟨prepared, hprepared, s, o, hwaits, N, fun sigs hwhole hlong => ?_⟩
  obtain ⟨reply, invoked, hout⟩ := hends sigs hwhole hlong
  obtain ⟨rfl, grpc, result, left, hgives, hstreams⟩ := hanswers sigs reply invoked hwhole hout
  have hresult : result = .ok ⟨[(false, .ok [7]), (true, .ok [7])]⟩ := by
    cases hgives with
    | ready poll =>
        cases poll
        rfl
    | pending poll => cases poll
  obtain ⟨body, hbody, hdelivered⟩ := hstreams _ hresult
  have hitems : ItemSource.items (⟨[(false, .ok [7]), (true, .ok [7])]⟩ :
      ItemScript (Except Status (List UInt8))) = [[7], [7]].map .ok ++ ending none [] := rfl
  have hframes : ∀ m ∈ [[7], [7]], ∃ bytes, encodeFrame .ok m
      (@negotiateResponseEncoding HeaderList _ deflateOnly arrivedStreamed.requestHeaders) =
        .ok bytes ∧ bytes.length ≤ prefixLen + defaultMaxMessageSize := by
    intro m hm
    obtain rfl : m = [7] := by simpa using hm
    rw [hnegotiated]
    exact ⟨frame 1 [0x63, 0x07, 0x00], rfl, by decide⟩
  have hraw : ∀ m ∈ [[7], [7]], ∀ raw : List UInt8, Except.ok (ε := Status) m = .ok raw →
      raw.length ≤ defaultMaxMessageSize := by
    intro m hm raw h
    cases h
    revert m
    decide
  have hlens : ∀ k, 0 < (fun _ : Nat => 3) k := fun _ => Nat.succ_pos 2
  obtain ⟨⟨n, hdrained⟩, htold⟩ := hdelivered [[7], [7]] none [] hitems hframes hraw
    (fun m _ raw h => h.symm) (fun _ h => by cases h) (fun _ => 3) hlens
  obtain ⟨last, hlast⟩ := hdrained n (Nat.le_refl n)
  obtain ⟨live, hlive, outcome, htells, _, N, hreceived⟩ := htold n last hlast
    (streamedTick reply.conn (drain n (fun _ => 3) body).1 last.body.trailers) _ rfl rfl rfl rfl rfl rfl
    (by
      cases hwaits
      rfl)
  exact ⟨reply, hout, body, last, n, hbody, hlast, live, hlive, outcome, htells, N, hreceived⟩

end TrilliumGrpc
