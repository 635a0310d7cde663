import TrilliumGrpc.EndToEnd.Unary
import TrilliumGrpc.Server.Taking

/-! # A client-streaming call on both sides

From the request stream of the awaited call, through one request and the function that takes
the messages one by one, back to what the caller gets.
-/

namespace TrilliumGrpc

open Async ByteSource HeaderMap Time

variable {σ ρ ρ' ω H M Req Resp : Type}

/-! ## The server's function -/

section

variable [HeaderMap H]

/-- Initial metadata at most is set. -/
def RequestOp.KeepsHead : RequestOp H → Prop
  | .editHeaders f =>
      ∀ headers : H, ∀ name ∈ headNames, values (f headers) name = values headers name
  | .editTrailers _ => False
  | _ => True

def TakerPoll.KeepHead (polls : List (TakerPoll H Resp)) : Prop :=
  ∀ p ∈ polls, ∀ op ∈ p.ops, op.KeepsHead

end

namespace Taking

variable [HeaderMap H] [AsyncRead ρ] [CodecCrates] {grpc left : GrpcServerConn H ρ}

omit [AsyncRead ρ] [CodecCrates] in
theorem release_keeps (s : Taking H ρ Req Resp) (h : grpc.Keeps left) :
    grpc.Keeps (s.release left) := by
  rw [release]
  cases s.stream with
  | none => exact h
  | some stream => exact ⟨h.status, h.headers, h.trailers⟩

theorem perform_keeps (decode : List UInt8 → Except Status Req) {op : RequestOp H}
    (hop : op.KeepsHead) {s : Taking H ρ Req Resp × GrpcServerConn H ρ} (h : grpc.Keeps s.2) :
    grpc.Keeps (perform decode s op).2 := by
  cases op with
  | recv =>
      rw [perform]
      split
      · exact h
      · exact h
  | drop => exact release_keeps s.1 h
  | editHeaders f =>
      exact ⟨h.status, fun name hname => (hop _ name hname).trans (h.headers name hname),
        h.trailers⟩
  | editTrailers f => exact hop.elim

/-- One poll of the function. -/
theorem poll_keeps (decode : List UInt8 → Except Status Req) (start : List (TakerPoll H Resp))
    {s : Taking H ρ Req Resp} (hpolls : TakerPoll.KeepHead s.polls) (h : grpc.Keeps left) :
    TakerPoll.KeepHead ((handler decode start).poll s left).2.1.polls ∧
      grpc.Keeps ((handler decode start).poll s left).2.2 := by
  simp only [handler]
  cases hs : s.polls with
  | nil => exact ⟨hpolls, h⟩
  | cons p later =>
      rw [hs] at hpolls
      have hlater := foldl_polls decode p.ops ({ s with polls := later }, left)
      have hkept := List.foldlRecOn p.ops (perform decode) (b := ({ s with polls := later }, left))
        (motive := fun t => grpc.Keeps t.2) h
        fun _ ht op hop => perform_keeps decode (hpolls p List.mem_cons_self op hop) ht
      dsimp only
      rcases hfold : p.ops.foldl (perform decode) ({ s with polls := later }, left) with ⟨t, after⟩
      rw [hfold] at hlater hkept
      have hrest : TakerPoll.KeepHead t.polls := by
        rw [show t.polls = later from hlater]
        exact fun q hq => hpolls q (List.mem_cons_of_mem _ hq)
      cases p.outcome with
      | pending => exact ⟨hrest, hkept⟩
      | ready result =>
          exact ⟨hrest, release_keeps t hkept⟩

theorem run_keeps (decode : List UInt8 → Except Status Req) {polls : List (TakerPoll H Resp)}
    (hpolls : TakerPoll.KeepHead polls) (c : Cancellation) (sigs : List Signals) :
    let f : Handler (Taking H ρ Req Resp) H ρ Unit Resp := handler decode polls
    grpc.Keeps (c.run f.resume false sigs ⟨f.call (), grpc⟩).2.grpc := by
  intro f
  have hpoll : ∀ s : Handling (Taking H ρ Req Resp) H ρ,
      TakerPoll.KeepHead s.future.polls ∧ grpc.Keeps s.grpc →
        TakerPoll.KeepHead (f.resume s).2.future.polls ∧ grpc.Keeps (f.resume s).2.grpc :=
    fun s hs => poll_keeps decode polls hs.1 hs.2
  exact (Cancellation.run_kept (c := c) hpoll false sigs ⟨hpolls, rfl, fun _ _ => rfl, rfl⟩).2

end Taking

/-! ## The request's frames -/

theorem exists_sent [CodecCrates] {cfg : ReadConfig M} {encode : M → Except Status (List UInt8)}
    {messages : List M} {fs : List (List UInt8)}
    (hfs : List.Forall₂ (fun m f => encodeFrame encode m cfg.encoding = .ok f) messages fs)
    (hreads : ∀ m ∈ messages, Readable cfg encode m) :
    ∃ sent : List (M × List UInt8), sent.map Prod.fst = messages ∧ wire sent = fs.flatten ∧
      ∀ x ∈ sent, Carries cfg encode x.1 x.2 := by
  induction hfs with
  | nil => exact ⟨[], rfl, rfl, List.forall_mem_nil _⟩
  | @cons m f messages fs hf _ ih =>
      obtain ⟨sent, hmessages, hwire, hcarries⟩ :=
        ih fun m hm => hreads m (List.mem_cons_of_mem _ hm)
      refine ⟨(m, f) :: sent, ?_, ?_, List.forall_mem_cons.mpr ⟨?_, hcarries⟩⟩
      · rw [List.map_cons, hmessages]
      · rw [wire_cons, hwire, List.flatten_cons]
      · exact hreads m List.mem_cons_self f hf

/-! ## The call -/

/-- A client-streaming call before its first poll: its requests are still in their stream, it
has no deadline, and the client's default headers say nothing of a timeout or of another
encoding. -/
structure UnaryConn.Streams [HeaderMap H] (conn : UnaryConn ρ ω H Req Resp σ) (p : Pending H)
    (requests : σ) : Prop where
  streaming : conn.requests = some requests
  inner : conn.engine.inner = .pending p
  unwritten : p.body = []
  fresh : p.sendClosed = false
  mode : conn.engine.fullDuplex = false
  deadline : conn.engine.deadline = none
  metadata : p.requestMetadata.Built
  timeout : values p.defaultHeaders "grpc-timeout" = []
  encoding : conn.engine.outboundEncoding = .identity →
    values p.defaultHeaders "grpc-encoding" = []

/-- A client-streaming call, and any function that takes its messages one by one. Unless it
drops a `recv` part-way, it gets a front of what the client's stream gave, in order, and the
end only behind all of it; if one of its polls is ready and nothing cancels it, it ends; and
what it comes to, cancelled or not, the awaited call gives: the message, or a failure with the
same code, message and metadata. The two sides may be built with different codecs. -/
theorem client_stream_answered [HeaderMap H] [ItemSource σ Req] [EndingSource ρ H] [AsyncWrite ω]
    [ByteSource ρ'] [CodecCrates] [LawfulCrates] [Base64] (server : Features) [Features]
    -- the client's call, up to its request
    {conn : UnaryConn ρ ω H Req Resp σ} {p : Pending H} {requests : σ}
    (hstreams : conn.Streams p requests) (hcap : conn.engine.maxMessageSize < 2 ^ 32)
    {w : World H} (hw : w.requests = []) (before : List (Tick ρ ω H)) {future : OpFuture H Req}
    (hstage : ((UnaryAwait.start conn w).run before).stage = .closing future) {sent : Request H}
    (hsent : sent ∈ ((UnaryAwait.start conn w).run before).call.world.requests)
    -- the server's, whose response has no headers of the framework's yet
    {arrived prepared : Conn H ρ'} {suffix : String}
    (hheaders : arrived.requestHeaders = sent.headers)
    (hbytes : rest arrived.requestBody = sent.body) (hfault : fault arrived.requestBody = none)
    (hprepared : @prepareGrpcConn H ρ' _ server arrived suffix = .ok prepared)
    (hnoStatus : values arrived.responseHeaders "grpc-status" = [])
    (hnoEncoding : values arrived.responseHeaders "grpc-encoding" = [])
    (hknown : conn.engine.outboundEncoding ∈ @Encoding.all server)
    {decode : List UInt8 → Except Status Req}
    (hreads : ∀ m ∈ ItemSource.items requests,
      Readable ⟨decode, conn.engine.outboundEncoding, defaultMaxMessageSize⟩ conn.engine.encode m)
    (encode : Resp → Except Status (List UInt8)) {polls : List (TakerPoll H Resp)}
    (hpolls : TakerPoll.KeepHead polls) (now now' : Instant) (sigs : List Signals) :
    let u := (UnaryAwait.start conn w).run before
    let e := @negotiateResponseEncoding H _ server arrived.requestHeaders
    let f : Handler (Taking H ρ' Req Resp) H ρ' Unit Resp := Taking.handler decode polls
    let grpc : GrpcServerConn H ρ' := ⟨prepared, empty, conn.engine.outboundEncoding, none⟩
    let race := Cancellation.run ⟨none⟩ f.resume false sigs ⟨f.call (), grpc⟩
    let reply := fun result =>
      finishUnary encode race.2.grpc.conn result e race.2.grpc.responseTrailers
    @clientStreamingImpl _ _ _ _ _ server _ _ encode f prepared now now' sigs =
        .ok (race.1.map reply) ∧
      (race.2.future.torn = false →
        Received (ItemSource.items requests) race.2.future.got) ∧
      ((∃ p ∈ polls, p.outcome ≠ .pending) → polls.length ≤ sigs.length →
        Cancellation.Uncancelled ⟨none⟩ false sigs → race.1.isSome) ∧
      ∀ result, race.1 = some result → Conveyable (conn.engine.readConfig e) encode result →
        ∀ (tick : Tick ρ ω H) (r : Response ρ ω H), tick.net = .response r →
          r.status = (reply result).conn.status →
          r.headers = (reply result).conn.responseHeaders →
          rest r.reader = rest (reply result).body → fault r.reader = none →
          EndingSource.behind r.reader = (reply result).body.trailers →
          interrupt u.call.conn.deadline true (u.call.world.observe tick.opening)
            tick.opening.timer = none →
          (∃ N, ∀ ticks, N ≤ ticks.length →
            ∃ awaited, ((u.step tick).run ticks).output = some (.ok awaited)) ∧
          ∀ ticks awaited, ((u.step tick).run ticks).output = some (.ok awaited) →
            (u.step tick).Uninterrupted ticks → Conveyed encode e result awaited.intoMessage := by
  intro u e f grpc race reply
  -- the request, and its frames
  obtain ⟨⟨o, rfl⟩, hconn, time, body, ⟨fs, hfs, rfl⟩, rfl⟩ :=
    UnaryConn.requested_of_closing hstreams.inner hstreams.fresh hstreams.mode hw before hstage
      hsent
  rw [hstreams.streaming] at hfs
  rw [hstreams.unwritten, List.nil_append] at hheaders hbytes
  obtain ⟨frames, hmessages, hwire, hcarries⟩ := exists_sent hfs hreads
  -- the call at the server
  have hcall := startCall_of_request server hstreams.metadata hstreams.deadline hstreams.timeout
    hstreams.encoding hheaders hprepared hknown now now'
  have hbody := @prepareGrpcConn_requestBody _ _ _ server _ _ _ hprepared
  have haccept := getStr_acceptEncoding conn.engine hstreams.metadata time fs.flatten
  rw [← hheaders] at haccept
  have hend : fault grpc.conn.requestBody = none := by rw [hbody, hfault]
  have hrest : rest grpc.conn.requestBody = wire frames := by
    rw [hbody, hbytes, hwire]
    rfl
  refine ⟨?_, fun hwhole => ?_, fun hready hlong hwhole => ?_, fun result _ => ?_⟩
  · unfold clientStreamingImpl
    rw [hcall]
    rfl
  · have hdefault : (⟨decode, conn.engine.outboundEncoding, defaultMaxMessageSize⟩ :
        ReadConfig Req).maxMessageSize = defaultMaxMessageSize := rfl
    have hreceived :=
      Taking.run_received hdefault hcarries rfl hend hrest polls ⟨none⟩ sigs hwhole
    rw [hmessages] at hreceived
    exact hreceived
  · exact Taking.run_ends decode polls hwhole hready hlong
  · -- the answer at the client
    exact answer_conveyed server hstreams.mode hcap hstage hconn hprepared haccept hnoStatus
      hnoEncoding ⟨rfl, rfl, rfl⟩ (Taking.run_keeps decode hpolls ⟨none⟩ sigs)

/-! ### One call -/

/-- The call of `plainStreaming` as it comes in at the server, in pieces. -/
def arrivedStreaming : Conn HeaderList Script :=
  letI := standardNoPad
  letI := allFeatures
  { requestHeaders := (plainStreaming.engine.buildRequest
      ⟨empty, "/echo", "application/grpc+proto", .new, [], false⟩ epoch []).headers
    responseHeaders := empty
    status := none
    requestBody := ⟨frame 0 [7], [.pending, .chunk 3], none⟩
    hasRuntime := true }

def readingPolls : List (TakerPoll HeaderList (List UInt8)) :=
  [⟨[.recv], .pending⟩, ⟨[.recv, .recv], .ready (.ok [8])⟩]

def twoPolls : List Signals := List.replicate 2 ⟨epoch, false, false, false⟩

theorem streamed_byte_answered :
    letI := tableCrates
    letI := standardNoPad
    letI := allFeatures
    let u := (UnaryAwait.start plainStreaming (.fresh epoch)).run streamingTicks
    let f : Handler (Taking HeaderList Script (List UInt8) (List UInt8)) HeaderList Script Unit
      (List UInt8) := Taking.handler .ok readingPolls
    ∃ prepared, @prepareGrpcConn _ _ _ deflateOnly arrivedStreaming "proto" = .ok prepared ∧
      Received [[7]] (Cancellation.run ⟨none⟩ f.resume false twoPolls
        ⟨f.call (), ⟨prepared, empty, .identity, none⟩⟩).2.future.got ∧
      ∃ reply, @clientStreamingImpl _ _ _ _ _ deflateOnly _ _ .ok f prepared epoch epoch twoPolls =
          .ok (some reply) ∧
        ∃ N, ∀ ticks, N ≤ ticks.length → ∃ awaited,
          ((u.step (answeredTick reply)).run ticks).output = some (.ok awaited) ∧
          ((u.step (answeredTick reply)).Uninterrupted ticks → awaited.intoMessage = .ok [8]) := by
  let _ := tableCrates
  let _ := standardNoPad
  let _ := allFeatures
  have _ := tableCrates_lawful
  intro u f
  obtain ⟨prepared, hprepared⟩ : ∃ prepared,
      @prepareGrpcConn _ _ _ deflateOnly arrivedStreaming "proto" = .ok prepared := ⟨_, rfl⟩
  have hstreams : plainStreaming.Streams
      ⟨empty, "/echo", "application/grpc+proto", .new, [], false⟩ ⟨[(false, [7])]⟩ :=
    ⟨rfl, rfl, rfl, rfl, rfl, rfl, .new, rfl, fun _ => rfl⟩
  have hreads : ∀ m ∈ ItemSource.items (⟨[(false, [7])]⟩ : ItemScript (List UInt8)),
      Readable ⟨.ok, plainStreaming.engine.outboundEncoding, defaultMaxMessageSize⟩
        plainStreaming.engine.encode m := by
    intro m hm
    rw [show ItemSource.items (⟨[(false, [7])]⟩ : ItemScript (List UInt8)) = [[7]] from rfl] at hm
    rw [List.mem_singleton.mp hm]
    exact readable_plain rfl rfl (by decide)
  have hpolls : TakerPoll.KeepHead readingPolls := by
    simp [TakerPoll.KeepHead, readingPolls, RequestOp.KeepsHead]
  have hnegotiated : @negotiateResponseEncoding HeaderList _ deflateOnly
      arrivedStreaming.requestHeaders = .deflate := by decide +kernel
  obtain ⟨hserve, hreceived, _, htold⟩ := client_stream_answered deflateOnly hstreams (by decide)
    (w := .fresh epoch) rfl streamingTicks rfl (List.mem_singleton.mpr rfl) rfl rfl rfl hprepared
    rfl rfl (by decide) hreads .ok hpolls epoch epoch twoPolls
  obtain ⟨hwhole, hresult⟩ : (Cancellation.run ⟨none⟩ f.resume false twoPolls
        ⟨f.call (), ⟨prepared, empty, .identity, none⟩⟩).2.future.torn = false ∧
      (Cancellation.run ⟨none⟩ f.resume false twoPolls
        ⟨f.call (), ⟨prepared, empty, .identity, none⟩⟩).1 = some (.ok [8]) := by
    cases hprepared
    decide +kernel
  have hresult' := hresult
  change (Cancellation.run ⟨none⟩ f.resume false twoPolls ⟨f.call (), ⟨prepared, empty,
    plainStreaming.engine.outboundEncoding, none⟩⟩).1 = _ at hresult'
  rw [hresult'] at hserve
  have hconveyed := htold (.ok [8]) hresult
    (conveyable_deflated rfl hnegotiated rfl rfl (by decide) (by decide))
  obtain ⟨reply, hreply, trailers, htrailers⟩ :
      ∃ reply : Reply HeaderList Script (OneShotBody HeaderList),
        @clientStreamingImpl _ _ _ _ _ deflateOnly _ _ .ok f prepared epoch epoch twoPolls =
          .ok (some reply) ∧ ∃ trailers, reply.body.trailers = some trailers :=
    ⟨_, hserve, finishUnary_trailers _ _ _ _⟩
  have hsame := Option.some.inj (Except.ok.inj (hserve.symm.trans hreply))
  dsimp only at hsame hconveyed
  rw [hsame, hnegotiated] at hconveyed
  obtain ⟨⟨N, hends⟩, hconveyed⟩ :=
    hconveyed (answeredTick reply) _ rfl rfl rfl rfl rfl (behind_answeredBody htrailers) rfl
  refine ⟨prepared, hprepared, hreceived hwhole, reply, hreply, N, fun ticks hlong => ?_⟩
  obtain ⟨awaited, houtput⟩ := hends ticks hlong
  exact ⟨awaited, houtput, hconveyed ticks awaited houtput⟩

end TrilliumGrpc
