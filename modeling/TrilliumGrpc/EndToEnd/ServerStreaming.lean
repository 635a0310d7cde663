import TrilliumGrpc.Client.Receiving
import TrilliumGrpc.EndToEnd.Head
import TrilliumGrpc.Server.Body

/-! # A server-streaming response from end to end

The stream of a handler, framed and read out of its body, against what a client's
`recv` returns from the same head, bytes and trailers.
-/

namespace TrilliumGrpc

open Async ByteSource HeaderMap Time

section

variable {σ ρ ρ' ω H Req Resp : Type} [HeaderMap H] [Base64]

/-- How a handler's stream ends: with a status, behind which it is not asked again,
or cleanly. -/
def ending (failure : Option Status) (later : List (Except Status Resp)) :
    List (Except Status Resp) :=
  match failure with
  | none => []
  | some status => .error status :: later

/-- The result of the `recv` behind the last message tells how the stream ended. -/
def Tells (failure : Option Status) : Except Status (Option Resp) → Prop
  | .ok message => message = none ∧ failure = none
  | .error status => ∃ sent, failure = some sent ∧ status.Same sent

theorem tells_closing [CodecCrates] {encode : Resp → Except Status (List UInt8)}
    {encoding : Encoding} {failure : Option Status} (later : List (Except Status Resp))
    (hfailure : ∀ status, failure = some status → status.code ≠ .ok ∧ status.metadata.Built) :
    Tells failure (closing ((framed encode encoding (ending failure later)).2.writeInto (empty : H)) :
      Except Status (Option Resp)) := by
  cases failure with
  | none =>
      rw [closing, ending, framed, Status.fromTrailers_ok]
      exact ⟨rfl, rfl⟩
  | some status =>
      obtain ⟨hcode, hbuilt⟩ := hfailure status rfl
      obtain ⟨t, hread, hsame⟩ :=
        Status.fromTrailers_writeInto (H := H) (s := status) hbuilt.valid hcode
      rw [closing, ending, framed, hread]
      exact ⟨status, rfl, hsame⟩

omit [Base64] in
theorem framed_ending [CodecCrates] (encode : Resp → Except Status (List UInt8))
    (encoding : Encoding) (failure : Option Status) (later : List (Except Status Resp)) :
    (framed encode encoding (ending failure later)).1 = [] := by
  cases failure <;> rfl

omit [Base64] in
theorem goLive_at [TrailedSource ρ H] [Features] {codec : Codec Req Resp} {defaultHeaders : H}
    {path : String} {metadata : Metadata} {now : Instant} {c : GrpcClientConn ρ ω H Req Resp}
    (hnew : GrpcClientConn.new codec defaultHeaders path metadata none false now = .ok c)
    (r : Response ρ ω H) (responseHeaders : H) (encoding : Encoding) {w : World H}
    (hw : w.cancelled = false) :
    Call.At ⟨GrpcClientConn.decodeResponse codec.decode, encoding, defaultMaxMessageSize⟩
      (r.reader, .new) (⟨c.goLive r ⟨responseHeaders, encoding, none⟩, w⟩ :
        Call ρ ω H Req Resp) := by
  cases hnew
  exact ⟨⟨responseHeaders, rfl⟩, rfl, rfl, hw⟩

/-- A body that came to its end, read by a call that is live on its bytes and trailers: the
messages in order, once each, then the outcome, then nothing more. -/
theorem stream_delivered [ItemSource σ (Except Status Resp)] [TrailedSource ρ H] [AsyncWrite ω]
    [CodecCrates] [LawfulCrates] [Features] {cfg : ReadConfig Resp}
    (hcap : cfg.maxMessageSize < 2 ^ 32) {encode : Resp → Except Status (List UInt8)}
    {messages : List Resp} (hsent : ∀ m ∈ messages, ∃ bytes,
      encodeFrame encode m cfg.encoding = .ok bytes ∧ bytes.length ≤ prefixLen + cfg.maxMessageSize)
    (hraw : ∀ m ∈ messages, ∀ raw, encode m = .ok raw → raw.length ≤ cfg.maxMessageSize)
    (hread : ∀ m ∈ messages, ∀ raw, encode m = .ok raw → cfg.decode raw = .ok m)
    {failure : Option Status}
    (hfailure : ∀ status, failure = some status → status.code ≠ .ok ∧ status.metadata.Built)
    {stream : σ} {later : List (Except Status Resp)}
    (hstream : ItemSource.items stream = messages.map .ok ++ ending failure later)
    {cancel : Bool} {lens : Nat → Nat} (hlens : ∀ k, 0 < lens k) {n : Nat} {last : Uncut σ H Resp}
    (hlast : (drain n lens (⟨.new stream encode cfg.encoding empty cancel⟩ : Uncut σ H Resp)).2 =
      some last) {reader : ρ}
    (hbytes : rest reader = (drain n lens
      (⟨.new stream encode cfg.encoding empty cancel⟩ : Uncut σ H Resp)).1)
    (hfault : fault reader = none) (hcoming : TrailedSource.coming reader = last.body.trailers)
    {s : Call ρ ω H Req Resp} (hs : s.At cfg (reader, .new)) :
    ∃ outcome, Tells failure outcome ∧
      (∀ ticks, Uncancelled ticks → s.received ticks <+: replies messages outcome ticks.length) ∧
      ∃ N, ∀ ticks, Uncancelled ticks → (∀ polls ∈ ticks, N ≤ polls.length) →
        s.received ticks = (replies messages outcome ticks.length).take ticks.length := by
  -- the frame of every message is one that the client reads back
  obtain ⟨sent, hfst, hcarries⟩ : ∃ sent : List (Resp × List UInt8),
      sent.map Prod.fst = messages ∧ ∀ x ∈ sent, Carries cfg encode x.1 x.2 :=
    exists_carried hsent hraw hread
  -- so the body and its trailers are what the client has to come
  have hitems : ItemSource.items stream = sent.map (fun x => .ok x.1) ++ ending failure later := by
    rw [hstream, ← hfst, List.map_map]
    rfl
  have hframed := framed_append (fun x hx => (hcarries x hx).written) (ending failure later)
  obtain ⟨hall, htrailers⟩ :=
    Uncut.drain_new stream encode cfg.encoding (empty : H) cancel hlens n hlast
  rw [hitems, hframed] at hall htrailers
  rw [framed_ending, List.append_nil] at hall
  have hv : Coming cfg sent last.body.trailers (reader, .new) :=
    ⟨.new hfault (hbytes.trans hall), by simp [ReadState.new], hcoming⟩
  refine ⟨closing last.body.trailers, ?_, ?_, ?_⟩
  · rw [htrailers]
    exact tells_closing later hfailure
  · intro ticks hquiet
    have hbegins := hs.received_prefix hcap hcarries hv ticks hquiet
    rwa [hfst] at hbegins
  · have hreturns : ReturnsAll ω Req _ sent last.body.trailers (reader, .new) :=
      hv.returnsAll hcap hcarries
    obtain ⟨N, hN⟩ := hreturns
    rw [hfst] at hN
    exact ⟨N, hN _ hs⟩

/-- Whatever the messages and the outcome, the encodings the two sides know and the
sizes in which the body is read and arrives: the body comes to its end, and from its
bytes and trailers behind the head that was prepared the client returns the messages
in order, once each, then the outcome, then nothing more. -/
theorem responses_delivered [ItemSource σ (Except Status Resp)] [TrailedSource ρ H] [AsyncWrite ω]
    [CodecCrates] [LawfulCrates] (server : Features) [Features]
    -- the client's call
    {codec : Codec Req Resp} {defaultHeaders : H} {path : String} {metadata : Metadata}
    {now : Instant} {c : GrpcClientConn ρ ω H Req Resp}
    (hnew : GrpcClientConn.new codec defaultHeaders path metadata none false now = .ok c)
    {p : Pending H} (hbuilt : p.requestMetadata.Built) {w : World H} (hw : w.cancelled = false)
    -- the server's, whose response has no headers of the framework's yet
    {conn prepared : Conn H ρ'} {suffix : String}
    (haccept : getStr conn.requestHeaders "grpc-accept-encoding" =
      getStr (c.buildRequest p w.now p.body).headers "grpc-accept-encoding")
    (hprepared : @prepareGrpcConn H ρ' _ server conn suffix = .ok prepared)
    (hnoStatus : values conn.responseHeaders "grpc-status" = [])
    (hnoEncoding : values conn.responseHeaders "grpc-encoding" = [])
    -- the messages and the outcome
    (encode : Resp → Except Status (List UInt8)) (messages : List Resp)
    (hsent : ∀ m ∈ messages, ∃ bytes,
      encodeFrame encode m (@negotiateResponseEncoding H _ server conn.requestHeaders) = .ok bytes ∧
        bytes.length ≤ prefixLen + defaultMaxMessageSize)
    (hraw : ∀ m ∈ messages, ∀ raw, encode m = .ok raw → raw.length ≤ defaultMaxMessageSize)
    (hdecode : ∀ m ∈ messages, ∀ raw, encode m = .ok raw → codec.decode raw = .ok m)
    (failure : Option Status)
    (hfailure : ∀ status, failure = some status → status.code ≠ .ok ∧ status.metadata.Built)
    {stream : σ} {later : List (Except Status Resp)}
    (hstream : ItemSource.items stream = messages.map .ok ++ ending failure later)
    (cancel : Bool) {lens : Nat → Nat} (hlens : ∀ k, 0 < lens k) :
    let body : Uncut σ H Resp := ⟨.new stream encode
      (@negotiateResponseEncoding H _ server conn.requestHeaders) empty cancel⟩
    (∃ N, ∀ n ≥ N, ∃ last, (drain n lens body).2 = some last) ∧
    ∀ n last, (drain n lens body).2 = some last → ∀ r : Response ρ ω H,
      r.status = prepared.status → r.headers = prepared.responseHeaders →
      rest r.reader = (drain n lens body).1 → fault r.reader = none →
      TrailedSource.coming r.reader = last.body.trailers →
      ∃ head, processHead r = .ok head ∧ ∃ outcome, Tells failure outcome ∧
        (∀ ticks, Uncancelled ticks →
          (Call.mk (c.goLive r head) w).received ticks <+: replies messages outcome ticks.length) ∧
        ∃ N, ∀ ticks, Uncancelled ticks → (∀ polls ∈ ticks, N ≤ polls.length) →
          (Call.mk (c.goLive r head) w).received ticks =
            (replies messages outcome ticks.length).take ticks.length := by
  dsimp only
  refine ⟨drain_ends hlens rfl, fun n last hlast r hstatus hheaders hbytes hfault hcoming => ?_⟩
  rw [getStr_acceptEncoding c hbuilt] at haccept
  have hhead := processHead_prepared (ω := ω) server hprepared haccept hnoStatus hnoEncoding
    hstatus hheaders
  have hread : ∀ m ∈ messages, ∀ raw, encode m = .ok raw →
      GrpcClientConn.decodeResponse codec.decode raw = .ok m := by
    intro m hm raw h
    simp only [GrpcClientConn.decodeResponse, hdecode m hm raw h]
    rfl
  have hs := goLive_at hnew r prepared.responseHeaders
    (@negotiateResponseEncoding H _ server conn.requestHeaders) hw
  have hcap : defaultMaxMessageSize < 2 ^ 32 := by decide
  exact ⟨_, hhead, stream_delivered hcap hsent hraw hread hfailure hstream hlens hlast hbytes hfault
    hcoming hs⟩

end

/-! ## A stream that fails -/

def lost : Status :=
  ⟨.notFound, "gone: 100%", ⟨[("x-key", .ascii "7"), ("x-key-bin", .binary [255])]⟩⟩

@[reducible] def deflateOnly : Features :=
  { plainTables with gzip := false, deflate := true, zstd := false }

/-- A request of `plainConn`, as it arrives. -/
def echoConn : Conn HeaderList Unit :=
  letI := standardNoPad
  letI := allFeatures
  { requestHeaders := ((plainConn false).buildRequest
      ⟨empty, "/echo", "application/grpc+proto", .new, [], false⟩ epoch []).headers
    responseHeaders := empty
    status := none
    requestBody := ()
    hasRuntime := true }

/-- Two messages, the second not ready at once, and then the failure. -/
def failingStream : ItemScript (Except Status (List UInt8)) :=
  ⟨[(false, .ok [7]), (true, .ok [8, 9]), (false, .error lost)]⟩

def deflatedFrames : List UInt8 :=
  [1, 0, 0, 0, 3, 0x63, 0x07, 0x00, 1, 0, 0, 0, 4, 0xe3, 0xe0, 0x04, 0x00]

def lostResponse (headers : HeaderList) : Response ScriptedBody SinkScript HeaderList :=
  letI := standardNoPad
  { status := some 200
    headers
    reader := ⟨⟨deflatedFrames, [.chunk 3, .pending, .chunk 0], none⟩,
      lost.writeInto empty⟩
    writer := ⟨[]⟩ }

theorem failing_stream_delivered :
    letI := tableCrates
    letI := standardNoPad
    letI := allFeatures
    ∃ headers head, processHead (lostResponse headers) = .ok head ∧
      ∃ outcome, Tells (some lost) outcome ∧ ∃ N, ∀ ticks, Uncancelled ticks →
        (∀ polls ∈ ticks, N ≤ polls.length) →
        (Call.mk ((plainConn false).goLive (lostResponse headers) head) (.fresh epoch)).received
          ticks = (replies [[7], [8, 9]] outcome ticks.length).take ticks.length := by
  let _ := tableCrates
  let _ := standardNoPad
  let _ := allFeatures
  have _ := tableCrates_lawful
  obtain ⟨prepared, hprepared⟩ : ∃ prepared,
      @prepareGrpcConn _ _ _ deflateOnly echoConn "proto" = .ok prepared := ⟨_, rfl⟩
  have hnegotiated : @negotiateResponseEncoding HeaderList _ deflateOnly echoConn.requestHeaders =
      .deflate := by decide +kernel
  have hraw : ∀ m ∈ [[7], [8, 9]], ∀ raw : List UInt8, Except.ok (ε := Status) m = .ok raw →
      raw.length ≤ defaultMaxMessageSize := by
    intro m hm raw h
    cases h
    revert m
    decide
  have hsent : ∀ m ∈ [[7], [8, 9]], ∃ bytes, encodeFrame .ok m
      (@negotiateResponseEncoding HeaderList _ deflateOnly echoConn.requestHeaders) = .ok bytes ∧
        bytes.length ≤ prefixLen + defaultMaxMessageSize := by
    rw [hnegotiated, List.forall_mem_cons, List.forall_mem_singleton]
    exact ⟨⟨frame 1 [0x63, 0x07, 0x00], rfl, by decide⟩,
      ⟨frame 1 [0xe3, 0xe0, 0x04, 0x00], rfl, by decide⟩⟩
  have hascii : Metadata.new.insertAscii "x-key" "7" = .ok ⟨[("x-key", .ascii "7")]⟩ := rfl
  have hbinary : (⟨[("x-key", .ascii "7")]⟩ : Metadata).insertBinary "x-key-bin" [255] =
      .ok lost.metadata := rfl
  have hfailure : ∀ status, some lost = some status → status.code ≠ .ok ∧ status.metadata.Built := by
    intro status h
    cases h
    exact ⟨by decide, .binary (.ascii .new hascii) hbinary⟩
  have hnew : GrpcClientConn.new ⟨"proto", .ok, .ok⟩ empty "/echo" .new none false epoch =
      .ok (plainConn false) := rfl
  have hstream : ItemSource.items failingStream =
      [[7], [8, 9]].map .ok ++ ending (some lost) [] := rfl
  have hlens : ∀ k, 0 < (fun _ : Nat => 3) k := fun _ => Nat.succ_pos 2
  obtain ⟨_, hall⟩ := responses_delivered deflateOnly hnew .new
    (p := ⟨empty, "/echo", "application/grpc+proto", .new, [], false⟩) (w := .fresh epoch) rfl rfl
    hprepared rfl rfl .ok [[7], [8, 9]] hsent hraw (fun m _ raw h => h.symm) (some lost) hfailure
    hstream true hlens
  obtain ⟨head, hhead, outcome, htells, _, hreturns⟩ := hall 10 _ rfl
    (lostResponse prepared.responseHeaders)
    (@prepareGrpcConn_ok _ _ _ deflateOnly _ _ _ hprepared).1.symm rfl rfl rfl rfl
  exact ⟨_, head, hhead, outcome, htells, hreturns⟩

end TrilliumGrpc
