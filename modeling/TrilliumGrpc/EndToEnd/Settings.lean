import TrilliumGrpc.Client.ServiceClient
import TrilliumGrpc.EndToEnd.RequestHead

/-! # The settings of a service client

From the setters of a service client to what its calls put on the wire and a server reads
from it.
-/

namespace TrilliumGrpc

open Async HeaderMap Time

variable {ρ ω H Req Resp : Type}

/-- A way to make a call: the request of the first two is buffered. -/
inductive Opener (Req : Type) where
  | unary (request : Req)
  | serverStreaming (request : Req)
  | clientStreaming
  | bidi

namespace Opener

section

variable [HeaderMap H] [Features] [CodecCrates]

/-- The engine of the call that `unary`, `server_streaming`, `client_streaming` or `bidi`
makes. -/
def engine (codec : Codec Req Resp) (defaultHeaders : H) (path : String) (now : Instant) :
    Opener Req → MayPanic (GrpcClientConn ρ ω H Req Resp)
  | unary request =>
      let call : MayPanic (UnaryConn ρ ω H Req Resp Unit) :=
        UnaryConn.unary codec defaultHeaders path request now
      call.map UnaryConn.engine
  | serverStreaming request =>
      (StreamingConn.serverStreaming codec defaultHeaders path request now).bind
        StreamingConn.engineRef
  | clientStreaming =>
      let call : MayPanic (UnaryConn ρ ω H Req Resp Unit) :=
        UnaryConn.clientStreaming codec defaultHeaders path () now
      call.map UnaryConn.engine
  | bidi => (StreamingConn.bidi codec defaultHeaders path now).bind StreamingConn.engineRef

def fullDuplex : Opener Req → Bool
  | bidi => true
  | _ => false

def buffer (c : GrpcClientConn ρ ω H Req Resp) : Opener Req → GrpcClientConn ρ ω H Req Resp
  | unary request => c.bufferRequest request
  | serverStreaming request => c.bufferRequest request
  | _ => c

/-- All four make their engine the same way. -/
theorem engine_eq (codec : Codec Req Resp) (defaultHeaders : H) (path : String) (now : Instant)
    (opener : Opener Req) :
    (opener.engine codec defaultHeaders path now : MayPanic (GrpcClientConn ρ ω H Req Resp)) =
      (GrpcClientConn.new codec defaultHeaders path .new (defaultTimeout defaultHeaders)
        opener.fullDuplex now).map opener.buffer := by
  cases opener with
  | unary request =>
      simp only [engine, UnaryConn.unary, fullDuplex]
      cases (GrpcClientConn.new codec defaultHeaders path .new (defaultTimeout defaultHeaders)
        false now : MayPanic (GrpcClientConn ρ ω H Req Resp)) <;> rfl
  | serverStreaming request =>
      simp only [engine, StreamingConn.serverStreaming, fullDuplex]
      cases (GrpcClientConn.new codec defaultHeaders path .new (defaultTimeout defaultHeaders)
        false now : MayPanic (GrpcClientConn ρ ω H Req Resp)) <;> rfl
  | clientStreaming =>
      simp only [engine, UnaryConn.clientStreaming, fullDuplex]
      cases (GrpcClientConn.new codec defaultHeaders path .new (defaultTimeout defaultHeaders)
        false now : MayPanic (GrpcClientConn ρ ω H Req Resp)) <;> rfl
  | bidi =>
      simp only [engine, StreamingConn.bidi, fullDuplex]
      cases (GrpcClientConn.new codec defaultHeaders path .new (defaultTimeout defaultHeaders)
        true now : MayPanic (GrpcClientConn ρ ω H Req Resp)) <;> rfl

end

end Opener

/-! ## Calls that are made with settings -/

/-- A call as its service client's settings make it: nothing of it on the wire yet. -/
structure OpenedWith (defaultHeaders : H) (s : Settings) (now : Instant)
    (c : GrpcClientConn ρ ω H Req Resp) : Prop where
  pending : ∃ p, c.inner = .pending p ∧ p.defaultHeaders = defaultHeaders ∧
    p.requestMetadata = .new
  encoding : c.outboundEncoding = s.compression
  deadline : c.deadline.map Instant.toNanos =
    s.timeoutNanos.map fun (d : Nat) => now.toNanos + d

section

variable [HeaderMap H] [CodecCrates]

omit [HeaderMap H] in
theorem OpenedWith.buffer {defaultHeaders : H} {s : Settings} {now : Instant}
    {c : GrpcClientConn ρ ω H Req Resp} (h : OpenedWith defaultHeaders s now c)
    (opener : Opener Req) : OpenedWith defaultHeaders s now (opener.buffer c) := by
  have hbuffer : ∀ request, OpenedWith defaultHeaders s now (c.bufferRequest request) := by
    intro request
    obtain ⟨⟨p, hinner, hdefaults, hmetadata⟩, hencoding, hdeadline⟩ := h
    rw [GrpcClientConn.bufferRequest]
    cases hframe : c.encodeMessage request with
    | error status => exact ⟨⟨p, hinner, hdefaults, hmetadata⟩, hencoding, hdeadline⟩
    | ok frame =>
        simp only [hinner]
        exact ⟨⟨_, rfl, hdefaults, hmetadata⟩, hencoding, hdeadline⟩
  cases opener with
  | unary request => exact hbuffer request
  | serverStreaming request => exact hbuffer request
  | clientStreaming => exact h
  | bidi => exact h

variable [Features]

omit [CodecCrates] in
theorem OpenedWith.of_new {defaultHeaders : H} {s : Settings} (h : Holds defaultHeaders s)
    {codec : Codec Req Resp} {path : String} {fullDuplex : Bool} {now : Instant}
    {c : GrpcClientConn ρ ω H Req Resp}
    (hnew : GrpcClientConn.new codec defaultHeaders path .new (defaultTimeout defaultHeaders)
      fullDuplex now = .ok c) : OpenedWith defaultHeaders s now c := by
  have hencoding := h.outboundCompression
  have htimeout := h.defaultTimeout
  rw [outboundCompression] at hencoding
  unfold GrpcClientConn.new at hnew
  rw [hencoding] at hnew
  cases hd : defaultTimeout defaultHeaders with
  | none =>
      rw [hd, Option.map_none] at htimeout
      rw [hd] at hnew
      cases hnew
      exact ⟨⟨_, rfl, rfl, rfl⟩, rfl, by rw [← htimeout]; rfl⟩
  | some d =>
      rw [hd, Option.map_some] at htimeout
      rw [hd] at hnew
      cases hadd : now.add d with
      | error panic =>
          simp only [hadd] at hnew
          cases hnew
      | ok sum =>
          simp only [hadd] at hnew
          cases hnew
          refine ⟨⟨_, rfl, rfl, rfl⟩, rfl, ?_⟩
          rw [← htimeout, Option.map_some, Option.map_some, Instant.add_ok hadd]

omit [CodecCrates] in
theorem Holds.exists_new {defaultHeaders : H} {s : Settings} (h : Holds defaultHeaders s)
    (codec : Codec Req Resp) (path : String) (fullDuplex : Bool) {now : Instant}
    (hnow : now.secs < 2 ^ 62) : ∃ c : GrpcClientConn ρ ω H Req Resp,
      GrpcClientConn.new codec defaultHeaders path .new (TrilliumGrpc.defaultTimeout defaultHeaders)
        fullDuplex now = .ok c := by
  have htimeout := h.defaultTimeout
  cases hd : TrilliumGrpc.defaultTimeout defaultHeaders with
  | none => exact ⟨_, rfl⟩
  | some d =>
      refine (new_with_timeout codec defaultHeaders path .new d fullDuplex now).mpr ?_
      have hlimit : d.asNanos ≤ longestTimeout := by
        rw [hd, Settings.timeoutNanos, Option.map_some] at htimeout
        obtain ⟨set, _, hround⟩ := Option.map_eq_some_iff.mp htimeout.symm
        exact hround ▸ round_le_longest _
      have hnanos := now.nanos_lt
      have hlongest : longestTimeout = 359999996400000000000 := by decide
      rw [Instant.exists_add_iff, Instant.toNanos]
      omega

theorem Holds.exists_engine {defaultHeaders : H} {s : Settings} (h : Holds defaultHeaders s)
    (codec : Codec Req Resp) (path : String) {now : Instant} (hnow : now.secs < 2 ^ 62)
    (opener : Opener Req) : ∃ c : GrpcClientConn ρ ω H Req Resp,
      opener.engine codec defaultHeaders path now = .ok c ∧ OpenedWith defaultHeaders s now c := by
  obtain ⟨c, hnew⟩ := h.exists_new (ρ := ρ) (ω := ω) codec path opener.fullDuplex hnow
  refine ⟨opener.buffer c, ?_, (OpenedWith.of_new h hnew).buffer opener⟩
  rw [Opener.engine_eq, hnew]
  rfl

end

/-- A service client whose defaults are configured by any setters: its getters give what was
set last, no other header of its defaults has changed, and every call it can make counts its
deadline from the time it is made by the timeout that was set; whatever is then done with the
call, each of its requests names the codec that was set, which a server reads or refuses. -/
theorem settings_govern_requests [HeaderMap H] [Removable H] [CodecCrates] [Base64]
    [ResponseBody ρ H] [AsyncWrite ω] (server : Features) [Features] {defaultHeaders : H}
    {start : Settings}
    (hstart : Holds defaultHeaders start) {options : List ServiceOption}
    (hnamed : ∀ option ∈ options, option.Named) {now : Instant} (hnow : now.secs < 2 ^ 62) :
    let configured := options.foldl ServiceOption.set defaultHeaders
    let settings := options.foldl Settings.set start
    outboundCompression configured = settings.compression ∧
      (defaultTimeout configured).map Duration.asNanos = settings.timeoutNanos ∧
      (∀ name, ¬ SameName name "grpc-encoding" → ¬ SameName name "grpc-timeout" →
        values configured name = values defaultHeaders name) ∧
      ∀ (codec : Codec Req Resp) (path : String) (opener : Opener Req),
        ∃ c : GrpcClientConn ρ ω H Req Resp, opener.engine codec configured path now = .ok c ∧
          OpenedWith configured settings now c ∧
          ∀ actions, ∀ r ∈ ((Call.mk c (.fresh now)).acts actions).2.world.requests,
            values r.headers "grpc-encoding" = settings.encodingValues ∧
              if settings.compression ∈ @Encoding.all server then
                @extractRequestEncoding H _ server r.headers = .ok settings.compression
              else ∃ message,
                @extractRequestEncoding H _ server r.headers = .error (.unimplemented message) := by
  intro configured settings
  have hholds : Holds configured settings := hstart.run hnamed
  refine ⟨hholds.outboundCompression, hholds.defaultTimeout, fun name hencoding htimeout =>
    ServiceOption.values_run defaultHeaders options hencoding htimeout, ?_⟩
  intro codec path opener
  obtain ⟨c, hc, hopened⟩ := hholds.exists_engine codec path hnow opener
  refine ⟨c, hc, hopened, fun actions r hr => ?_⟩
  obtain ⟨⟨p, hinner, hdefaults, hmetadata⟩, hencoding, _⟩ := hopened
  obtain ⟨front, action, _, _, c', q, built, body, _, _, hafter, rfl⟩ :=
    Call.acts_built (s := ⟨c, .fresh now⟩) hinner rfl actions hr
  have hbuilt : p.requestMetadata.Built := hmetadata ▸ .new
  obtain ⟨_, _, hvalues⟩ := values_framework c' (hafter.built hbuilt) built body
  have hsame : c'.outboundEncoding = settings.compression := hafter.encoding.trans hencoding
  have hdefault : q.defaultHeaders = configured := hafter.defaults.trans hdefaults
  have hwire : values (c'.buildRequest q built body).headers "grpc-encoding" =
      settings.encodingValues := by
    rw [hvalues, hsame, hdefault, hholds.encoding, Settings.encodingValues]
    split <;> rfl
  exact ⟨hwire, @extractRequestEncoding_of_values _ _ server _ _ hwire⟩

def changedOptions : List ServiceOption :=
  [.outboundCompression .gzip, .defaultTimeout maxDuration, .outboundCompression .zstd]

/-- The codec set last is one that the server was built without. -/
theorem zstd_setting_refused :
    letI := storedCrates
    letI := standardNoPad
    letI := allFeatures
    ∃ c : GrpcClientConn ScriptedBody SinkScript HeaderList (List UInt8) (List UInt8),
      Opener.bidi.engine ⟨"proto", .ok, .ok⟩ (changedOptions.foldl ServiceOption.set empty) "/echo"
        epoch = .ok c ∧ c.outboundEncoding = .zstd ∧
      ∀ actions, ∀ r ∈ ((Call.mk c (.fresh epoch)).acts actions).2.world.requests,
        ∃ message, @extractRequestEncoding _ _ deflateOnly r.headers =
          .error (.unimplemented message) := by
  let _ := storedCrates
  let _ := standardNoPad
  let _ := allFeatures
  have hfresh : Holds (empty : HeaderList) ⟨.identity, none⟩ := .fresh rfl rfl
  have hnamed : ∀ option ∈ changedOptions, option.Named := by
    simp only [changedOptions, List.forall_mem_cons, ServiceOption.Named]
    exact ⟨by decide, trivial, by decide, List.forall_mem_nil _⟩
  have hnow : epoch.secs < 2 ^ 62 := by decide
  let plain : Codec (List UInt8) (List UInt8) := ⟨"proto", .ok, .ok⟩
  obtain ⟨_, _, _, hcalls⟩ :=
    settings_govern_requests (ρ := ScriptedBody) (ω := SinkScript) deflateOnly hfresh hnamed hnow
  obtain ⟨c, hc, hopened, hrequests⟩ := hcalls plain "/echo" .bidi
  refine ⟨c, hc, hopened.encoding, fun actions r hr => ?_⟩
  exact (hrequests actions r hr).2

end TrilliumGrpc
