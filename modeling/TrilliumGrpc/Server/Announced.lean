import TrilliumGrpc.Async.Steps
import TrilliumGrpc.EndToEnd.Head
import TrilliumGrpc.Server.Shapes

/-! # The announced encoding is the one in use

The encoding that preflight announces is negotiated once more by each shape, and goes from
there into the one frame of a response, into a `StreamBody` or across the seam into a
`Channel`. Each of the three frames its messages with it.
-/

namespace TrilliumGrpc

open Async ByteSource HeaderMap Time

variable {φ σ R H ρ ω Req Resp T F : Type}

/-! ## What is announced -/

/-- The identity, or one of the names that the client listed. -/
def Negotiated [HeaderMap H] (e : Encoding) (requestHeaders : H) : Prop :=
  e = .identity ∨ ∃ accepted, getStr requestHeaders "grpc-accept-encoding" = some accepted ∧
    e.asGrpcEncoding.toList ∈ (accepted.toList.splitOn ',').map trim

theorem negotiated [HeaderMap H] [Features] (requestHeaders : H) :
    Negotiated (negotiateResponseEncoding requestHeaders) requestHeaders := by
  rw [negotiateResponseEncoding]
  cases haccept : getStr requestHeaders "grpc-accept-encoding" with
  | none => exact .inl rfl
  | some accepted =>
      dsimp only
      cases hfind : List.find? _ _ with
      | none => exact .inl rfl
      | some e =>
          have hlisted := List.find?_some hfind
          simp only [List.contains_eq_mem, decide_eq_true_eq] at hlisted
          exact .inr ⟨accepted, haccept, hlisted⟩

/-- A head whose `grpc-encoding` names the encoding; for the identity it has none, but for
what the conn came with. -/
def Announces [HeaderMap H] (e : Encoding) (initial headers : H) : Prop :=
  values headers "grpc-encoding" =
    if e = .identity then values initial "grpc-encoding" else [.ofString e.asGrpcEncoding]

/-- The function leaves the response's `grpc-encoding` alone. -/
def Handler.KeepsEncoding [HeaderMap H] (f : Handler φ H ρ Req T) : Prop :=
  ∀ future grpc, values (f.poll future grpc).2.2.conn.responseHeaders "grpc-encoding" =
    values grpc.conn.responseHeaders "grpc-encoding"

/-! ## Frames -/

section

variable [CodecCrates]

/-- The frame of a message: bare with flag 0, or compressed with flag 1. -/
def Emitted (encode : Resp → Except Status (List UInt8)) (e : Encoding) (bytes : List UInt8) :
    Prop :=
  ∃ resp raw, encode resp = .ok raw ∧
    if e = .identity then bytes = frame 0 raw
    else ∃ out, e.compress raw = .ok out ∧ bytes = frame 1 out

theorem emitted_of_encodeFrame {encode : Resp → Except Status (List UInt8)} {e : Encoding}
    {resp : Resp} {bytes : List UInt8} (h : encodeFrame encode resp e = .ok bytes) :
    Emitted encode e bytes := by
  rw [encodeFrame] at h
  cases hraw : encode resp with
  | error status => rw [hraw] at h; cases h
  | ok raw =>
      rw [hraw] at h
      obtain ⟨flag, payload, hpayload, rfl⟩ := encodePayload_ok h
      refine ⟨resp, raw, hraw, ?_⟩
      by_cases hidentity : e = .identity
      · subst hidentity
        cases hpayload
        rw [if_pos rfl]
      · rw [if_neg hidentity]
        rw [framePayload_of_ne hidentity] at hpayload
        cases hout : e.compress raw with
        | error status => rw [hout] at hpayload; cases hpayload
        | ok out =>
            rw [hout] at hpayload
            cases hpayload
            exact ⟨_, rfl, rfl⟩

/-- What `finish_unary` and the errors give: one frame, or nothing. -/
def OneShotBody.OneFrame (b : OneShotBody H) (encode : Resp → Except Status (List UInt8))
    (e : Encoding) : Prop :=
  rest b = [] ∨ Emitted encode e (rest b)

theorem finishUnary_conn [HeaderMap H] [Base64] (encode : Resp → Except Status (List UInt8))
    (conn : Conn H ρ) (result : Except Status Resp) (e : Encoding) (trailers : H) :
    (finishUnary encode conn result e trailers).conn = conn := by
  unfold finishUnary
  split
  · split <;> rfl
  · rfl

theorem finishUnary_oneFrame [HeaderMap H] [Base64] (encode : Resp → Except Status (List UInt8))
    (conn : Conn H ρ) (result : Except Status Resp) (e : Encoding) (trailers : H) :
    (finishUnary encode conn result e trailers).body.OneFrame encode e := by
  unfold finishUnary
  cases result with
  | error status => exact .inl rfl
  | ok resp =>
      dsimp only
      cases hframe : encodeFrame encode resp e with
      | error status => exact .inl rfl
      | ok frame => exact .inr (emitted_of_encodeFrame hframe)

end

/-! ## Stream bodies -/

namespace StreamBody

variable [AsyncStream σ (Except Status Resp)] [CodecCrates]

omit [AsyncStream σ (Except Status Resp)] [CodecCrates] in
def handed {len : Nat} : Poll (Except String (Chunk len)) → List UInt8
  | .ready (.ok chunk) => chunk.1
  | _ => []

/-- The bytes of a sequence of reads, each with the signal it meets and its buffer size,
and the body behind them. -/
def reads : StreamBody σ H Resp → List (Option Status × Nat) → List UInt8 × StreamBody σ H Resp
  | b, [] => ([], b)
  | b, (cut, len) :: later =>
      let (answer, b) := b.pollRead cut len
      (handed answer ++ (b.reads later).1, (b.reads later).2)

omit [AsyncStream σ (Except Status Resp)] [CodecCrates] in
def unread (b : StreamBody σ H Resp) : List UInt8 := b.pending.drop b.pos

/-- A read hands out what is left of one frame, and may get the next one for it. -/
theorem pollRead_emits (b : StreamBody σ H Resp) (cut : Option Status) (len : Nat) :
    (b.pollRead cut len).2.encode = b.encode ∧ (b.pollRead cut len).2.encoding = b.encoding ∧
      ∃ fs : List (List UInt8), (∀ f ∈ fs, Emitted b.encode b.encoding f) ∧
        handed (b.pollRead cut len).1 ++ (b.pollRead cut len).2.unread =
          b.unread ++ fs.flatten := by
  have hnone : ∀ f ∈ ([] : List (List UInt8)), Emitted b.encode b.encoding f := nofun
  unfold pollRead
  dsimp only
  by_cases hpos : b.pos < b.pending.length
  · rw [if_pos hpos]
    refine ⟨rfl, rfl, [], hnone, ?_⟩
    rw [List.flatten_nil, List.append_nil]
    exact Uncut.copy_append b len
  · rw [if_neg hpos]
    have hspent : b.unread = [] := List.drop_of_length_le (Nat.le_of_not_lt hpos)
    by_cases hfinished : b.finished = true
    · rw [if_pos hfinished]
      exact ⟨rfl, rfl, [], hnone, (List.append_nil _).symm⟩
    · rw [if_neg hfinished]
      -- the end, however it comes, hands out nothing
      have hend : ∀ (stream : σ) (status : Status),
          handed (Poll.ready (.ok ({ b with stream }.finish status len).1)) ++
            ({ b with stream }.finish status len).2.unread = b.unread ++ [].flatten := by
        intro stream status
        exact (List.append_nil _).symm
      cases if b.cancel then cut else none with
      | some status => exact ⟨rfl, rfl, [], hnone, hend b.stream status⟩
      | none =>
          rcases AsyncStream.pollNext b.stream with ⟨_ | (_ | (status | resp)), stream⟩
          · exact ⟨rfl, rfl, [], hnone, (List.append_nil _).symm⟩
          · exact ⟨rfl, rfl, [], hnone, hend stream _⟩
          · exact ⟨rfl, rfl, [], hnone, hend stream status⟩
          · dsimp only
            cases hframe : encodeFrame b.encode resp b.encoding with
            | error status => exact ⟨rfl, rfl, [], hnone, hend stream status⟩
            | ok frame =>
                refine ⟨rfl, rfl, [frame], ?_, ?_⟩
                · intro f hf
                  rw [List.mem_singleton.mp hf]
                  exact emitted_of_encodeFrame hframe
                · rw [hspent, List.flatten_singleton, List.nil_append]
                  exact Uncut.copy_append { b with stream, pending := frame, pos := 0 } len

theorem reads_emits (b : StreamBody σ H Resp) (polls : List (Option Status × Nat)) :
    ∃ fs : List (List UInt8), (∀ f ∈ fs, Emitted b.encode b.encoding f) ∧
      (b.reads polls).1 ++ (b.reads polls).2.unread = b.unread ++ fs.flatten := by
  induction polls generalizing b with
  | nil => exact ⟨[], nofun, (List.append_nil _).symm⟩
  | cons poll polls ih =>
      obtain ⟨cut, len⟩ := poll
      obtain ⟨hencode, hencoding, fs, hfs, hbytes⟩ := b.pollRead_emits cut len
      obtain ⟨more, hmore, hlater⟩ := ih (b.pollRead cut len).2
      rw [hencode, hencoding] at hmore
      refine ⟨fs ++ more, ?_, ?_⟩
      · intro f hf
        exact (List.mem_append.mp hf).elim (hfs f) (hmore f)
      · rw [reads]
        dsimp only
        rw [List.append_assoc, hlater, ← List.append_assoc, hbytes, List.flatten_append,
          List.append_assoc]

end StreamBody

/-! ## Channels -/

section

variable [CodecCrates]

def Emissions (encode : Resp → Except Status (List UInt8)) (e : Encoding) (written : List UInt8) :
    Prop :=
  ∃ sends : List (List UInt8 × List UInt8),
    (∀ sent ∈ sends, Emitted encode e sent.1 ∧ sent.2 <+: sent.1) ∧
      written = (sends.map Prod.snd).flatten

theorem Emissions.append {encode : Resp → Except Status (List UInt8)} {e : Encoding}
    {written frame accepted : List UInt8} (h : Emissions encode e written)
    (hframe : Emitted encode e frame) (haccepted : accepted <+: frame) :
    Emissions encode e (written ++ accepted) := by
  obtain ⟨sends, hsends, rfl⟩ := h
  refine ⟨sends ++ [(frame, accepted)], ?_, by simp⟩
  intro sent hsent
  rcases List.mem_append.mp hsent with hsent | hsent
  · exact hsends sent hsent
  · rw [List.mem_singleton.mp hsent]
    exact ⟨hframe, haccepted⟩

/-- A responder whose channel frames with `encode` and `e`, and has all along. -/
structure Responding.Emitting (encode : Resp → Except Status (List UInt8)) (e : Encoding)
    (s : Responding ρ ω H Req Resp) : Prop where
  encoder : s.channel.encode = encode
  encoding : s.channel.outboundEncoding = e
  sent : match s.sending with
    | none => Emissions encode e s.channel.upgrade.written
    | some fut => Emitted encode e fut.frame ∧ ∃ written accepted,
        Emissions encode e written ∧ fut.frame = accepted ++ fut.left ∧
          s.channel.upgrade.written = written ++ accepted

namespace Responding.Emitting

variable {encode : Resp → Except Status (List UInt8)} {e : Encoding}
  {s : Responding ρ ω H Req Resp}

theorem emissions (h : s.Emitting encode e) : Emissions encode e s.channel.upgrade.written := by
  have hsent := h.sent
  cases hs : s.sending with
  | none => rwa [hs] at hsent
  | some fut =>
      rw [hs] at hsent
      obtain ⟨hframe, written, accepted, hbefore, hsplit, hwritten⟩ := hsent
      rw [hwritten]
      exact hbefore.append hframe ⟨fut.left, hsplit.symm⟩

theorem of_dropped {s' : Responding ρ ω H Req Resp} (h : s.Emitting encode e)
    (hencoder : s'.channel.encode = s.channel.encode)
    (hencoding : s'.channel.outboundEncoding = s.channel.outboundEncoding)
    (hwritten : s'.channel.upgrade.written = s.channel.upgrade.written)
    (hnone : s'.sending = none) : s'.Emitting encode e := by
  refine ⟨hencoder.trans h.encoder, hencoding.trans h.encoding, ?_⟩
  rw [hnone, hwritten]
  exact h.emissions

variable [AsyncRead ρ] [AsyncWrite ω]

omit [AsyncRead ρ] in
theorem resumeSend {c : Channel ρ ω H Req Resp} {fut : SendFuture} {written accepted : List UInt8}
    (hencoder : c.encode = encode) (hencoding : c.outboundEncoding = e)
    (hframe : Emitted encode e fut.frame) (hbefore : Emissions encode e written)
    (hsplit : fut.frame = accepted ++ fut.left)
    (hwritten : c.upgrade.written = written ++ accepted) : Emitting encode e
      (⟨(c.resumeSend fut).2.1, (c.resumeSend fut).2.2⟩ : Responding ρ ω H Req Resp) := by
  have hstep := (writeAll_spec c.upgrade.writer fut.left).split
  have hall : fut.frame = accepted ++ (writeAll c.upgrade.writer fut.left).accepted ++
      (writeAll c.upgrade.writer fut.left).left := by
    rw [List.append_assoc, hstep, hsplit]
  have hlog : (c.wrote (writeAll c.upgrade.writer fut.left)).upgrade.written =
      written ++ (accepted ++ (writeAll c.upgrade.writer fut.left).accepted) := by
    rw [Channel.wrote, hwritten, List.append_assoc]
  simp only [Channel.resumeSend]
  cases (writeAll c.upgrade.writer fut.left).answer with
  | pending => exact ⟨hencoder, hencoding, hframe, written, _, hbefore, hall, hlog⟩
  | ready result =>
      refine ⟨hencoder, hencoding, ?_⟩
      dsimp only
      rw [hlog]
      exact hbefore.append hframe ⟨_, hall.symm⟩

theorem perform (h : s.Emitting encode e) (op : ChannelOp H Resp) :
    (s.perform op).Emitting encode e := by
  cases op with
  | send value =>
      rw [Responding.perform, Channel.startSend]
      cases hframe : s.channel.encodeMessage value with
      | error status => exact h.of_dropped rfl rfl rfl rfl
      | ok frame =>
          have hemitted : Emitted encode e frame := by
            rw [Channel.encodeMessage, h.encoder, h.encoding] at hframe
            exact emitted_of_encodeFrame hframe
          have hfut : Emitted encode e (SendFuture.mk frame frame).frame := hemitted
          exact resumeSend h.encoder h.encoding hfut h.emissions rfl (List.append_nil _).symm
  | resume =>
      rw [Responding.perform]
      cases hs : s.sending with
      | none => exact h
      | some fut =>
          have hsent := h.sent
          rw [hs] at hsent
          obtain ⟨hframe, written, accepted, hbefore, hsplit, hwritten⟩ := hsent
          exact resumeSend h.encoder h.encoding hframe hbefore hsplit hwritten
  | drop => exact h.of_dropped rfl rfl rfl rfl
  | recv => exact h.of_dropped rfl rfl rfl rfl
  | editTrailers f => exact h.of_dropped rfl rfl rfl rfl

theorem foldl (h : s.Emitting encode e) (ops : List (ChannelOp H Resp)) :
    (ops.foldl Responding.perform s).Emitting encode e :=
  kept_of_step (fun _ op hs => hs.perform op) h ops

theorem driveLoop (h : s.Emitting encode e) (c : Cancellation) (started : Bool)
    (polls : List (Signals × ResponderPoll H Resp)) {result : Except Status Unit}
    {s' : Responding ρ ω H Req Resp}
    (hrun : TrilliumGrpc.driveLoop c started polls s = some (result, s')) :
    s'.Emitting encode e := by
  induction polls generalizing started s with
  | nil => simp [TrilliumGrpc.driveLoop] at hrun
  | cons poll polls ih =>
      obtain ⟨sig, p⟩ := poll
      have hrace : (c.race started sig (Responding.poll p) s).2.Emitting encode e := by
        rcases c.race_state started sig (Responding.poll p) s with heq | ⟨_, heq⟩
        · rwa [heq]
        · rw [heq]
          exact h.foldl p.ops
      rw [TrilliumGrpc.driveLoop] at hrun
      cases hp : c.race started sig (Responding.poll p) s with
      | mk answer s₁ =>
          rw [hp] at hrace hrun
          cases answer with
          | pending => exact ih hrace true hrun
          | ready r =>
              simp only [Option.some.injEq, Prod.mk.injEq] at hrun
              obtain ⟨_, rfl⟩ := hrun
              exact hrace

end Responding.Emitting

/-- What crosses the seam frames with `encode` and `e`: whatever a responder does with its
channel, and however the race over it ends. -/
def BidiState.Emits [AsyncRead ρ] [AsyncWrite ω] [HeaderMap H] [Base64]
    (state : BidiState H Req Resp) (encode : Resp → Except Status (List UInt8)) (e : Encoding)
    (upgrade : Upgrade ρ ω H) : Prop :=
  (∀ ops : List (ChannelOp H Resp),
    Emissions encode e
      (ops.foldl Responding.perform (state.start upgrade)).channel.upgrade.written) ∧
  ∀ polls sent, state.drive upgrade polls = some sent → Emissions encode e sent.written

theorem BidiState.emits [AsyncRead ρ] [AsyncWrite ω] [HeaderMap H] [Base64]
    (state : BidiState H Req Resp) {upgrade : Upgrade ρ ω H} (hfresh : upgrade.written = []) :
    state.Emits state.encode state.responseEncoding upgrade := by
  have hstart : (state.start upgrade).Emitting state.encode state.responseEncoding :=
    ⟨rfl, rfl, [], nofun, hfresh⟩
  refine ⟨fun ops => (hstart.foldl ops).emissions, fun polls sent hsent => ?_⟩
  rw [drive] at hsent
  cases hrun : TrilliumGrpc.driveLoop ⟨state.deadline⟩ false polls (state.start upgrade) with
  | none => rw [hrun] at hsent; cases hsent
  | some out =>
      obtain ⟨result, s'⟩ := out
      rw [hrun] at hsent
      cases hsent
      exact (hstart.driveLoop _ false polls hrun).emissions

end

/-! ## The four shapes -/

section

variable [HeaderMap H]

/-- A conn whose response head has these values of `grpc-encoding`. -/
def GrpcServerConn.Shows (shown : List HeaderValue) (grpc : GrpcServerConn H ρ) : Prop :=
  values grpc.conn.responseHeaders "grpc-encoding" = shown

theorem Handler.KeepsEncoding.shows {f : Handler φ H ρ Req T} (hf : f.KeepsEncoding)
    {shown : List HeaderValue} (future : φ) (grpc : GrpcServerConn H ρ) (h : grpc.Shows shown) :
    (f.poll future grpc).2.2.Shows shown :=
  (hf future grpc).trans h

variable [Features]

theorem prepareGrpcConn_requestHeaders {conn prepared : Conn H ρ} {suffix : String}
    (h : prepareGrpcConn conn suffix = .ok prepared) :
    prepared.requestHeaders = conn.requestHeaders := by
  unfold prepareGrpcConn at h
  dsimp only at h
  split at h
  · cases h
  · split at h
    · cases h
    · cases h
      rfl

variable [CodecCrates] [Base64]

omit [Features] in
/-- Frames however the body is read, and none if the call failed. -/
def StreamReply.Emits [AsyncStream σ (Except Status Resp)]
    (encode : Resp → Except Status (List UInt8)) (e : Encoding) : StreamReply σ H Resp → Prop
  | .streaming body => ∀ polls, ∃ fs : List (List UInt8),
      (∀ f ∈ fs, Emitted encode e f) ∧ (body.reads polls).1 <+: fs.flatten
  | .failed body => rest body = []

variable [AsyncRead ρ]

omit [Features] in
variable (ρ ω) in
/-- Frames behind the seam, and none if there is nothing behind it. -/
def BidiReply.Emits [AsyncWrite ω] (encode : Resp → Except Status (List UInt8)) (e : Encoding) :
    BidiReply R H Req Resp → Prop
  | .upgraded state _ => ∀ upgrade : Upgrade ρ ω H, upgrade.written = [] →
      state.Emits encode e upgrade
  | .rejected body => rest body = []

omit [Features] [Base64] in
theorem OneRequest.run_shows {f : Handler φ H ρ Req T} (hf : f.KeepsEncoding)
    (decode : List UInt8 → Except Status Req) {shown : List HeaderValue}
    {s : OneRequest φ H ρ Req} (h : s.grpc.Shows shown) (c : Cancellation) (sigs : List Signals) :
    (c.run (OneRequest.poll decode f) false sigs s).2.release.Shows shown := by
  have hbody : ∀ (grpc : GrpcServerConn H ρ) body, grpc.Shows shown →
      (grpc.withBody body).Shows shown := fun _ _ hgrpc => hgrpc
  have hpoll : ∀ s : OneRequest φ H ρ Req, s.grpc.Shows shown →
      (OneRequest.poll decode f s).2.grpc.Shows shown :=
    fun _ hs => poll_kept hbody hf.shows decode hs
  exact release_kept hbody (Cancellation.run_kept hpoll false sigs h)

omit [Features] [Base64] [CodecCrates] [AsyncRead ρ] in
theorem Handling.run_shows {f : Handler φ H ρ Req T} (hf : f.KeepsEncoding)
    {shown : List HeaderValue} {s : Handling φ H ρ} (h : s.grpc.Shows shown) (c : Cancellation)
    (sigs : List Signals) : (c.run f.resume false sigs s).2.grpc.Shows shown := by
  have hpoll : ∀ s : Handling φ H ρ, s.grpc.Shows shown → (f.resume s).2.grpc.Shows shown :=
    fun s hs => hf.shows s.future s.grpc hs
  exact Cancellation.run_kept hpoll false sigs h

variable {conn : Conn H ρ} {now now' : Instant} {sigs : List Signals}
  {shown : List HeaderValue} (hshown : values conn.responseHeaders "grpc-encoding" = shown)

include hshown

omit [AsyncRead ρ] [CodecCrates] [Base64] in
theorem startCall_shows {call : Admitted H ρ} (h : startCall conn now now' = .ok (.ok call)) :
    call.responseEncoding = negotiateResponseEncoding conn.requestHeaders ∧
      call.grpc.Shows shown := by
  obtain ⟨_, hencoding, hconn, _⟩ := startCall_ok h
  refine ⟨hencoding, ?_⟩
  rw [GrpcServerConn.Shows, hconn]
  exact hshown

theorem unaryImpl_emits {decode : List UInt8 → Except Status Req}
    {encode : Resp → Except Status (List UInt8)} {f : Handler φ H ρ Req Resp}
    {out : Dispatched H ρ Req (OneShotBody H)} {reply : Reply H ρ (OneShotBody H)}
    (h : unaryImpl decode encode f conn now now' sigs = .ok out) (hreply : out.reply = some reply) :
    (f.KeepsEncoding → values reply.conn.responseHeaders "grpc-encoding" = shown) ∧
      reply.body.OneFrame encode (negotiateResponseEncoding conn.requestHeaders) := by
  obtain ⟨status | call, hadmitted, rfl⟩ := exists_of_map_ok h
  · cases hreply
    exact ⟨fun _ => hshown, .inl rfl⟩
  · obtain ⟨hencoding, hstart⟩ := startCall_shows hshown hadmitted
    obtain ⟨result, _, rfl⟩ := Option.map_eq_some_iff.mp hreply
    rw [finishUnary_conn, ← hencoding]
    exact ⟨fun hf => OneRequest.run_shows (s := .new call.grpc) hf decode hstart _ _,
      finishUnary_oneFrame _ _ _ _ _⟩

omit [AsyncRead ρ] in
theorem clientStreamingImpl_emits {encode : Resp → Except Status (List UInt8)}
    {f : Handler φ H ρ Unit Resp} {reply : Reply H ρ (OneShotBody H)}
    (h : clientStreamingImpl encode f conn now now' sigs = .ok (some reply)) :
    (f.KeepsEncoding → values reply.conn.responseHeaders "grpc-encoding" = shown) ∧
      reply.body.OneFrame encode (negotiateResponseEncoding conn.requestHeaders) := by
  obtain ⟨status | call, hadmitted, hreply⟩ := exists_of_map_ok h
  · cases hreply
    exact ⟨fun _ => hshown, .inl rfl⟩
  · obtain ⟨hencoding, hstart⟩ := startCall_shows hshown hadmitted
    obtain ⟨result, _, rfl⟩ := Option.map_eq_some_iff.mp hreply
    rw [finishUnary_conn, ← hencoding]
    exact ⟨fun hf => Handling.run_shows (s := ⟨f.call (), call.grpc⟩) hf hstart _ _,
      finishUnary_oneFrame _ _ _ _ _⟩

theorem serverStreamingImpl_emits [AsyncStream σ (Except Status Resp)]
    {decode : List UInt8 → Except Status Req} {encode : Resp → Except Status (List UInt8)}
    {f : Handler φ H ρ Req σ} {out : Dispatched H ρ Req (StreamReply σ H Resp)}
    {reply : Reply H ρ (StreamReply σ H Resp)}
    (h : serverStreamingImpl decode encode f conn now now' sigs = .ok out)
    (hreply : out.reply = some reply) :
    (f.KeepsEncoding → values reply.conn.responseHeaders "grpc-encoding" = shown) ∧
      reply.body.Emits encode (negotiateResponseEncoding conn.requestHeaders) := by
  obtain ⟨status | call, hadmitted, rfl⟩ := exists_of_map_ok h
  · cases hreply
    exact ⟨fun _ => hshown, rfl⟩
  · obtain ⟨hencoding, hstart⟩ := startCall_shows hshown hadmitted
    have hhead : f.KeepsEncoding → (call.cancellation.run (OneRequest.poll decode f) false sigs
        (.new call.grpc)).2.release.Shows shown :=
      fun hf => OneRequest.run_shows (s := .new call.grpc) hf decode hstart _ _
    obtain ⟨status | stream, _, rfl⟩ := Option.map_eq_some_iff.mp hreply
    · exact ⟨hhead, rfl⟩
    · refine ⟨hhead, fun polls => ?_⟩
      obtain ⟨fs, hfs, hbytes⟩ := StreamBody.reads_emits (StreamBody.new stream encode
        call.responseEncoding _ true) polls
      rw [← hencoding]
      exact ⟨fs, hfs, _, hbytes⟩

omit [AsyncRead ρ] in
theorem bidiPrologueImpl_emits [AsyncRead ρ] [AsyncWrite ω]
    {decode : List UInt8 → Except Status Req} {encode : Resp → Except Status (List UInt8)}
    {prologue : Handler φ H ρ Unit R} {reply : Reply H ρ (BidiReply R H Req Resp)}
    (h : bidiPrologueImpl decode encode prologue conn now now' sigs = .ok (some reply)) :
    (prologue.KeepsEncoding → values reply.conn.responseHeaders "grpc-encoding" = shown) ∧
      reply.body.Emits ρ ω encode (negotiateResponseEncoding conn.requestHeaders) := by
  obtain ⟨status | call, hadmitted, hreply⟩ := exists_of_map_ok h
  · cases hreply
    exact ⟨fun _ => hshown, rfl⟩
  · obtain ⟨hencoding, hstart⟩ := startCall_shows hshown hadmitted
    have hhead : prologue.KeepsEncoding → (call.cancellation.run prologue.resume false sigs
        ⟨prologue.call (), call.grpc⟩).2.grpc.Shows shown :=
      fun hf => Handling.run_shows (s := ⟨prologue.call (), call.grpc⟩) hf hstart _ _
    obtain ⟨status | responder, _, rfl⟩ := Option.map_eq_some_iff.mp hreply
    · exact ⟨hhead, rfl⟩
    · refine ⟨hhead, fun upgrade hfresh => ?_⟩
      rw [← hencoding]
      exact BidiState.emits _ hfresh

omit hshown in
/-- The encoding that preflight announces is the one that every frame of the response is
in, whichever shape the call has and whatever its user function does. -/
theorem announced_encoding_used [AsyncStream σ (Except Status Resp)] [AsyncWrite ω]
    {initial conn : Conn H ρ} {suffix : String}
    (hprepared : prepareGrpcConn initial suffix = .ok conn)
    (decode : List UInt8 → Except Status Req) (encode : Resp → Except Status (List UInt8))
    (now now' : Instant) (sigs : List Signals) :
    let e := negotiateResponseEncoding initial.requestHeaders
    Negotiated e initial.requestHeaders ∧ Announces e initial.responseHeaders conn.responseHeaders ∧
    (∀ (f : Handler φ H ρ Req Resp) out reply,
      unaryImpl decode encode f conn now now' sigs = .ok out → out.reply = some reply →
        (f.KeepsEncoding → Announces e initial.responseHeaders reply.conn.responseHeaders) ∧
          reply.body.OneFrame encode e) ∧
    (∀ (f : Handler φ H ρ Unit Resp) reply,
      clientStreamingImpl encode f conn now now' sigs = .ok (some reply) →
        (f.KeepsEncoding → Announces e initial.responseHeaders reply.conn.responseHeaders) ∧
          reply.body.OneFrame encode e) ∧
    (∀ (f : Handler φ H ρ Req σ) out reply,
      serverStreamingImpl decode encode f conn now now' sigs = .ok out → out.reply = some reply →
        (f.KeepsEncoding → Announces e initial.responseHeaders reply.conn.responseHeaders) ∧
          reply.body.Emits encode e) ∧
    ∀ (prologue : Handler φ H ρ Unit R) reply,
      bidiPrologueImpl decode encode prologue conn now now' sigs = .ok (some reply) →
        (prologue.KeepsEncoding → Announces e initial.responseHeaders reply.conn.responseHeaders) ∧
          reply.body.Emits ρ ω encode e := by
  intro e
  have hannounces : Announces e initial.responseHeaders conn.responseHeaders :=
    (prepareGrpcConn_ok hprepared).2.2.2
  have hsame : negotiateResponseEncoding conn.requestHeaders = e := by
    rw [prepareGrpcConn_requestHeaders hprepared]
  refine ⟨negotiated _, hannounces, ?_, ?_, ?_, ?_⟩
  · intro f out reply h hreply
    rw [← hsame]
    exact unaryImpl_emits (hsame ▸ hannounces) h hreply
  · intro f reply h
    rw [← hsame]
    exact clientStreamingImpl_emits (hsame ▸ hannounces) h
  · intro f out reply h hreply
    rw [← hsame]
    exact serverStreamingImpl_emits (hsame ▸ hannounces) h hreply
  · intro prologue reply h
    rw [← hsame]
    exact bidiPrologueImpl_emits (hsame ▸ hannounces) h

end

/-- A call from a client that lists `gzip`. -/
def gzipConn : Conn HeaderList Script :=
  { requestHeaders := insert (insert (insert empty "content-type" (.ofString "application/grpc"))
      "te" (.ofString "trailers")) "grpc-accept-encoding" (.ofString "identity, gzip")
    responseHeaders := empty
    status := none
    requestBody := ⟨[0, 0, 0, 0, 1, 7], [.pending, .chunk 3], none⟩
    hasRuntime := true }

def echoHandler : Handler (List UInt8) HeaderList Script (List UInt8) (List UInt8) :=
  ⟨id, fun message grpc => (.ready (.ok message), message, grpc)⟩

theorem gzip_announced :
    letI := tableCrates
    letI := standardNoPad
    letI := allFeatures
    ∃ conn, prepareGrpcConn gzipConn "proto" = .ok conn ∧
      values conn.responseHeaders "grpc-encoding" = [.ofString "gzip"] ∧
      ∀ sigs out reply, unaryImpl .ok .ok echoHandler conn epoch epoch sigs = .ok out →
        out.reply = some reply →
          values reply.conn.responseHeaders "grpc-encoding" = [.ofString "gzip"] ∧
            reply.body.OneFrame (fun message => (.ok message : Except Status _)) .gzip := by
  let _ := tableCrates
  let _ := standardNoPad
  let _ := allFeatures
  obtain ⟨conn, hprepared⟩ : ∃ conn, prepareGrpcConn gzipConn "proto" = .ok conn := ⟨_, rfl⟩
  have hnegotiated : negotiateResponseEncoding gzipConn.requestHeaders = .gzip := by
    decide +kernel
  have hkeeps : echoHandler.KeepsEncoding := fun _ _ => rfl
  have hused := fun sigs => announced_encoding_used (φ := List UInt8) (σ := ItemScript _)
    (R := Unit) (ω := SinkScript) hprepared .ok .ok epoch epoch sigs
  rw [hnegotiated] at hused
  refine ⟨conn, hprepared, (hused []).2.1, fun sigs out reply h hreply => ?_⟩
  obtain ⟨hhead, hbody⟩ := (hused sigs).2.2.1 echoHandler out reply h hreply
  exact ⟨hhead hkeeps, hbody⟩

end TrilliumGrpc
