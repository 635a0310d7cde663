import TrilliumGrpc.Server.Failures

/-! # Exactly one response

The responses of a unary or client-streaming call: one frame and a zero status, or no frame
and another status. What the framework makes itself keeps to this. A status of the user's
goes into the trailers as it is, and the payload of a message is framed whatever its length.
-/

namespace TrilliumGrpc

open Async ByteSource HeaderMap Time

variable {φ H ρ Req Resp T F : Type}

/-! ## Responses -/

/-- One complete frame and a zero `grpc-status`, or no byte and another one. -/
def OneShotBody.WellFormed [HeaderMap H] [Base64] (b : OneShotBody H) : Prop :=
  (∃ flag payload trailers, rest b = frame flag payload ∧ payload.length < 2 ^ 32 ∧
    b.trailers = some trailers ∧ values trailers "grpc-status" = [.ofString "0"]) ∨ b.Refuses

section

variable [CodecCrates]

/-- An answer of the user function that can be told from any other: its error is one, and
so is the codec's for a message without bytes; and a length field holds the payload's. -/
def Sendable (encode : Resp → Except Status (List UInt8)) (e : Encoding) :
    Except Status Resp → Prop
  | .error status => status.code ≠ .ok
  | .ok resp => match encode resp with
    | .error status => status.code ≠ .ok
    | .ok raw => ∀ flag payload, framePayload raw e = .ok (flag, payload) →
        payload.length < 2 ^ 32

variable [HeaderMap H] [Base64]

omit [CodecCrates] in
theorem errorResponse_wellFormed_iff (conn : Conn H ρ) {status : Status}
    (h : status.metadata.Reachable H) (trailers : H) :
    (errorResponseWithTrailers conn status trailers).body.WellFormed ↔ status.code ≠ .ok := by
  constructor
  · rintro (⟨flag, payload, _, hrest, _⟩ | ⟨_, _, code, htrailers, hcode, hvalues⟩) hok
    · have hlen := congrArg List.length hrest
      rw [frame_length, prefixLen] at hlen
      have hempty : (rest (errorResponseWithTrailers conn status trailers).body).length = 0 := rfl
      omega
    · cases htrailers
      rw [Status.values_status h.keys, hok] at hvalues
      have htext := congrArg (fun vs => vs.map HeaderValue.asStr) hvalues
      simp only [List.map_cons, List.map_nil, HeaderValue.asStr_ofString] at htext
      cases code with
      | ok => exact hcode rfl
      | _ => revert htext; decide
  · intro hcode
    exact .inr (errorResponseWithTrailers_refuses conn ⟨hcode, h⟩ trailers)

omit [CodecCrates] in
theorem respond_frame_wellFormed_iff (conn : Conn H ρ) (flag : UInt8) (payload : List UInt8)
    (trailers : H) :
    (respond conn (OneShotBody.new (frame flag payload)
      (Status.ok.writeInto trailers))).body.WellFormed ↔ payload.length < 2 ^ 32 := by
  have hrest : rest (respond conn (OneShotBody.new (frame flag payload)
      (Status.ok.writeInto trailers))).body = frame flag payload := rfl
  constructor
  · rintro (⟨flag', payload', _, hframe, hlen, _⟩ | ⟨hempty, _⟩)
    · rw [hrest] at hframe
      have hsame := congrArg List.length hframe
      rw [frame_length, frame_length] at hsame
      omega
    · rw [hrest] at hempty
      have hlen := congrArg List.length hempty
      rw [frame_length, prefixLen, List.length_nil] at hlen
      omega
  · intro hlen
    have hkeys : ∀ entry ∈ Status.ok.metadata.entries, OwnKey entry.1 :=
      fun entry hmem => by cases hmem
    exact .inl ⟨flag, payload, _, hrest, hlen, rfl, Status.values_status hkeys trailers⟩

theorem finishUnary_wellFormed_iff {encode : Resp → Except Status (List UInt8)}
    (hencode : ∀ resp status, encode resp = .error status → status.metadata.Reachable H)
    (conn : Conn H ρ) {result : Except Status Resp}
    (hresult : ∀ status, result = .error status → status.metadata.Reachable H) (e : Encoding)
    (trailers : H) :
    (finishUnary encode conn result e trailers).body.WellFormed ↔ Sendable encode e result := by
  cases result with
  | error status => exact errorResponse_wellFormed_iff conn (hresult status rfl) trailers
  | ok resp =>
      rw [finishUnary, Sendable]
      cases hraw : encode resp with
      | error status =>
          have hframe : encodeFrame encode resp e = .error status := by
            rw [encodeFrame, hraw]
            rfl
          rw [hframe]
          exact errorResponse_wellFormed_iff conn (hencode resp status hraw) trailers
      | ok raw =>
          rw [encodeFrame_eq hraw]
          cases hpayload : framePayload raw e with
          | error status =>
              have hfails : status.Fails H := (framePayload_error hpayload).fails
              refine iff_of_true ?_ (fun _ _ h => ?_)
              · exact .inr (errorResponseWithTrailers_refuses conn hfails trailers)
              · rw [hpayload] at h
                cases h
          | ok out =>
              refine (respond_frame_wellFormed_iff conn out.1 out.2 trailers).trans ?_
              constructor
              · intro hlen flag payload h
                rw [hpayload] at h
                cases h
                exact hlen
              · exact fun h => h out.1 out.2 hpayload

end

/-! ## Courses -/

namespace Cancellation

/-- At each poll that a race makes, `sound` holds of the future in front of it. -/
def Meets (c : Cancellation) (poll : F → Poll (Except Status T) × F) (sound : F → Prop) :
    Bool → List Signals → F → Prop
  | _, [], _ => True
  | started, sig :: sigs, future =>
      (c.polls started sig = .ok () → sound future) ∧
        match c.race started sig poll future with
        | (.pending, future) => c.Meets poll sound true sigs future
        | (.ready _, _) => True

variable {c : Cancellation} {poll : F → Poll (Except Status T) × F} {sound Kept : F → Prop}
  {Good Built : Except Status T → Prop}

/-- If a poll is sound but for a result that is not, a race is sound throughout exactly if
its result is: what ends it from outside is. -/
theorem meets_iff (hraised : ∀ status : Status, status.Raised → Good (.error status) ∧
      Built (.error status))
    (hpending : ∀ s s', Kept s → poll s = (.pending, s') → sound s ∧ Kept s')
    (hready : ∀ s s' result, Kept s → poll s = (.ready result, s') →
      (sound s ↔ Good result) ∧ Built result)
    {started : Bool} {sigs : List Signals} {s s' : F} {result : Except Status T} (hs : Kept s)
    (hrun : c.run poll started sigs s = (some result, s')) :
    (c.Meets poll sound started sigs s ↔ Good result) ∧ Built result := by
  induction sigs generalizing started s with
  | nil => cases hrun
  | cons sig sigs ih =>
      rw [run] at hrun
      rw [Meets]
      rcases c.race_cases started sig poll s with
        ⟨hpolls, hrace⟩ | ⟨status, hstatus, ⟨hpolls, hrace⟩ | ⟨hpolls, next, hp, hrace⟩⟩
      · rw [hrace] at hrun ⊢
        rcases hp : poll s with ⟨_ | answer, next⟩
        · rw [hp] at hrun
          obtain ⟨hsound, hnext⟩ := hpending s next hs hp
          obtain ⟨hlater, hbuilt⟩ := ih hnext hrun
          exact ⟨(and_iff_right fun _ => hsound).trans hlater, hbuilt⟩
        · rw [hp] at hrun
          cases hrun
          obtain ⟨hsound, hbuilt⟩ := hready s s' result hs hp
          exact ⟨⟨fun h => hsound.mp (h.1 hpolls), fun h => ⟨fun _ => hsound.mpr h, trivial⟩⟩,
            hbuilt⟩
      · rw [hrace] at hrun ⊢
        cases hrun
        refine ⟨iff_of_true ⟨fun h => ?_, trivial⟩ (hraised status hstatus).1,
          (hraised status hstatus).2⟩
        rw [hpolls] at h
        cases h
      · rw [hrace] at hrun ⊢
        cases hrun
        exact ⟨iff_of_true ⟨fun _ => (hpending s s' hs hp).1, trivial⟩ (hraised status hstatus).1,
          (hraised status hstatus).2⟩

end Cancellation

/-- The error, if it is one, has metadata that can be built. -/
def Built (H : Type) [HeaderMap H] [Base64] (result : Except Status T) : Prop :=
  ∀ status, result = .error status → status.metadata.Reachable H

theorem Status.Raised.sendable [HeaderMap H] [Base64] [CodecCrates] {status : Status}
    (h : status.Raised) (encode : Resp → Except Status (List UInt8)) (e : Encoding) :
    Sendable encode e (.error status) ∧ Built H (.error status : Except Status Resp) := by
  refine ⟨h.1, fun own heq => ?_⟩
  cases heq
  exact (h.fails (H := H)).metadata

/-- An answer of the user function at this poll, if it gives one, can be sent. -/
def Handler.Answers [CodecCrates] (f : Handler φ H ρ Req Resp)
    (encode : Resp → Except Status (List UInt8)) (e : Encoding) (future : φ)
    (grpc : GrpcServerConn H ρ) : Prop :=
  ∀ answer, (f.poll future grpc).1 = .ready answer → Sendable encode e answer

namespace OneRequest

variable [AsyncRead ρ] [CodecCrates] {decode : List UInt8 → Except Status Req}
  {f : Handler φ H ρ Req Resp} {encode : Resp → Except Status (List UInt8)} {e : Encoding}
  {s : OneRequest φ H ρ Req}

/-- At a poll of the second `recv` an answer can be sent, and the `recv`'s own error is no `Ok`. -/
def SecondSound (f : Handler φ H ρ Req Resp) (encode : Resp → Except Status (List UInt8))
    (e : Encoding) (s : OneRequest φ H ρ Req) (request : Req) (requests : RequestStream Req ρ)
    (future : RecvFuture) : Prop :=
  match requests.recv future with
  | (.ready (.error status), _, _) => status.code ≠ .ok
  | (.ready (.ok none), requests, _) =>
      f.Answers encode e (f.call request) (s.grpc.withBody requests.reader)
  | _ => True

def FirstSound (f : Handler φ H ρ Req Resp) (encode : Resp → Except Status (List UInt8))
    (e : Encoding) (s : OneRequest φ H ρ Req) (requests : RequestStream Req ρ)
    (future : RecvFuture) : Prop :=
  match requests.recv future with
  | (.ready (.error status), _, _) => status.code ≠ .ok
  | (.ready (.ok (some request)), requests, _) =>
      SecondSound f encode e s request requests .unresumed
  | _ => True

/-- No error that the request's codec or the user function gives at this poll has code
`Ok`, and its message can be sent. -/
def Sound (decode : List UInt8 → Except Status Req) (f : Handler φ H ρ Req Resp)
    (encode : Resp → Except Status (List UInt8)) (e : Encoding) (s : OneRequest φ H ρ Req) : Prop :=
  match s.stage with
  | .start => FirstSound f encode e s (s.grpc.requests decode) .unresumed
  | .first requests future => FirstSound f encode e s requests future
  | .second request requests future => SecondSound f encode e s request requests future
  | .handling future => f.Answers encode e future s.grpc

omit [AsyncRead ρ] [CodecCrates] in
def Decodes (decode : List UInt8 → Except Status Req) (s : OneRequest φ H ρ Req) : Prop :=
  match s.stage with
  | .first requests _ => requests.config.decode = decode
  | .second _ requests _ => requests.config.decode = decode
  | _ => True

variable [HeaderMap H] [Base64]

/-- What a poll that is as `sound` says comes to. -/
def Judged (decode : List UInt8 → Except Status Req) (encode : Resp → Except Status (List UInt8))
    (e : Encoding) (sound : Prop) : Poll (Except Status Resp) × OneRequest φ H ρ Req → Prop
  | (.pending, s) => sound ∧ s.Decodes decode
  | (.ready result, _) => (sound ↔ Sendable encode e result) ∧ Built H result

variable (hdecode : ∀ raw, Built H (decode raw))
  (hf : ∀ future grpc answer, (f.poll future grpc).1 = .ready answer → Built H answer)

include hf

omit [AsyncRead ρ] in
theorem pollHandler_sound (s : OneRequest φ H ρ Req) (future : φ) :
    Judged decode encode e (f.Answers encode e future s.grpc) (pollHandler f s future) := by
  have hbuilt := hf future s.grpc
  rw [Handler.Answers]
  rw [pollHandler]
  rcases hp : f.poll future s.grpc with ⟨_ | answer, future', grpc⟩
  · exact ⟨nofun, trivial⟩
  · rw [hp] at hbuilt
    refine ⟨⟨fun h => h answer rfl, fun h _ heq => ?_⟩, hbuilt answer rfl⟩
    cases heq
    exact h

omit hf in
include hdecode in
theorem recv_built {requests : RequestStream Req ρ} (hs : requests.config.decode = decode)
    {future : RecvFuture} {status : Status}
    (h : (requests.recv future).1 = .ready (.error status)) :
    Built H (.error status : Except Status T) := by
  intro own heq
  cases heq
  rcases RequestStream.recv_error h with hraised | ⟨raw, hraw⟩
  · exact (hraised.fails (H := H)).metadata
  · rw [hs] at hraw
    exact hdecode raw status hraw

include hdecode

theorem pollSecond_sound {requests : RequestStream Req ρ} (hs : requests.config.decode = decode)
    (request : Req) (future : RecvFuture) :
    Judged decode encode e (SecondSound f encode e s request requests future)
      (pollSecond f s request requests future) := by
  have hown : ∀ status, (requests.recv future).1 = .ready (.error status) →
      Built H (.error status : Except Status Resp) := fun _ h => recv_built hdecode hs h
  have hlater : (requests.recv future).2.1.config.decode = decode := by
    rw [RequestStream.recv_config, hs]
  rw [SecondSound]
  rw [pollSecond]
  rcases hp : requests.recv future with ⟨_ | (status | _ | second), later, future'⟩
  · rw [hp] at hlater
    exact ⟨trivial, hlater⟩
  · rw [hp] at hown
    exact ⟨Iff.rfl, hown status rfl⟩
  · exact pollHandler_sound hf _ _
  · have hcode : multipleRequests.code ≠ .ok := by decide
    exact ⟨iff_of_true trivial hcode, fun _ h => Except.error.inj h ▸ ⟨[], rfl⟩⟩

theorem pollFirst_sound {requests : RequestStream Req ρ} (hs : requests.config.decode = decode)
    (future : RecvFuture) : Judged decode encode e (FirstSound f encode e s requests future)
      (pollFirst f s requests future) := by
  have hown : ∀ status, (requests.recv future).1 = .ready (.error status) →
      Built H (.error status : Except Status Resp) := fun _ h => recv_built hdecode hs h
  have hlater : (requests.recv future).2.1.config.decode = decode := by
    rw [RequestStream.recv_config, hs]
  rw [FirstSound]
  rw [pollFirst]
  rcases hp : requests.recv future with ⟨_ | (status | _ | request), later, future'⟩
  · rw [hp] at hlater
    exact ⟨trivial, hlater⟩
  · rw [hp] at hown
    exact ⟨Iff.rfl, hown status rfl⟩
  · have hcode : noRequest.code ≠ .ok := by decide
    exact ⟨iff_of_true trivial hcode, fun _ h => Except.error.inj h ▸ ⟨[], rfl⟩⟩
  · rw [hp] at hlater
    exact pollSecond_sound hdecode hf hlater request .unresumed

theorem poll_sound (hs : s.Decodes decode) :
    Judged decode encode e (s.Sound decode f encode e) (poll decode f s) := by
  rw [poll, Sound]
  rw [Decodes] at hs
  cases hstage : s.stage with
  | start => exact pollFirst_sound hdecode hf rfl .unresumed
  | first requests future =>
      rw [hstage] at hs
      exact pollFirst_sound hdecode hf hs future
  | second request requests future =>
      rw [hstage] at hs
      exact pollSecond_sound hdecode hf hs request future
  | handling future => exact pollHandler_sound hf s future

theorem run_sound (encode : Resp → Except Status (List UInt8)) (e : Encoding) {c : Cancellation}
    {started : Bool} {sigs : List Signals} {s' : OneRequest φ H ρ Req}
    {result : Except Status Resp} (hs : s.Decodes decode)
    (hrun : c.run (poll decode f) started sigs s = (some result, s')) :
    (c.Meets (poll decode f) (Sound decode f encode e) started sigs s ↔
      Sendable encode e result) ∧ Built H result := by
  have hpending : ∀ s s' : OneRequest φ H ρ Req, s.Decodes decode →
      poll decode f s = (.pending, s') → s.Sound decode f encode e ∧ s'.Decodes decode := by
    intro s s' hs hp
    have hsound : Judged decode encode e (s.Sound decode f encode e) (poll decode f s) :=
      poll_sound hdecode hf hs
    rwa [hp] at hsound
  have hready : ∀ (s s' : OneRequest φ H ρ Req) result, s.Decodes decode →
      poll decode f s = (.ready result, s') →
        (s.Sound decode f encode e ↔ Sendable encode e result) ∧ Built H result := by
    intro s s' result hs hp
    have hsound : Judged decode encode e (s.Sound decode f encode e) (poll decode f s) :=
      poll_sound hdecode hf hs
    rwa [hp] at hsound
  exact Cancellation.meets_iff (fun _ h => h.sendable encode e) hpending hready hs hrun

end OneRequest

namespace Handling

variable [CodecCrates] [HeaderMap H] [Base64] {f : Handler φ H ρ Req Resp}

theorem run_sound (hf : ∀ future grpc answer, (f.poll future grpc).1 = .ready answer →
      Built H answer)
    (encode : Resp → Except Status (List UInt8)) (e : Encoding) {c : Cancellation} {started : Bool}
    {sigs : List Signals} {s s' : Handling φ H ρ} {result : Except Status Resp}
    (hrun : c.run f.resume started sigs s = (some result, s')) :
    (c.Meets f.resume (fun s => f.Answers encode e s.future s.grpc) started sigs s ↔
      Sendable encode e result) ∧ Built H result := by
  have hanswer : ∀ s : Handling φ H ρ, (f.resume s).1 = (f.poll s.future s.grpc).1 := fun _ => rfl
  have hpending : ∀ s s' : Handling φ H ρ, True → f.resume s = (.pending, s') →
      f.Answers encode e s.future s.grpc ∧ True := by
    intro s s' _ hp
    refine ⟨fun answer h => ?_, trivial⟩
    rw [← hanswer, hp] at h
    cases h
  have hready : ∀ (s s' : Handling φ H ρ) result, True → f.resume s = (.ready result, s') →
      (f.Answers encode e s.future s.grpc ↔ Sendable encode e result) ∧ Built H result := by
    intro s s' result _ hp
    have hpoll : (f.poll s.future s.grpc).1 = .ready result := by rw [← hanswer, hp]
    refine ⟨⟨fun h => h result hpoll, fun h answer heq => ?_⟩, hf _ _ _ hpoll⟩
    rw [hpoll] at heq
    cases heq
    exact h
  exact Cancellation.meets_iff (fun _ h => h.sendable encode e) hpending hready trivial hrun

end Handling

/-! ## Calls -/

section

variable [HeaderMap H] [Base64] [CodecCrates] [Features]

/-- At every poll of the course, the errors of the user's code are no `Ok` and its message
can be sent. -/
def UnarySound [AsyncRead ρ] (decode : List UInt8 → Except Status Req)
    (encode : Resp → Except Status (List UInt8)) (f : Handler φ H ρ Req Resp) (conn : Conn H ρ)
    (now now' : Instant) (sigs : List Signals) : Prop :=
  ∀ call, startCall conn now now' = .ok (.ok call) →
    call.cancellation.Meets (OneRequest.poll decode f)
      (OneRequest.Sound decode f encode call.responseEncoding) false sigs (.new call.grpc)

omit [Base64] in
def ClientStreamingSound (encode : Resp → Except Status (List UInt8))
    (f : Handler φ H ρ Unit Resp) (conn : Conn H ρ) (now now' : Instant) (sigs : List Signals) :
    Prop :=
  ∀ call, startCall conn now now' = .ok (.ok call) →
    call.cancellation.Meets f.resume
      (fun s => f.Answers encode call.responseEncoding s.future s.grpc) false sigs
      ⟨f.call (), call.grpc⟩

variable {encode : Resp → Except Status (List UInt8)} {conn : Conn H ρ} {now now' : Instant}
  {sigs : List Signals}

omit [CodecCrates] [Base64] in
theorem forall_admitted_iff {P : Admitted H ρ → Prop} {call : Admitted H ρ}
    (h : startCall conn now now' = .ok (.ok call)) :
    (∀ own, startCall conn now now' = .ok (.ok own) → P own) ↔ P call := by
  constructor
  · intro hall
    exact hall call h
  · intro hcall own hown
    rw [h] at hown
    cases hown
    exact hcall

omit [CodecCrates] [Base64] in
theorem forall_admitted_of_refused {P : Admitted H ρ → Prop} {status : Status}
    (h : startCall conn now now' = .ok (.error status)) :
    ∀ own, startCall conn now now' = .ok (.ok own) → P own := by
  intro own hown
  rw [h] at hown
  cases hown

theorem unaryImpl_wellFormed_iff [AsyncRead ρ] {decode : List UInt8 → Except Status Req}
    {f : Handler φ H ρ Req Resp} (hdecode : ∀ raw, Built H (decode raw))
    (hencode : ∀ resp, Built H (encode resp))
    (hf : ∀ future grpc answer, (f.poll future grpc).1 = .ready answer → Built H answer)
    {out : Dispatched H ρ Req (OneShotBody H)} {reply : Reply H ρ (OneShotBody H)}
    (h : unaryImpl decode encode f conn now now' sigs = .ok out) (hreply : out.reply = some reply) :
    reply.body.WellFormed ↔ UnarySound decode encode f conn now now' sigs := by
  obtain ⟨status | call, hadmitted, rfl⟩ := exists_of_map_ok h
  · cases hreply
    exact iff_of_true (.inr (errorResponse_refuses conn (startCall_error hadmitted).fails))
      (forall_admitted_of_refused hadmitted)
  · obtain ⟨result, hresult, rfl⟩ := Option.map_eq_some_iff.mp hreply
    have hrun : call.cancellation.run (OneRequest.poll decode f) false sigs (.new call.grpc) =
        (some result, (call.cancellation.run (OneRequest.poll decode f) false sigs
          (.new call.grpc)).2) := Prod.ext hresult rfl
    have hstart : (OneRequest.new call.grpc : OneRequest φ H ρ Req).Decodes decode := trivial
    obtain ⟨hsound, hbuilt⟩ :=
      OneRequest.run_sound hdecode hf encode call.responseEncoding hstart hrun
    rw [finishUnary_wellFormed_iff hencode _ hbuilt, ← hsound]
    rw [UnarySound, forall_admitted_iff hadmitted]

theorem clientStreamingImpl_wellFormed_iff {f : Handler φ H ρ Unit Resp}
    (hencode : ∀ resp, Built H (encode resp))
    (hf : ∀ future grpc answer, (f.poll future grpc).1 = .ready answer → Built H answer)
    {reply : Reply H ρ (OneShotBody H)}
    (h : clientStreamingImpl encode f conn now now' sigs = .ok (some reply)) :
    reply.body.WellFormed ↔ ClientStreamingSound encode f conn now now' sigs := by
  obtain ⟨status | call, hadmitted, hreply⟩ := exists_of_map_ok h
  · cases hreply
    exact iff_of_true (.inr (errorResponse_refuses conn (startCall_error hadmitted).fails))
      (forall_admitted_of_refused hadmitted)
  · obtain ⟨result, hresult, rfl⟩ := Option.map_eq_some_iff.mp hreply
    have hrun : call.cancellation.run f.resume false sigs ⟨f.call (), call.grpc⟩ =
        (some result, (call.cancellation.run f.resume false sigs ⟨f.call (), call.grpc⟩).2) :=
      Prod.ext hresult rfl
    obtain ⟨hsound, hbuilt⟩ := Handling.run_sound hf encode call.responseEncoding hrun
    rw [finishUnary_wellFormed_iff hencode _ hbuilt, ← hsound]
    rw [ClientStreamingSound, forall_admitted_iff hadmitted]

/-- The response of a unary or client-streaming call is well-formed exactly if no status
that its codec or its user function fails with has code `Ok`, and no payload is longer than
a length field can say. -/
theorem single_response_iff [AsyncRead ρ] {decode : List UInt8 → Except Status Req}
    {f : Handler φ H ρ Req Resp} {g : Handler φ H ρ Unit Resp}
    (hdecode : ∀ raw, Built H (decode raw)) (hencode : ∀ resp, Built H (encode resp))
    (hf : ∀ future grpc answer, (f.poll future grpc).1 = .ready answer → Built H answer)
    (hg : ∀ future grpc answer, (g.poll future grpc).1 = .ready answer → Built H answer)
    (conn : Conn H ρ) (now now' : Instant) (sigs : List Signals) :
    (∀ out reply, unaryImpl decode encode f conn now now' sigs = .ok out →
      out.reply = some reply →
        (reply.body.WellFormed ↔ UnarySound decode encode f conn now now' sigs)) ∧
    ∀ reply, clientStreamingImpl encode g conn now now' sigs = .ok (some reply) →
      (reply.body.WellFormed ↔ ClientStreamingSound encode g conn now now' sigs) :=
  ⟨fun _ _ h hreply => unaryImpl_wellFormed_iff hdecode hencode hf h hreply,
    fun _ h => clientStreamingImpl_wellFormed_iff hencode hg h⟩

end

/-- A call without any headers, and a user function that answers at once. -/
def bareConn : Conn HeaderList Script := ⟨empty, empty, none, ⟨[], [], none⟩, false⟩

def answering (answer : Except Status (List UInt8)) :
    Handler Unit HeaderList Script Unit (List UInt8) :=
  ⟨id, fun future grpc => (.ready answer, future, grpc)⟩

def onePoll : List Signals := [⟨epoch, false, false, false⟩]

theorem byte_answer_well_formed :
    letI := storedCrates
    letI := standardNoPad
    letI := allFeatures
    ∃ reply, clientStreamingImpl .ok (answering (.ok [7])) bareConn epoch epoch onePoll =
      .ok (some reply) ∧ reply.body.WellFormed := by
  let _ := storedCrates
  let _ := standardNoPad
  let _ := allFeatures
  have hok : ∀ bytes : List UInt8, Built HeaderList (.ok bytes : Except Status (List UInt8)) :=
    fun _ _ => nofun
  have hunit : ∀ bytes : List UInt8, Built HeaderList (.ok () : Except Status Unit) :=
    fun _ _ => nofun
  have hanswer : ∀ future grpc answer, ((answering (.ok [7])).poll future grpc).1 =
      .ready answer → Built HeaderList answer := by
    intro _ _ _ h
    cases h
    exact hok [7]
  have hadmitted : startCall bareConn epoch epoch =
      .ok (.ok ⟨⟨none⟩, .identity, bareConn, empty, .identity, none⟩) := rfl
  have hsound : ClientStreamingSound .ok (answering (.ok [7])) bareConn epoch epoch onePoll := by
    intro call hcall
    rw [hadmitted] at hcall
    cases hcall
    refine ⟨fun _ answer h => ?_, trivial⟩
    cases h
    intro flag payload hpayload
    cases hpayload
    decide
  obtain ⟨reply, hreply⟩ : ∃ reply, clientStreamingImpl .ok (answering (.ok [7])) bareConn epoch
    epoch onePoll = .ok (some reply) := ⟨_, rfl⟩
  exact ⟨reply, hreply, ((single_response_iff hunit hok hanswer hanswer bareConn epoch epoch
    onePoll).2 reply hreply).mpr hsound⟩

/-- The function fails with `Ok`: there is no message, and the status says that all went well. -/
theorem ok_error_malformed :
    letI := storedCrates
    letI := standardNoPad
    letI := allFeatures
    ∃ reply, clientStreamingImpl .ok (answering (.error .ok)) bareConn epoch epoch onePoll =
      .ok (some reply) ∧ ¬ reply.body.WellFormed := by
  let _ := storedCrates
  let _ := standardNoPad
  let _ := allFeatures
  refine ⟨_, rfl, fun h => ?_⟩
  exact (errorResponse_wellFormed_iff _ ⟨[], rfl⟩ _).mp h rfl

end TrilliumGrpc
