import TrilliumGrpc.Server.Cardinality

/-! # The answer of a unary call

What a call that nothing cancels answers to a body of one message: the result of the user
function's own future, called with that message, in one frame or in the trailers.
-/

namespace TrilliumGrpc

open Async ByteSource HeaderMap Time

variable {φ H ρ Req Resp T : Type}

/-- What the function's future comes to from here on, and the conn it leaves behind. -/
inductive Handler.Gives (f : Handler φ H ρ Req T) :
    φ → GrpcServerConn H ρ → Except Status T → GrpcServerConn H ρ → Prop where
  | ready {future later : φ} {grpc left : GrpcServerConn H ρ} {result : Except Status T}
      (poll : f.poll future grpc = (.ready result, later, left)) : f.Gives future grpc result left
  | pending {future later : φ} {grpc grpc' left : GrpcServerConn H ρ} {result : Except Status T}
      (poll : f.poll future grpc = (.pending, later, grpc'))
      (rest : f.Gives later grpc' result left) : f.Gives future grpc result left

theorem Handler.Gives.kept {f : Handler φ H ρ Req T} {K : GrpcServerConn H ρ → Prop}
    (hf : ∀ future grpc, K grpc → K (f.poll future grpc).2.2) {future : φ}
    {grpc left : GrpcServerConn H ρ} {result : Except Status T}
    (h : f.Gives future grpc result left) (hgrpc : K grpc) : K left := by
  induction h with
  | @ready future _ _ _ _ poll =>
      have hkept := hf future _ hgrpc
      rw [poll] at hkept
      exact hkept
  | @pending future _ _ _ _ _ poll rest ih =>
      have hkept := hf future _ hgrpc
      rw [poll] at hkept
      exact ih hkept

namespace OneRequest

variable {f : Handler φ H ρ Req T} {grpc : GrpcServerConn H ρ} {s : OneRequest φ H ρ Req}

/-- A call that started on `grpc`: what the future in hand comes to is what a call comes to. -/
def Standing (f : Handler φ H ρ Req T) (grpc : GrpcServerConn H ρ) (s : OneRequest φ H ρ Req) :
    Prop :=
  match s.stage with
  | .handling future => ∃ message body, s.invoked = [message] ∧ ∀ result left,
      f.Gives future s.grpc result left →
        f.Gives (f.call message) (grpc.withBody body) result left
  | _ => s.invoked = [] ∧ s.grpc = grpc

/-- The result is what a call of the function came to, if there was one. -/
def Answered (f : Handler φ H ρ Req T) (grpc : GrpcServerConn H ρ) (result : Except Status T)
    (s : OneRequest φ H ρ Req) : Prop :=
  s.invoked = [] ∨ ∃ message body, s.invoked = [message] ∧
    f.Gives (f.call message) (grpc.withBody body) result s.release

def PollAnswered (f : Handler φ H ρ Req T) (grpc : GrpcServerConn H ρ) :
    Poll (Except Status T) × OneRequest φ H ρ Req → Prop
  | (.pending, s) => s.Standing f grpc
  | (.ready result, s) => s.Answered f grpc result

theorem pollHandler_answered (message : Req) (body : ρ) (hinvoked : s.invoked = [message])
    (future : φ) (h : ∀ result left, f.Gives future s.grpc result left →
      f.Gives (f.call message) (grpc.withBody body) result left) :
    PollAnswered f grpc (pollHandler f s future) := by
  rw [pollHandler]
  rcases hp : f.poll future s.grpc with ⟨_ | result, later, left⟩
  · exact ⟨message, body, hinvoked, fun result left' hrest => h result left' (.pending hp hrest)⟩
  · exact .inr ⟨message, body, hinvoked, h result left (.ready hp)⟩

variable [AsyncRead ρ] [CodecCrates] {decode : List UInt8 → Except Status Req}

theorem pollSecond_answered (hinvoked : s.invoked = []) (hgrpc : s.grpc = grpc) (message : Req)
    (requests : RequestStream Req ρ) (future : RecvFuture) :
    PollAnswered f grpc (pollSecond f s message requests future) := by
  rw [pollSecond]
  rcases requests.recv future with ⟨_ | (status | _ | second), later, future'⟩
  · exact ⟨hinvoked, hgrpc⟩
  · exact .inl hinvoked
  · refine pollHandler_answered message later.reader ?_ _ ?_
    · rw [hinvoked, List.nil_append]
    · intro result left h
      rw [← hgrpc]
      exact h
  · exact .inl hinvoked

theorem pollFirst_answered (hinvoked : s.invoked = []) (hgrpc : s.grpc = grpc)
    (requests : RequestStream Req ρ) (future : RecvFuture) :
    PollAnswered f grpc (pollFirst f s requests future) := by
  rw [pollFirst]
  rcases requests.recv future with ⟨_ | (status | _ | message), later, future'⟩
  · exact ⟨hinvoked, hgrpc⟩
  · exact .inl hinvoked
  · exact .inl hinvoked
  · exact pollSecond_answered hinvoked hgrpc message later .unresumed

theorem poll_answered (h : s.Standing f grpc) : PollAnswered f grpc (poll decode f s) := by
  rw [poll]
  rw [Standing] at h
  cases hstage : s.stage with
  | start => rw [hstage] at h; exact pollFirst_answered h.1 h.2 _ _
  | first requests future => rw [hstage] at h; exact pollFirst_answered h.1 h.2 _ _
  | second message requests future => rw [hstage] at h; exact pollSecond_answered h.1 h.2 _ _ _
  | handling future =>
      rw [hstage] at h
      obtain ⟨message, body, hinvoked, hgives⟩ := h
      exact pollHandler_answered message body hinvoked future hgives

theorem run_answered {c : Cancellation} (h : s.Standing f grpc) {started : Bool}
    {sigs : List Signals} (hwhole : c.Uncancelled started sigs) {result : Except Status T}
    {s' : OneRequest φ H ρ Req} (hrun : c.run (poll decode f) started sigs s = (some result, s')) :
    s'.Answered f grpc result := by
  induction sigs generalizing s started with
  | nil => cases hrun
  | cons sig sigs ih =>
      have hpoll : PollAnswered f grpc (poll decode f s) := poll_answered h
      rcases hp : poll decode f s with ⟨_ | answer, next⟩
      · rw [hp] at hpoll
        rw [Cancellation.run_of_pending hwhole.1 hp] at hrun
        exact ih hpoll hwhole.2 hrun
      · rw [hp] at hpoll
        rw [Cancellation.run_of_ready hwhole.1 hp] at hrun
        cases hrun
        exact hpoll

/-- A future that comes to a result does so in a race that nothing cancels. -/
theorem handling_ends {c : Cancellation} {future : φ} {result : Except Status T}
    {left : GrpcServerConn H ρ} (h : f.Gives future grpc result left) (hgrpc : s.grpc = grpc)
    (hstage : s.stage = .handling future) :
    ∃ N, ∀ started sigs, c.Uncancelled started sigs → N ≤ sigs.length →
      (c.run (poll decode f) started sigs s).1.isSome := by
  induction h generalizing s with
  | @ready future later grpc left result hpoll =>
      have hp : poll decode f s =
          (.ready result, { s with grpc := left, stage := .handling later }) := by
        rw [poll, hstage]
        dsimp only
        rw [pollHandler, hgrpc, hpoll]
      refine Cancellation.exists_of_poll 0 fun started sig sigs hspares _ _ => ?_
      rw [Cancellation.run_of_ready hspares hp]
      rfl
  | @pending future later grpc grpc' left result hpoll rest ih =>
      have hp : poll decode f s =
          (.pending, { s with grpc := grpc', stage := .handling later }) := by
        rw [poll, hstage]
        dsimp only
        rw [pollHandler, hgrpc, hpoll]
      obtain ⟨N, hN⟩ := ih (s := { s with grpc := grpc', stage := .handling later }) rfl rfl
      refine Cancellation.exists_of_poll N fun started sig sigs hspares hwhole hlong => ?_
      rw [Cancellation.run_of_pending hspares hp]
      exact hN true sigs hwhole hlong

end OneRequest

/-- Every call of the function on this conn, wherever its body is left, comes to a result. -/
def Handler.Returns (f : Handler φ H ρ Req T) (grpc : GrpcServerConn H ρ) : Prop :=
  ∀ message body, ∃ result left, f.Gives (f.call message) (grpc.withBody body) result left

namespace OneRequest

variable [ByteSource ρ] [CodecCrates] {f : Handler φ H ρ Req T} {grpc : GrpcServerConn H ρ}
  {decode : List UInt8 → Except Status Req} {cfg : ReadConfig Req}
  {items : List (Option (Except Status Req))} {s : OneRequest φ H ρ Req}

omit [CodecCrates] [ByteSource ρ] in
/-- The future in hand comes to a result, or the function is still to be called. -/
def Returning (f : Handler φ H ρ Req T) (grpc : GrpcServerConn H ρ) (s : OneRequest φ H ρ Req) :
    Prop :=
  match s.stage with
  | .handling future => ∃ result left, f.Gives future s.grpc result left
  | _ => s.grpc = grpc

omit [ByteSource ρ] [CodecCrates] in
theorem pollHandler_returning {future : φ} {result : Except Status T} {left : GrpcServerConn H ρ}
    (h : f.Gives future s.grpc result left) (hpending : (pollHandler f s future).1 = .pending) :
    (pollHandler f s future).2.Returning f grpc := by
  rw [pollHandler] at hpending ⊢
  cases h with
  | ready hpoll => rw [hpoll] at hpending; cases hpending
  | pending hpoll rest =>
      rw [hpoll]
      exact ⟨result, left, rest⟩

theorem pollSecond_returning (hreturns : f.Returns grpc) (hgrpc : s.grpc = grpc) (message : Req)
    (requests : RequestStream Req ρ) (future : RecvFuture)
    (hpending : (pollSecond f s message requests future).1 = .pending) :
    (pollSecond f s message requests future).2.Returning f grpc := by
  rw [pollSecond] at hpending ⊢
  rcases hp : requests.recv future with ⟨_ | (status | _ | second), later, future'⟩
  · exact hgrpc
  · rw [hp] at hpending
    cases hpending
  · rw [hp] at hpending
    obtain ⟨result, left, hgives⟩ := hreturns message later.reader
    rw [← hgrpc] at hgives
    exact pollHandler_returning hgives hpending
  · rw [hp] at hpending
    cases hpending

theorem pollFirst_returning (hreturns : f.Returns grpc) (hgrpc : s.grpc = grpc)
    (requests : RequestStream Req ρ) (future : RecvFuture)
    (hpending : (pollFirst f s requests future).1 = .pending) :
    (pollFirst f s requests future).2.Returning f grpc := by
  rw [pollFirst] at hpending ⊢
  rcases hp : requests.recv future with ⟨_ | (status | _ | message), later, future'⟩
  · exact hgrpc
  · rw [hp] at hpending
    cases hpending
  · rw [hp] at hpending
    cases hpending
  · rw [hp] at hpending
    exact pollSecond_returning hreturns hgrpc message later .unresumed hpending

theorem poll_returning (hreturns : f.Returns grpc) (h : s.Returning f grpc)
    (hpending : (poll decode f s).1 = .pending) : (poll decode f s).2.Returning f grpc := by
  rw [poll] at hpending ⊢
  rw [Returning] at h
  cases hstage : s.stage with
  | start =>
      rw [hstage] at h hpending
      exact pollFirst_returning hreturns h _ _ hpending
  | first requests future =>
      rw [hstage] at h hpending
      exact pollFirst_returning hreturns h _ _ hpending
  | second message requests future =>
      rw [hstage] at h hpending
      exact pollSecond_returning hreturns h _ _ _ hpending
  | handling future =>
      rw [hstage] at h hpending
      obtain ⟨result, left, hgives⟩ := h
      exact pollHandler_returning hgives hpending

variable [HeaderMap H] [Base64]

/-- A race that nothing cancels ends, if the function's calls do. -/
theorem run_ends (hdecode : ∀ raw status, cfg.decode raw = .error status → status.Fails H)
    {c : Cancellation} (hreturns : f.Returns grpc) (hs : s.Reading decode cfg items)
    (hreturning : s.Returning f grpc) :
    ∃ N, ∀ started sigs, c.Uncancelled started sigs → N ≤ sigs.length →
      (c.run (poll decode f) started sigs s).1.isSome := by
  have hwf : WellFounded (Prod.Lex (· < ·) (Advanced (ρ := ρ))) :=
    WellFounded.prod_lex Nat.lt_wfRel.wf advanced_wf
  -- Induction on how far the reads have come, up to the call.
  induction hplace : s.place using hwf.induction generalizing s with
  | h place ih =>
      subst hplace
      have hpolled := poll_polled (f := f) hdecode hs
      have hnext : (poll decode f s).1 = .pending →
          (poll decode f s).2.Returning f grpc := poll_returning hreturns hreturning
      rcases hp : poll decode f s with ⟨_ | result, s'⟩
      · rw [hp] at hpolled hnext
        have hreturning' := hnext rfl
        have hlater : ∃ N, ∀ started sigs, c.Uncancelled started sigs → N ≤ sigs.length →
            (c.run (poll decode f) started sigs s').1.isSome := by
          by_cases hinvoked : s'.invoked = []
          · exact ih s'.place (hpolled.2 hinvoked) hpolled.1 hreturning' rfl
          · obtain ⟨⟨future, hstage⟩, _⟩ := hpolled.1.called hinvoked
            rw [Returning, hstage] at hreturning'
            obtain ⟨result, left, hgives⟩ := hreturning'
            exact handling_ends hgives rfl hstage
        obtain ⟨N, hN⟩ := hlater
        refine Cancellation.exists_of_poll N fun started sig sigs hspares hwhole hlong => ?_
        rw [Cancellation.run_of_pending hspares hp]
        exact hN true sigs hwhole hlong
      · refine Cancellation.exists_of_poll 0 fun started sig sigs hspares _ _ => ?_
        rw [Cancellation.run_of_ready hspares hp]
        rfl

end OneRequest

/-! ## Calls -/

variable [ByteSource ρ] [CodecCrates] [HeaderMap H] [Base64] [Features]

omit [Features] in
/-- A call that nothing cancels, of a body that is one message: its race ends, if the function
returns, and by then the function was called once, with that message. -/
theorem OneRequest.run_single {decode : List UInt8 → Except Status Req}
    (hdecode : ∀ raw status, decode raw = .error status → status.Fails H) (f : Handler φ H ρ Req T)
    {call : Admitted H ρ} {message : Req}
    (hsingle : SingleFrame ⟨decode, call.grpc.requestEncoding, defaultMaxMessageSize⟩
      (fault call.grpc.conn.requestBody) (rest call.grpc.conn.requestBody) message)
    (hreturns : f.Returns call.grpc) :
    (∃ N, ∀ sigs, call.cancellation.Uncancelled false sigs → N ≤ sigs.length →
      (call.cancellation.run (poll decode f) false sigs (.new call.grpc)).1.isSome) ∧
    ∀ sigs result s, call.cancellation.Uncancelled false sigs →
      call.cancellation.run (poll decode f) false sigs (.new call.grpc) = (some result, s) →
        s.invoked = [message] ∧
          ∃ body, f.Gives (f.call message) (call.grpc.withBody body) result s.release := by
  rw [← parse_eq_single_iff] at hsingle
  have hstart : (OneRequest.new call.grpc : OneRequest φ H ρ Req).Reading decode
      ⟨decode, call.grpc.requestEncoding, defaultMaxMessageSize⟩ [some (.ok message), none] := by
    refine ⟨rfl, rfl, ?_⟩
    rw [← hsingle]
    exact follow_ahead_new _ _
  have hstanding : (OneRequest.new call.grpc : OneRequest φ H ρ Req).Standing f call.grpc :=
    ⟨rfl, rfl⟩
  refine ⟨?_, fun sigs result s hwhole hrun => ?_⟩
  · obtain ⟨N, hN⟩ := run_ends (c := call.cancellation) hdecode hreturns hstart rfl
    exact ⟨N, hN false⟩
  · have hanswered := run_answered hstanding hwhole hrun
    obtain ⟨m, hinvoked, hitems⟩ | ⟨_, hnever, _⟩ := run_settled hdecode hstart hwhole hrun
    · cases hitems
      refine ⟨hinvoked, ?_⟩
      rcases hanswered with hnone | ⟨m', body, hinvoked', hgives⟩
      · rw [hinvoked] at hnone
        cases hnone
      · rw [hinvoked] at hinvoked'
        cases hinvoked'
        exact ⟨body, hgives⟩
    · exact absurd rfl (hnever message)

/-- A unary call with one request answers, if the function returns, and the response is made
of what the one call of it came to. -/
theorem unaryImpl_answers {decode : List UInt8 → Except Status Req}
    (hdecode : ∀ raw status, decode raw = .error status → status.Fails H)
    (encode : Resp → Except Status (List UInt8)) (f : Handler φ H ρ Req Resp) {conn : Conn H ρ}
    {now now' : Instant} {call : Admitted H ρ} (hcall : startCall conn now now' = .ok (.ok call))
    {message : Req}
    (hsingle : SingleFrame ⟨decode, call.grpc.requestEncoding, defaultMaxMessageSize⟩
      (fault conn.requestBody) (rest conn.requestBody) message)
    (hreturns : f.Returns call.grpc) :
    (∃ N, ∀ sigs, call.cancellation.Uncancelled false sigs → N ≤ sigs.length →
      ∃ reply invoked, unaryImpl decode encode f conn now now' sigs = .ok ⟨some reply, invoked⟩) ∧
    ∀ sigs reply invoked, call.cancellation.Uncancelled false sigs →
      unaryImpl decode encode f conn now now' sigs = .ok ⟨some reply, invoked⟩ →
        invoked = [message] ∧ ∃ body result left,
          f.Gives (f.call message) (call.grpc.withBody body) result left ∧
            reply =
              finishUnary encode left.conn result call.responseEncoding left.responseTrailers := by
  have hconn : call.grpc.conn = conn := (startCall_ok hcall).2.2.1
  rw [← hconn] at hsingle
  obtain ⟨hends, hruns⟩ := OneRequest.run_single hdecode f hsingle hreturns
  refine ⟨?_, fun sigs reply invoked hwhole hout => ?_⟩
  · obtain ⟨N, hN⟩ := hends
    refine ⟨N, fun sigs hwhole hlong => ?_⟩
    obtain ⟨result, hresult⟩ := Option.isSome_iff_exists.mp (hN sigs hwhole hlong)
    simp only [unaryImpl, hcall, Except.map, hresult, Option.map_some]
    exact ⟨_, _, rfl⟩
  simp only [unaryImpl, hcall, Except.map] at hout
  cases hrun : call.cancellation.run (OneRequest.poll decode f) false sigs (.new call.grpc) with
  | mk result s =>
      rw [hrun, Except.ok.injEq, Dispatched.mk.injEq] at hout
      obtain ⟨hreply, rfl⟩ := hout
      obtain ⟨result, rfl, rfl⟩ := Option.map_eq_some_iff.mp hreply
      obtain ⟨hinvoked, body, hgives⟩ := hruns sigs result s hwhole hrun
      exact ⟨hinvoked, body, result, _, hgives, rfl⟩

/-- A server-streaming call, likewise: the stream that the function gave is in its body. -/
theorem serverStreamingImpl_answers {σ : Type} {decode : List UInt8 → Except Status Req}
    (hdecode : ∀ raw status, decode raw = .error status → status.Fails H)
    (encode : Resp → Except Status (List UInt8)) (f : Handler φ H ρ Req σ) {conn : Conn H ρ}
    {now now' : Instant} {call : Admitted H ρ} (hcall : startCall conn now now' = .ok (.ok call))
    {message : Req}
    (hsingle : SingleFrame ⟨decode, call.grpc.requestEncoding, defaultMaxMessageSize⟩
      (fault conn.requestBody) (rest conn.requestBody) message)
    (hreturns : f.Returns call.grpc) :
    (∃ N, ∀ sigs, call.cancellation.Uncancelled false sigs → N ≤ sigs.length →
      ∃ reply invoked,
        serverStreamingImpl decode encode f conn now now' sigs = .ok ⟨some reply, invoked⟩) ∧
    ∀ sigs reply invoked, call.cancellation.Uncancelled false sigs →
      serverStreamingImpl decode encode f conn now now' sigs = .ok ⟨some reply, invoked⟩ →
        invoked = [message] ∧ ∃ body result left,
          f.Gives (f.call message) (call.grpc.withBody body) result left ∧
            reply.conn = left.conn ∧ ∀ stream, result = .ok stream →
              reply.body = .streaming
                (.new stream encode call.responseEncoding left.responseTrailers true) := by
  have hconn : call.grpc.conn = conn := (startCall_ok hcall).2.2.1
  rw [← hconn] at hsingle
  obtain ⟨hends, hruns⟩ := OneRequest.run_single hdecode f hsingle hreturns
  refine ⟨?_, fun sigs reply invoked hwhole hout => ?_⟩
  · obtain ⟨N, hN⟩ := hends
    refine ⟨N, fun sigs hwhole hlong => ?_⟩
    obtain ⟨result, hresult⟩ := Option.isSome_iff_exists.mp (hN sigs hwhole hlong)
    simp only [serverStreamingImpl, hcall, Except.map, hresult, Option.map_some]
    exact ⟨_, _, rfl⟩
  simp only [serverStreamingImpl, hcall, Except.map] at hout
  cases hrun : call.cancellation.run (OneRequest.poll decode f) false sigs (.new call.grpc) with
  | mk result s =>
      rw [hrun, Except.ok.injEq, Dispatched.mk.injEq] at hout
      obtain ⟨hreply, rfl⟩ := hout
      obtain ⟨result, rfl, rfl⟩ := Option.map_eq_some_iff.mp hreply
      obtain ⟨hinvoked, body, hgives⟩ := hruns sigs result s hwhole hrun
      refine ⟨hinvoked, body, result, _, hgives, ?_, ?_⟩
      · cases result with
        | ok stream => rfl
        | error status => rfl
      · rintro stream rfl
        rfl

end TrilliumGrpc
