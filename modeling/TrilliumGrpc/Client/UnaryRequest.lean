import TrilliumGrpc.Client.UnaryVerdict

/-! # The request of an awaited call

What a unary or client-streaming call puts on the wire while it is awaited: nothing before
its request stream has ended, and then one request with the frames of all its messages.
-/

namespace TrilliumGrpc

open Async HeaderMap Time

variable {ρ ω H Req Resp σ : Type}

/-- The frames of `messages` behind what was buffered before. -/
def Framed [CodecCrates] (c : GrpcClientConn ρ ω H Req Resp) (p : Pending H)
    (messages : List Req) (body : List UInt8) : Prop :=
  ∃ fs, List.Forall₂ (fun m f => c.encodeMessage m = .ok f) messages fs ∧
    body = p.body ++ fs.flatten

section

variable [CodecCrates] {c : GrpcClientConn ρ ω H Req Resp} {p : Pending H}

theorem Framed.nothing : Framed c p [] p.body := ⟨[], .nil, (List.append_nil _).symm⟩

theorem Framed.snoc {messages : List Req} {body frame : List UInt8} {m : Req}
    (h : Framed c p messages body) (hm : c.encodeMessage m = .ok frame) :
    Framed c p (messages ++ [m]) (body ++ frame) := by
  obtain ⟨fs, hfs, rfl⟩ := h
  refine ⟨fs ++ [frame], List.rel_append hfs (.cons hm .nil), ?_⟩
  simp

end

def GrpcClientConn.buffering (c : GrpcClientConn ρ ω H Req Resp) (p : Pending H)
    (body : List UInt8) : GrpcClientConn ρ ω H Req Resp :=
  { c with inner := .pending { p with body } }

/-- The engine while its head is awaited: the body is in the request. -/
def GrpcClientConn.awaiting (c : GrpcClientConn ρ ω H Req Resp) (p : Pending H) :
    GrpcClientConn ρ ω H Req Resp :=
  c.buffering { p with sendClosed := true } []

section

variable [CodecCrates] [HeaderMap H] [Base64] [Features]

/-- The request of the call whose stream gave `messages`. -/
def Requests (c : GrpcClientConn ρ ω H Req Resp) (p : Pending H) (messages : List Req)
    (request : Request H) : Prop :=
  ∃ now body, Framed c p messages body ∧ request = c.buildRequest p now body

/-- What is on the wire: that request, or nothing. -/
def RequestsOnce (c : GrpcClientConn ρ ω H Req Resp) (p : Pending H) (messages : List Req)
    (w : World H) : Prop :=
  w.requests = [] ∨ ∃ request, w.requests = [request] ∧ Requests c p messages request

variable {c : GrpcClientConn ρ ω H Req Resp} {p : Pending H} {messages : List Req}

theorem RequestsOnce.of_opening {w : World H} {o : Opening H}
    (hrequest : Requests c p messages o.request)
    (hrequests : w.requests = if o.sent then [o.request] else []) :
    RequestsOnce c p messages w ∧ RequestsOnce c p messages (w.put o) := by
  unfold World.put
  cases hsent : o.sent with
  | true =>
      rw [hsent, if_pos rfl] at hrequests
      exact ⟨.inr ⟨_, hrequests, hrequest⟩, .inr ⟨_, hrequests, hrequest⟩⟩
  | false =>
      rw [hsent, if_neg Bool.false_ne_true] at hrequests
      refine ⟨.inl hrequests, .inr ⟨o.request, ?_, hrequest⟩⟩
      simp [hrequests]

variable [ResponseBody ρ H] [AsyncWrite ω]

def ClosingRequests (c : GrpcClientConn ρ ω H Req Resp) (p : Pending H) (messages : List Req)
    (step : OpStep ρ ω H Req Resp) : Prop :=
  match step.answer with
  | .pending => ∃ o, step.future = .opening .closeSend o ∧ step.call.conn = c.awaiting p ∧
      Requests c p messages o.request ∧
      step.call.world.requests = if o.sent then [o.request] else []
  | .ready answer => RequestsOnce c p messages step.call.world ∧
      ∀ item, answer.result = .ok item → ¬ step.call.conn.inner.IsPending

theorem Call.pollOpening_requests {s : Call ρ ω H Req Resp} (hmode : c.fullDuplex = false)
    (hconn : s.conn = c.awaiting p) {o : Opening H} (hrequest : Requests c p messages o.request)
    (hrequests : s.world.requests = if o.sent then [o.request] else []) (started : Bool)
    (tick : Tick ρ ω H) :
    ClosingRequests c p messages (s.pollOpening .closeSend o started tick) := by
  obtain ⟨honce, hput⟩ := RequestsOnce.of_opening (w := s.world.observe tick.opening) hrequest
    hrequests
  -- a failed open has no success for its answer
  have hfailed : ∀ status item, (Answer.result ((Op.closeSend : Op Req).failure status :
      Answer Resp)) = .ok item → False := nofun
  unfold pollOpening
  dsimp only
  cases interrupt s.conn.deadline started (s.world.observe tick.opening) tick.opening.timer with
  | some status => exact ⟨honce, fun item h => (hfailed status item h).elim⟩
  | none =>
      cases tick.net with
      | connecting => exact ⟨o, rfl, hconn, hrequest, hrequests⟩
      | sent =>
          refine ⟨{ o with sent := true }, rfl, hconn, hrequest, ?_⟩
          simp only [World.put]
          split
          · rename_i hsent
            rw [if_pos hsent] at hrequests
            exact hrequests
          · rename_i hsent
            rw [if_neg hsent] at hrequests
            simp [World.observe, hrequests]
      | refused e => exact ⟨honce, fun item h => (hfailed _ item h).elim⟩
      | broken e => exact ⟨hput, fun item h => (hfailed _ item h).elim⟩
      | response r =>
          dsimp only
          cases processHead r with
          | error status => exact ⟨hput, fun item h => (hfailed status item h).elim⟩
          | ok head =>
              have hinner : (s.conn.goLive r head).inner = .reading ⟨r.reader, head.responseHeaders,
                  .new, head.responseEncoding, head.headStatus⟩ := by
                rw [hconn]
                simp [GrpcClientConn.goLive, GrpcClientConn.awaiting, GrpcClientConn.buffering, hmode]
              simp only [afterOpen, hinner]
              refine ⟨hput, fun item _ h => ?_⟩
              change (s.conn.goLive r head).inner.IsPending at h
              rw [hinner] at h
              exact h

theorem Call.startClose_requests {s : Call ρ ω H Req Resp} (hmode : c.fullDuplex = false)
    {body : List UInt8} (hframed : Framed c p messages body) (hconn : s.conn = c.buffering p body)
    (hrequests : s.world.requests = []) (tick : Tick ρ ω H) :
    ClosingRequests c p messages (s.startClose tick) := by
  obtain ⟨conn, w⟩ := s
  subst hconn
  simp only [startClose, GrpcClientConn.buffering, materialize]
  cases hnone : c.initError with
  | some status =>
      refine ⟨.inl hrequests, fun item h => ?_⟩
      cases h
  | none =>
      refine pollOpening_requests hmode ?_ ⟨w.now.later tick.build, body, hframed, rfl⟩ hrequests
        false tick
      simp only [GrpcClientConn.awaiting, GrpcClientConn.buffering, hnone]

omit [Features] in
/-- A `recv` behind the open leaves the wire alone. -/
theorem Call.poll_recv_quiet {s : Call ρ ω H Req Resp} [Features] {future : OpFuture H Req}
    (hrecv : future.IsRecv) (hopened : ¬ s.conn.inner.IsPending) (tick : Tick ρ ω H) :
    Quiet s (s.poll tick future).call ∧
      ((s.poll tick future).answer = .pending → (s.poll tick future).future.IsRecv) := by
  cases future with
  | start op =>
      cases op with
      | recv =>
          have hdeliver : s.startRecv tick = s.deliver tick := by
            unfold startRecv
            split
            · rename_i hinner
              rw [hinner] at hopened
              exact absurd trivial hopened
            · rfl
          rw [Call.poll, hdeliver]
          refine ⟨.deliver hopened tick, fun h => ?_⟩
          rw [Quiet.deliver_future h]
          trivial
      | _ => exact hrecv.elim
  | reading =>
      refine ⟨.pollReading hopened true tick, fun h => ?_⟩
      rw [Call.poll, Quiet.pollReading_future h]
      trivial
  | _ => exact hrecv.elim

omit [ResponseBody ρ H] [AsyncWrite ω] in
theorem RequestsOnce.quiet {s s' : Call ρ ω H Req Resp} (h : RequestsOnce c p messages s.world)
    (hquiet : Quiet s s') : RequestsOnce c p messages s'.world := by
  rw [RequestsOnce, hquiet.requests]
  exact h

namespace UnaryAwait

variable [ItemSource σ Req]

/-- Up to the end of the stream its messages are in the body; then they are in the request. -/
def Requesting (c : GrpcClientConn ρ ω H Req Resp) (p : Pending H) (messages : List Req)
    (u : UnaryAwait ρ ω H Req Resp σ) : Prop :=
  match u.stage with
  | .pulling requests => messages = u.pulled ++ ItemSource.items requests ∧
      u.call.world.requests = [] ∧
        ∃ body, Framed c p u.pulled body ∧ u.call.conn = c.buffering p body
  | .sending requests future => messages = u.pulled ++ ItemSource.items requests ∧
      u.call.world.requests = [] ∧ ∃ before m body, future = .start (.send m) ∧
        u.pulled = before ++ [m] ∧ Framed c p before body ∧ u.call.conn = c.buffering p body
  | .closing (.start op) => op = .closeSend ∧ u.pulled = messages ∧ u.call.world.requests = [] ∧
      ∃ body, Framed c p messages body ∧ u.call.conn = c.buffering p body
  | .closing (.opening op o) => op = .closeSend ∧ u.pulled = messages ∧
      u.call.conn = c.awaiting p ∧ Requests c p messages o.request ∧
      u.call.world.requests = if o.sent then [o.request] else []
  | .closing _ => False
  | .reading future => future.IsRecv ∧ ¬ u.call.conn.inner.IsPending ∧ u.pulled = messages ∧
      RequestsOnce c p messages u.call.world
  | .confirming _ future => future.IsRecv ∧ ¬ u.call.conn.inner.IsPending ∧ u.pulled = messages ∧
      RequestsOnce c p messages u.call.world
  | .finished _ => RequestsOnce c p messages u.call.world

variable {u : UnaryAwait ρ ω H Req Resp σ}

omit [ResponseBody ρ H] [AsyncWrite ω] in
theorem Requesting.once (h : u.Requesting c p messages) :
    RequestsOnce c p messages u.call.world := by
  rw [Requesting] at h
  cases hstage : u.stage with
  | pulling requests => rw [hstage] at h; exact .inl h.2.1
  | sending requests future => rw [hstage] at h; exact .inl h.2.1
  | closing future =>
      rw [hstage] at h
      cases future with
      | start op => exact .inl h.2.2.1
      | opening op o => exact (RequestsOnce.of_opening h.2.2.2.1 h.2.2.2.2).1
      | _ => exact h.elim
  | reading future => rw [hstage] at h; exact h.2.2.2
  | confirming m future => rw [hstage] at h; exact h.2.2.2
  | finished result => rw [hstage] at h; exact h

theorem Requesting.step_closing {future : OpFuture H Req} (hstage : u.stage = .closing future)
    (hpulled : u.pulled = messages)
    (hpoll : ∀ tick, ClosingRequests c p messages (u.call.poll tick future)) (tick : Tick ρ ω H) :
    (u.step tick).Requesting c p messages := by
  have hclosing := hpoll tick
  rw [step, hstage]
  dsimp only
  rcases hp : u.call.poll tick future with ⟨_ | answer, call, later⟩
  · rw [hp] at hclosing
    obtain ⟨o, rfl, hconn, hrequest, hrequests⟩ := hclosing
    exact ⟨rfl, hpulled, hconn, hrequest, hrequests⟩
  · rw [hp] at hclosing
    obtain ⟨honce, hopened⟩ := hclosing
    dsimp only
    cases hresult : answer.result with
    | error status => exact honce
    | ok item => exact ⟨trivial, hopened item hresult, hpulled, honce⟩

theorem Requesting.step (hmode : c.fullDuplex = false) (hopen : p.sendClosed = false)
    (h : u.Requesting c p messages) (tick : Tick ρ ω H) :
    (u.step tick).Requesting c p messages := by
  cases hstage : u.stage with
  | pulling requests =>
      rw [Requesting, hstage] at h
      obtain ⟨hmessages, hnone, body, hframed, hconn⟩ := h
      rw [UnaryAwait.step, hstage]
      dsimp only
      cases hp : AsyncStream.pollNext requests with
      | mk answer left =>
          rcases answer with _ | _ | m
          · refine ⟨?_, hnone, body, hframed, hconn⟩
            rw [hmessages, (ItemSource.pending_spec hp).1]
          · rw [ItemSource.end_spec hp, List.append_nil] at hmessages
            subst hmessages
            exact ⟨rfl, rfl, hnone, body, hframed, hconn⟩
          · refine ⟨?_, hnone, u.pulled, m, body, rfl, rfl, hframed, hconn⟩
            rw [hmessages, ItemSource.item_spec hp]
            simp
  | sending requests future =>
      rw [Requesting, hstage] at h
      obtain ⟨hmessages, hnone, before, m, body, rfl, hpulled, hframed, hconn⟩ := h
      rw [UnaryAwait.step, hstage]
      dsimp only
      have hencode : u.call.conn.encodeMessage m = c.encodeMessage m := by rw [hconn]; rfl
      rw [Call.poll, Call.startSend, hencode]
      cases hm : c.encodeMessage m with
      | error status => exact .inl hnone
      | ok frame =>
          simp only [hconn, GrpcClientConn.buffering, hopen, Bool.false_eq_true, if_false,
            Call.finish, Answer.result, Except.map]
          refine ⟨hmessages, hnone, body ++ frame, ?_, ?_⟩
          · change Framed c p u.pulled (body ++ frame)
            rw [hpulled]
            exact hframed.snoc hm
          · simp only [GrpcClientConn.buffering, ← hopen]
  | closing future =>
      rw [Requesting, hstage] at h
      cases future with
      | start op =>
          obtain ⟨rfl, hpulled, hnone, body, hframed, hconn⟩ := h
          exact Requesting.step_closing hstage hpulled
            (fun tick => Call.startClose_requests hmode hframed hconn hnone tick) tick
      | opening op o =>
          obtain ⟨rfl, hpulled, hconn, hrequest, hrequests⟩ := h
          exact Requesting.step_closing hstage hpulled
            (fun tick => Call.pollOpening_requests hmode hconn hrequest hrequests true tick) tick
      | _ => exact h.elim
  | reading future =>
      rw [Requesting, hstage] at h
      obtain ⟨hrecv, hopened, hpulled, honce⟩ := h
      obtain ⟨hquiet, hlater⟩ := Call.poll_recv_quiet hrecv hopened tick
      cases hanswer : (u.call.poll tick future).answer with
      | pending =>
          rw [step_reading_pending hstage hanswer]
          exact ⟨hlater hanswer, hquiet.opened, hpulled, honce.quiet hquiet⟩
      | ready answer =>
          rw [step_reading_ready hstage hanswer]
          rcases hresult : answer.result with status | _ | m
          · exact honce.quiet hquiet
          · exact honce.quiet hquiet
          · exact ⟨trivial, hquiet.opened, hpulled, honce.quiet hquiet⟩
  | confirming m future =>
      rw [Requesting, hstage] at h
      obtain ⟨hrecv, hopened, hpulled, honce⟩ := h
      obtain ⟨hquiet, hlater⟩ := Call.poll_recv_quiet hrecv hopened tick
      cases hanswer : (u.call.poll tick future).answer with
      | pending =>
          rw [step_confirming_pending hstage hanswer]
          exact ⟨hlater hanswer, hquiet.opened, hpulled, honce.quiet hquiet⟩
      | ready answer =>
          rw [step_confirming_ready hstage hanswer]
          exact honce.quiet hquiet
  | finished result =>
      rw [UnaryAwait.step, hstage]
      exact h

omit [ResponseBody ρ H] [AsyncWrite ω] in
theorem Requesting.start {conn : UnaryConn ρ ω H Req Resp σ} (hinner : conn.engine.inner = .pending p)
    {w : World H} (hnone : w.requests = []) :
    (start conn w).Requesting conn.engine p
      ((conn.requests.map ItemSource.items).getD []) := by
  have hself : conn.engine = conn.engine.buffering p p.body := by
    rw [GrpcClientConn.buffering, ← hinner]
  unfold UnaryAwait.start
  cases conn.requests with
  | none => exact ⟨rfl, rfl, hnone, p.body, .nothing, hself⟩
  | some requests => exact ⟨rfl, hnone, p.body, .nothing, hself⟩

/-- However a call is polled and whatever its transport does: at any time it has put nothing
on the wire, or one request, whose body are the frames of all the messages of its stream,
in their order, behind what was buffered. -/
theorem one_request_of_all_messages {conn : UnaryConn ρ ω H Req Resp σ}
    (hinner : conn.engine.inner = .pending p) (hopen : p.sendClosed = false)
    (hmode : conn.engine.fullDuplex = false) {w : World H} (hnone : w.requests = [])
    (ticks : List (Tick ρ ω H)) :
    RequestsOnce conn.engine p ((conn.requests.map ItemSource.items).getD [])
      ((UnaryAwait.start conn w).run ticks).call.world := by
  have hkept : ((UnaryAwait.start conn w).run ticks).Requesting conn.engine p
      ((conn.requests.map ItemSource.items).getD []) :=
    kept_of_step (fun _ tick h => h.step hmode hopen tick) (Requesting.start hinner hnone) ticks
  exact hkept.once

end UnaryAwait

end

theorem streamed_message_requested :
    letI := storedCrates
    letI := standardNoPad
    letI := allFeatures
    RequestsOnce (plainConn false) ⟨empty, "/echo", "application/grpc+proto", .new, [], false⟩ [[7]]
      ((UnaryAwait.start plainStreaming (.fresh epoch)).run streamingTicks).call.world := by
  let _ := storedCrates
  let _ := standardNoPad
  let _ := allFeatures
  exact UnaryAwait.one_request_of_all_messages (show plainStreaming.engine.inner = _ from rfl)
    rfl rfl rfl streamingTicks

end TrilliumGrpc
