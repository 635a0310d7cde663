import TrilliumGrpc.Client.Operations
import TrilliumGrpc.Frame.RoundTrip

/-! # What a call puts on the wire

The requests and live writes of whole runs of a client connection. An operation
that opens the call takes the body out of the pending state before it awaits the
head, so the law of one request holds as long as no future is dropped at that
await.
-/

namespace TrilliumGrpc

open Async HeaderMap Time

variable {ρ ω H Req Resp : Type}

/-! ## Steps that issue nothing -/

def Inner.IsPending : Inner ρ ω H → Prop
  | .pending _ => True
  | _ => False

/-- The call's wire and its encoding are as they were, and it is past pending. -/
structure Quiet (s s' : Call ρ ω H Req Resp) : Prop where
  requests : s'.world.requests = s.world.requests
  live : s'.world.live = s.world.live
  encode : s'.conn.encode = s.conn.encode
  outbound : s'.conn.outboundEncoding = s.conn.outboundEncoding
  opened : ¬ s'.conn.inner.IsPending

namespace Quiet

section

variable [ResponseBody ρ H] [CodecCrates]

theorem pollRead {c : GrpcClientConn ρ ω H Req Resp} (h : ¬ c.inner.IsPending) :
    c.pollRead.2.encode = c.encode ∧ c.pollRead.2.outboundEncoding = c.outboundEncoding ∧
      ¬ c.pollRead.2.inner.IsPending := by
  unfold GrpcClientConn.pollRead
  split
  · exact ⟨rfl, rfl, id⟩
  · exact ⟨rfl, rfl, id⟩
  · exact ⟨rfl, rfl, h⟩

variable [HeaderMap H] [Base64]

theorem pollReading {s : Call ρ ω H Req Resp} (h : ¬ s.conn.inner.IsPending) (started : Bool)
    (tick : Tick ρ ω H) : Quiet s (s.pollReading started tick).call := by
  unfold Call.pollReading
  dsimp only
  cases interrupt s.conn.deadline started (s.world.observe tick.live) tick.live.timer with
  | some status => exact ⟨rfl, rfl, rfl, rfl, h⟩
  | none =>
      have hread := pollRead h
      cases hp : s.conn.pollRead with
      | mk answer conn =>
          rw [hp] at hread
          obtain ⟨henc, hout, hopened⟩ := hread
          cases answer with
          | pending => exact ⟨rfl, rfl, henc, hout, hopened⟩
          | ready item =>
              dsimp only
              rcases conn.readOutcome_conn item with ⟨_, _, _, heq⟩ | ⟨_, _, heq, _⟩
              · simp only [heq]
                exact ⟨rfl, rfl, henc, hout, hopened⟩
              · simp only [Call.finish, heq]
                exact ⟨rfl, rfl, henc, hout, id⟩

theorem deliver {s : Call ρ ω H Req Resp} (h : ¬ s.conn.inner.IsPending) (tick : Tick ρ ω H) :
    Quiet s (s.deliver tick).call := by
  unfold Call.deliver
  split
  · exact ⟨rfl, rfl, rfl, rfl, h⟩
  · exact ⟨rfl, rfl, rfl, rfl, id⟩
  · exact pollReading h false tick

omit [ResponseBody ρ H] [CodecCrates] [HeaderMap H] [Base64] in
theorem pollClosing [AsyncWrite ω] (s : Call ρ ω H Req Resp) (live : Live (Duplex ρ ω) H) :
    Quiet s (s.pollClosing live).call := by
  unfold Call.pollClosing
  split
  dsimp only
  split <;> exact ⟨rfl, rfl, rfl, rfl, id⟩

theorem pollReading_future {s : Call ρ ω H Req Resp} {started : Bool} {tick : Tick ρ ω H}
    (h : (s.pollReading started tick).answer = .pending) :
    (s.pollReading started tick).future = .reading := by
  revert h
  unfold Call.pollReading
  dsimp only
  cases interrupt s.conn.deadline started (s.world.observe tick.live) tick.live.timer with
  | some status => exact fun h => by simp [Call.finish] at h
  | none =>
      cases s.conn.pollRead with
      | mk answer conn =>
          cases answer with
          | pending => exact fun _ => rfl
          | ready item => exact fun h => by simp [Call.finish] at h

theorem deliver_future {s : Call ρ ω H Req Resp} {tick : Tick ρ ω H}
    (h : (s.deliver tick).answer = .pending) : (s.deliver tick).future = .reading := by
  unfold Call.deliver at h ⊢
  split at h
  · simp [Call.finish] at h
  · simp [Call.finish] at h
  · exact pollReading_future h

omit [ResponseBody ρ H] [CodecCrates] [HeaderMap H] [Base64] in
theorem pollClosing_future [AsyncWrite ω] {s : Call ρ ω H Req Resp} {live : Live (Duplex ρ ω) H}
    (h : (s.pollClosing live).answer = .pending) : (s.pollClosing live).future = .closing := by
  revert h
  unfold Call.pollClosing
  split
  dsimp only
  split
  · exact fun _ => rfl
  · exact fun h => by simp [Call.finish] at h

theorem afterOpen [AsyncWrite ω] {s : Call ρ ω H Req Resp} (h : ¬ s.conn.inner.IsPending)
    (op : Op Req) (tick : Tick ρ ω H) : Quiet s (s.afterOpen op tick).call := by
  unfold Call.afterOpen
  split
  · exact deliver h tick
  · split
    · exact pollClosing s _
    · exact ⟨rfl, rfl, rfl, rfl, h⟩
  · exact ⟨rfl, rfl, rfl, rfl, h⟩

theorem afterOpen_future [AsyncWrite ω] {s : Call ρ ω H Req Resp} {op : Op Req}
    {tick : Tick ρ ω H} (h : (s.afterOpen op tick).answer = .pending) :
    (op = .recv ∧ (s.afterOpen op tick).future = .reading) ∨
      (op = .closeSend ∧ (s.afterOpen op tick).future = .closing) := by
  revert h
  unfold Call.afterOpen
  split
  · exact fun h => .inl ⟨rfl, deliver_future h⟩
  · split
    · exact fun h => .inr ⟨rfl, pollClosing_future h⟩
    · exact fun h => by simp [Call.finish] at h
  · exact fun h => by simp [Call.finish] at h

end

end Quiet

/-! ## The frames of a run -/

/-- What one operation adds to the request: its frame if it is a send that
succeeded, at most a part of its frame if it is any other send, else nothing. -/
def Part (encodeMessage : Req → Except Status (List UInt8)) :
    Op Req × Option (Answer Resp) → List UInt8 → Prop
  | (.send message, some (.unit (.ok ()))), part => encodeMessage message = .ok part
  | (.send message, _), part =>
      part = [] ∨ ∃ frame, encodeMessage message = .ok frame ∧ part <+: frame
  | _, part => part = []

def Carried (encodeMessage : Req → Except Status (List UInt8))
    (log : List (Op Req × Option (Answer Resp))) (bytes : List UInt8) : Prop :=
  ∃ parts, List.Forall₂ (Part encodeMessage) log parts ∧ bytes = parts.flatten

variable {encodeMessage : Req → Except Status (List UInt8)}
  {log : List (Op Req × Option (Answer Resp))}

theorem Carried.snoc {bytes part : List UInt8} {entry : Op Req × Option (Answer Resp)}
    (h : Carried encodeMessage log bytes) (hpart : Part encodeMessage entry part) :
    Carried encodeMessage (log ++ [entry]) (bytes ++ part) := by
  obtain ⟨parts, hparts, rfl⟩ := h
  refine ⟨parts ++ [part], ?_, by simp⟩
  exact List.rel_append hparts (.cons hpart .nil)

theorem Part.nothing {op : Op Req} {answer : Option (Answer Resp)}
    (h : ∀ message, op = .send message → answer ≠ some (.unit (.ok ()))) :
    Part encodeMessage (op, answer) [] := by
  cases op with
  | send message =>
      match answer with
      | some (.unit (.ok ())) => exact absurd rfl (h message rfl)
      | some (.unit (.error status)) => exact .inl rfl
      | some (.item result) => exact .inl rfl
      | none => exact .inl rfl
  | closeSend => rfl
  | openHead => rfl
  | recv => rfl

theorem Part.torn {message : Req} {answer : Option (Answer Resp)} {frame part : List UInt8}
    (hframe : encodeMessage message = .ok frame) (hpart : part <+: frame)
    (h : answer ≠ some (.unit (.ok ()))) : Part encodeMessage (.send message, answer) part := by
  match answer with
  | some (.unit (.ok ())) => exact absurd rfl h
  | some (.unit (.error status)) => exact .inr ⟨frame, hframe, hpart⟩
  | some (.item result) => exact .inr ⟨frame, hframe, hpart⟩
  | none => exact .inr ⟨frame, hframe, hpart⟩

/-- One request at most, which with the live writes carries the frames. -/
def Wired (encodeMessage : Req → Except Status (List UInt8))
    (log : List (Op Req × Option (Answer Resp))) (w : World H) : Prop :=
  w.requests = [] ∨
    ∃ request, w.requests = [request] ∧ Carried encodeMessage log (request.body ++ w.live)

/-- Before its request is issued the call's body carries the frames. -/
def Issued (encodeMessage : Req → Except Status (List UInt8))
    (log : List (Op Req × Option (Answer Resp))) (w : World H) : Inner ρ ω H → Prop
  | .pending p => w.requests = [] ∧ w.live = [] ∧ Carried encodeMessage log p.body
  | _ => Wired encodeMessage log w

theorem Issued.of_wired {w : World H} {inner : Inner ρ ω H} (hopened : ¬ inner.IsPending)
    (h : Wired encodeMessage log w) : Issued encodeMessage log w inner := by
  cases inner with
  | pending p => exact absurd trivial hopened
  | _ => exact h

theorem Issued.wired {w : World H} {inner : Inner ρ ω H} (hopened : ¬ inner.IsPending)
    (h : Issued encodeMessage log w inner) : Wired encodeMessage log w := by
  cases inner with
  | pending p => exact absurd trivial hopened
  | _ => exact h

/-- What holds while an operation is suspended. At the await of the head the body
is in the request and nowhere else; in a write a part of the frame is out. -/
def Suspended (encodeMessage : Req → Except Status (List UInt8))
    (log : List (Op Req × Option (Answer Resp))) (op : Op Req) (s : Call ρ ω H Req Resp) :
    OpFuture H Req → Prop
  | .start op' => op' = op ∧ Issued encodeMessage log s.world s.conn.inner
  | .opening op' o => op' = op ∧ (∀ message, op ≠ .send message) ∧ s.world.live = [] ∧
      s.world.requests = (if o.sent then [o.request] else []) ∧
      Carried encodeMessage log o.request.body
  | .writing frame left => ¬ s.conn.inner.IsPending ∧
      (∃ message, op = .send message ∧ encodeMessage message = .ok frame) ∧
      (s.world.requests = [] ∨ ∃ request sent accepted, s.world.requests = [request] ∧
        request.body ++ s.world.live = sent ++ accepted ∧ frame = accepted ++ left ∧
        Carried encodeMessage log sent)
  | .closing => op = .closeSend ∧ ¬ s.conn.inner.IsPending ∧ Wired encodeMessage log s.world
  | .reading => op = .recv ∧ ¬ s.conn.inner.IsPending ∧ Wired encodeMessage log s.world

section

variable [CodecCrates]

def StepIssued (encodeMessage : Req → Except Status (List UInt8))
    (log : List (Op Req × Option (Answer Resp))) (op : Op Req) (step : OpStep ρ ω H Req Resp) :
    Prop :=
  step.call.conn.encodeMessage = encodeMessage ∧
    match step.answer with
    | .pending => Suspended encodeMessage log op step.call step.future
    | .ready answer =>
        Issued encodeMessage (log ++ [(op, some answer)]) step.call.world step.call.conn.inner

omit [CodecCrates] in
theorem Wired.nothing {w : World H} {op : Op Req} {answer : Option (Answer Resp)}
    (h : Wired encodeMessage log w)
    (hop : ∀ message, op = .send message → answer ≠ some (.unit (.ok ()))) :
    Wired encodeMessage (log ++ [(op, answer)]) w := by
  rcases h with h | ⟨request, hrequest, hcarried⟩
  · exact .inl h
  · refine .inr ⟨request, hrequest, ?_⟩
    have hsnoc := hcarried.snoc (Part.nothing hop)
    rwa [List.append_nil] at hsnoc

omit [CodecCrates] in
theorem Issued.nothing {w : World H} {inner : Inner ρ ω H} {op : Op Req}
    {answer : Option (Answer Resp)} (h : Issued encodeMessage log w inner)
    (hop : ∀ message, op = .send message → answer ≠ some (.unit (.ok ()))) :
    Issued encodeMessage (log ++ [(op, answer)]) w inner := by
  cases inner with
  | pending p =>
      obtain ⟨hrequests, hlive, hcarried⟩ := h
      refine ⟨hrequests, hlive, ?_⟩
      have hsnoc := hcarried.snoc (Part.nothing hop)
      rwa [List.append_nil] at hsnoc
  | _ => exact Wired.nothing h hop

/-- A step that issues nothing adds nothing. -/
theorem StepIssued.of_quiet {s : Call ρ ω H Req Resp} {op : Op Req} {step : OpStep ρ ω H Req Resp}
    (hop : ∀ message, op ≠ .send message) (henc : s.conn.encodeMessage = encodeMessage)
    (hwired : Wired encodeMessage log s.world) (hquiet : Quiet s step.call)
    (hfuture : step.answer = .pending →
      (op = .recv ∧ step.future = .reading) ∨ (op = .closeSend ∧ step.future = .closing)) :
    StepIssued encodeMessage log op step := by
  have hwired' : Wired encodeMessage log step.call.world := by
    rw [Wired, hquiet.requests, hquiet.live]
    exact hwired
  refine ⟨?_, ?_⟩
  · rw [← henc]
    unfold GrpcClientConn.encodeMessage
    rw [hquiet.encode, hquiet.outbound]
  · cases ha : step.answer with
    | pending =>
        rcases hfuture ha with ⟨hrecv, hfut⟩ | ⟨hclose, hfut⟩
        · rw [hfut]
          exact ⟨hrecv, hquiet.opened, hwired'⟩
        · rw [hfut]
          exact ⟨hclose, hquiet.opened, hwired'⟩
    | ready answer =>
        exact .of_wired hquiet.opened (hwired'.nothing (fun m hm => absurd hm (hop m)))

variable {s : Call ρ ω H Req Resp} {op : Op Req} {o : Opening H}

omit [CodecCrates] in
theorem Wired.put {w : World H} (hlive : w.live = [])
    (hrequests : w.requests = if o.sent then [o.request] else [])
    (hcarried : Carried encodeMessage log o.request.body) :
    Wired encodeMessage log (w.put o) := by
  refine .inr ⟨o.request, ?_⟩
  unfold World.put
  split
  · rename_i hsent
    rw [if_pos hsent] at hrequests
    exact ⟨hrequests, by rwa [hlive, List.append_nil]⟩
  · rename_i hsent
    rw [if_neg hsent] at hrequests
    exact ⟨by simp [hrequests], by simpa [hlive] using hcarried⟩

omit [CodecCrates] in
theorem Wired.of_opening {w : World H} (hlive : w.live = [])
    (hrequests : w.requests = if o.sent then [o.request] else [])
    (hcarried : Carried encodeMessage log o.request.body) : Wired encodeMessage log w := by
  cases hs : o.sent with
  | true =>
      rw [hs, if_pos rfl] at hrequests
      exact .inr ⟨o.request, hrequests, by rwa [hlive, List.append_nil]⟩
  | false =>
      rw [hs, if_neg Bool.false_ne_true] at hrequests
      exact .inl hrequests

theorem StepIssued.of_failed {c : GrpcClientConn ρ ω H Req Resp} {w : World H} {status : Status}
    {answer : Answer Resp} (hop : ∀ message, op ≠ .send message)
    (henc : c.encodeMessage = encodeMessage) (hwired : Wired encodeMessage log w) :
    StepIssued encodeMessage log op (Call.finish ⟨c.fail status, w⟩ op answer) :=
  ⟨henc, hwired.nothing (fun m hm => absurd hm (hop m))⟩

theorem goLive_encodeMessage (c : GrpcClientConn ρ ω H Req Resp) (r : Response ρ ω H)
    (head : Head H) : (c.goLive r head).encodeMessage = c.encodeMessage ∧
      ¬ (c.goLive r head).inner.IsPending := by
  unfold GrpcClientConn.goLive
  split <;> exact ⟨rfl, id⟩

variable [ResponseBody ρ H] [AsyncWrite ω] [HeaderMap H] [Base64] [Features]

theorem pollOpening_issued (henc : s.conn.encodeMessage = encodeMessage)
    (h : Suspended encodeMessage log op s (.opening op o)) (started : Bool) (tick : Tick ρ ω H) :
    StepIssued encodeMessage log op (s.pollOpening op o started tick) := by
  obtain ⟨_, hop, hlive, hrequests, hcarried⟩ := h
  have hopen : Wired encodeMessage log (s.world.observe tick.opening) :=
    .of_opening hlive hrequests hcarried
  have hput : Wired encodeMessage log ((s.world.observe tick.opening).put o) :=
    .put hlive hrequests hcarried
  unfold Call.pollOpening
  dsimp only
  cases interrupt s.conn.deadline started (s.world.observe tick.opening) tick.opening.timer with
  | some status => exact .of_failed hop henc hopen
  | none =>
      cases tick.net with
      | connecting => exact ⟨henc, rfl, hop, hlive, hrequests, hcarried⟩
      | sent =>
          refine ⟨henc, rfl, hop, ?_, ?_, hcarried⟩
          · simp only [World.put]
            split <;> exact hlive
          · simp only [World.put]
            split
            · rename_i hsent
              rw [if_pos hsent] at hrequests
              exact hrequests
            · rename_i hsent
              rw [if_neg hsent] at hrequests
              simp [World.observe, hrequests]
      | refused e => exact .of_failed hop henc hopen
      | broken e => exact .of_failed hop henc hput
      | response r =>
          dsimp only
          cases processHead r with
          | error status => exact .of_failed hop henc hput
          | ok head =>
              obtain ⟨hmessage, hopened⟩ := goLive_encodeMessage s.conn r head
              exact .of_quiet hop (hmessage.trans henc) hput (Quiet.afterOpen hopened op tick)
                Quiet.afterOpen_future

theorem materialize_issued {p : Pending H} (hop : ∀ message, op ≠ .send message)
    (henc : s.conn.encodeMessage = encodeMessage) (hrequests : s.world.requests = [])
    (hlive : s.world.live = []) (hcarried : Carried encodeMessage log p.body)
    (tick : Tick ρ ω H) : StepIssued encodeMessage log op (s.materialize p op tick) := by
  unfold Call.materialize
  cases s.conn.initError with
  | some status => exact .of_failed hop henc (.inl hrequests)
  | none =>
      apply pollOpening_issued
      · exact henc
      · exact ⟨rfl, hop, hlive, hrequests, hcarried⟩

/-! ## Sends -/

omit [CodecCrates] [ResponseBody ρ H] [AsyncWrite ω] [HeaderMap H] [Base64] [Features] in
theorem Wired.write {w : World H} {message : Req} {part : List UInt8}
    {answer : Option (Answer Resp)}
    (h : w.requests = [] ∨ ∃ request sent, w.requests = [request] ∧
      request.body ++ w.live = sent ++ part ∧ Carried encodeMessage log sent)
    (hpart : Part encodeMessage (.send message, answer) part) :
    Wired encodeMessage (log ++ [(.send message, answer)]) w := by
  rcases h with h | ⟨request, sent, hrequest, hbytes, hcarried⟩
  · exact .inl h
  · exact .inr ⟨request, hrequest, hbytes ▸ hcarried.snoc hpart⟩

omit [ResponseBody ρ H] [AsyncWrite ω] [HeaderMap H] [Base64] [Features] [CodecCrates] in
theorem Suspended.wired_writing {frame left : List UInt8} {message : Req}
    {answer : Option (Answer Resp)}
    (h : Suspended encodeMessage log (.send message) s (.writing frame left))
    (hanswer : answer ≠ some (.unit (.ok ()))) :
    Wired encodeMessage (log ++ [(.send message, answer)]) s.world := by
  obtain ⟨_, ⟨message', hmessage, hframe⟩, hwire⟩ := h
  cases hmessage
  rcases hwire with hnone | ⟨request, sent, accepted, hrequest, hbytes, hsplit, hcarried⟩
  · exact .inl hnone
  · refine Wired.write (.inr ⟨request, sent, hrequest, hbytes, hcarried⟩) ?_
    exact Part.torn hframe (hsplit ▸ List.prefix_append accepted left) hanswer

omit [ResponseBody ρ H] [HeaderMap H] [Base64] [Features] in
theorem pollWriting_issued {live : Live (Duplex ρ ω) H} {frame left : List UInt8}
    (henc : s.conn.encodeMessage = encodeMessage)
    (h : Suspended encodeMessage log op s (.writing frame left)) (started : Bool)
    (tick : Tick ρ ω H) :
    StepIssued encodeMessage log op (s.pollWriting live frame left started tick) := by
  obtain ⟨hopened, ⟨message, rfl, hframe⟩, hwire⟩ := id h
  unfold Call.pollWriting
  dsimp only
  cases interrupt s.conn.deadline started (s.world.observe tick.live) tick.live.timer with
  | some status => exact ⟨henc, .of_wired hopened (Suspended.wired_writing h (by simp))⟩
  | none =>
      obtain ⟨hsplit, hdone, _⟩ := writeAll_spec live.reader.writer left
      -- what the writer took during this poll stands behind what it took before
      have hwire' : s.world.requests = [] ∨ ∃ request sent accepted,
          s.world.requests = [request] ∧
          request.body ++ (s.world.live ++ (writeAll live.reader.writer left).accepted) =
            sent ++ accepted ∧
          frame = accepted ++ (writeAll live.reader.writer left).left ∧
          Carried encodeMessage log sent := by
        refine hwire.imp id (fun hissued => ?_)
        obtain ⟨request, sent, accepted, hrequest, hbytes, hleft, hcarried⟩ := hissued
        refine ⟨request, sent, accepted ++ (writeAll live.reader.writer left).accepted, hrequest,
          ?_, ?_, hcarried⟩
        · rw [← List.append_assoc, hbytes, List.append_assoc]
        · rw [hleft, List.append_assoc, hsplit]
      cases ha : (writeAll live.reader.writer left).answer with
      | pending => exact ⟨henc, id, ⟨message, rfl, hframe⟩, hwire'⟩
      | ready result =>
          cases result with
          | error e =>
              refine ⟨henc, .of_wired (fun h => h) ?_⟩
              rcases hwire' with hnone | ⟨request, sent, accepted, hrequest, hbytes, hleft, hc⟩
              · exact .inl hnone
              · refine Wired.write (.inr ⟨request, sent, hrequest, hbytes, hc⟩) ?_
                exact Part.torn hframe (hleft ▸ List.prefix_append accepted _)
                  (by simp [Except.mapError])
          | ok _ =>
              refine ⟨henc, .of_wired (fun h => h) ?_⟩
              rcases hwire' with hnone | ⟨request, sent, accepted, hrequest, hbytes, hleft, hc⟩
              · exact .inl hnone
              · rw [hdone ha, List.append_nil] at hleft
                subst hleft
                exact Wired.write (.inr ⟨request, sent, hrequest, hbytes, hc⟩) hframe

omit [ResponseBody ρ H] [AsyncWrite ω] [HeaderMap H] [Base64] [Features] in
theorem StepIssued.of_nothing {answer : Answer Resp} (henc : s.conn.encodeMessage = encodeMessage)
    (h : Issued encodeMessage log s.world s.conn.inner)
    (hop : ∀ message, op = .send message → answer ≠ .unit (.ok ())) :
    StepIssued encodeMessage log op (s.finish op answer) :=
  ⟨henc, h.nothing (fun message hm hanswer => hop message hm (Option.some.inj hanswer))⟩

omit [ResponseBody ρ H] [HeaderMap H] [Base64] [Features] in
theorem startSend_issued {message : Req} (henc : s.conn.encodeMessage = encodeMessage)
    (h : Issued encodeMessage log s.world s.conn.inner) (tick : Tick ρ ω H) :
    StepIssued encodeMessage log (.send message) (s.startSend message tick) := by
  have hrefused : ∀ status, StepIssued encodeMessage log (.send message)
      (s.finish (.send message) (.unit (.error status))) :=
    fun status => .of_nothing henc h (by simp)
  unfold Call.startSend
  cases hframe : s.conn.encodeMessage message with
  | error status => exact hrefused status
  | ok frame =>
      rw [henc] at hframe
      cases hinner : s.conn.inner with
      | pending p =>
          dsimp only
          split
          · exact hrefused sendAfterClose
          · rw [hinner] at h
            obtain ⟨hrequests, hlive, hcarried⟩ := h
            exact ⟨henc, hrequests, hlive, hcarried.snoc hframe⟩
      | duplex live =>
          rw [hinner] at h
          refine pollWriting_issued henc ⟨?_, ⟨message, rfl, hframe⟩, ?_⟩ false tick
          · rw [hinner]
            exact id
          · refine Or.imp id (fun ⟨request, hrequest, hcarried⟩ => ?_) h
            exact ⟨request, _, [], hrequest, (List.append_nil _).symm, rfl, hcarried⟩
      | reading live => exact hrefused sendAfterResponse
      | done responseHeaders trailers => exact hrefused sendAfterResponse
      | failed status => exact hrefused sendAfterResponse

/-! ## Every other operation -/

theorem startClose_issued (henc : s.conn.encodeMessage = encodeMessage)
    (h : Issued encodeMessage log s.world s.conn.inner) (tick : Tick ρ ω H) :
    StepIssued encodeMessage log .closeSend (s.startClose tick) := by
  have hop : ∀ message : Req, Op.closeSend ≠ .send message := by simp
  unfold Call.startClose
  cases hinner : s.conn.inner with
  | pending p =>
      rw [hinner] at h
      obtain ⟨hrequests, hlive, hcarried⟩ := h
      dsimp only
      apply materialize_issued hop
      · exact henc
      · exact hrequests
      · exact hlive
      · exact hcarried
  | duplex live =>
      refine .of_quiet hop henc (h.wired ?_) (Quiet.pollClosing s live)
        (fun hp => .inr ⟨rfl, Quiet.pollClosing_future hp⟩)
      rw [hinner]
      exact id
  | reading live => exact .of_nothing henc h (by simp)
  | done responseHeaders trailers => exact .of_nothing henc h (by simp)
  | failed status => exact .of_nothing henc h (by simp)

theorem startOpenHead_issued (henc : s.conn.encodeMessage = encodeMessage)
    (h : Issued encodeMessage log s.world s.conn.inner) (tick : Tick ρ ω H) :
    StepIssued encodeMessage log .openHead (s.startOpenHead tick) := by
  unfold Call.startOpenHead
  cases hinner : s.conn.inner with
  | pending p =>
      rw [hinner] at h
      obtain ⟨hrequests, hlive, hcarried⟩ := h
      exact materialize_issued (by simp) henc hrequests hlive hcarried tick
  | _ => exact .of_nothing henc h (by simp)

theorem startRecv_issued (henc : s.conn.encodeMessage = encodeMessage)
    (h : Issued encodeMessage log s.world s.conn.inner) (tick : Tick ρ ω H) :
    StepIssued encodeMessage log .recv (s.startRecv tick) := by
  have hlive : ¬ s.conn.inner.IsPending → StepIssued encodeMessage log .recv (s.deliver tick) :=
    fun hopened => .of_quiet (by simp) henc (h.wired hopened) (Quiet.deliver hopened tick)
      (fun hp => .inl ⟨rfl, Quiet.deliver_future hp⟩)
  unfold Call.startRecv
  cases hinner : s.conn.inner with
  | pending p =>
      rw [hinner] at h
      obtain ⟨hrequests, hlive, hcarried⟩ := h
      exact materialize_issued (by simp) henc hrequests hlive hcarried tick
  | _ =>
      rw [hinner] at hlive
      exact hlive id

/-- One poll of a future keeps to one request and its frames. -/
theorem poll_issued {future : OpFuture H Req} (henc : s.conn.encodeMessage = encodeMessage)
    (h : Suspended encodeMessage log op s future) (tick : Tick ρ ω H) :
    StepIssued encodeMessage log op (s.poll tick future) := by
  cases future with
  | start op' =>
      obtain ⟨rfl, hissued⟩ := h
      cases op' with
      | send message => exact startSend_issued henc hissued tick
      | closeSend => exact startClose_issued henc hissued tick
      | openHead => exact startOpenHead_issued henc hissued tick
      | recv => exact startRecv_issued henc hissued tick
  | opening op' o =>
      obtain ⟨rfl, hrest⟩ := h
      exact pollOpening_issued henc ⟨rfl, hrest⟩ true tick
  | writing frame left =>
      simp only [Call.poll]
      split
      · exact pollWriting_issued henc h true tick
      · exact ⟨henc, h⟩
  | closing =>
      simp only [Call.poll]
      split
      · rename_i live hinner
        obtain ⟨rfl, hopened, hwired⟩ := h
        exact .of_quiet (by simp) henc hwired (Quiet.pollClosing s live)
          (fun hp => .inr ⟨rfl, Quiet.pollClosing_future hp⟩)
      · exact ⟨henc, h⟩
  | reading =>
      obtain ⟨rfl, hopened, hwired⟩ := h
      exact .of_quiet (by simp) henc hwired (Quiet.pollReading hopened true tick)
        (fun hp => .inl ⟨rfl, Quiet.pollReading_future hp⟩)

/-! ## Whole runs -/

/-- Whether a suspended future stands at the await of the response head. -/
def OpFuture.isOpening : OpFuture H Req → Bool
  | .opening _ _ => true
  | _ => false

omit [ResponseBody ρ H] [AsyncWrite ω] [HeaderMap H] [Base64] [Features] [CodecCrates] in
theorem Suspended.dropped {future : OpFuture H Req} (h : Suspended encodeMessage log op s future)
    (hawait : future.isOpening = false) :
    Issued encodeMessage (log ++ [(op, (none : Option (Answer Resp)))]) s.world s.conn.inner := by
  cases future with
  | start op' => exact h.2.nothing (by simp)
  | opening op' o => simp [OpFuture.isOpening] at hawait
  | writing frame left =>
      obtain ⟨hopened, ⟨message, rfl, hframe⟩, hwire⟩ := h
      exact .of_wired hopened
        (Suspended.wired_writing ⟨hopened, ⟨message, rfl, hframe⟩, hwire⟩ (by simp))
  | closing => exact .of_wired h.2.1 (h.2.2.nothing (by simp))
  | reading => exact .of_wired h.2.1 (h.2.2.nothing (by simp))

theorem drive_issued {future : OpFuture H Req} (ticks : List (Tick ρ ω H))
    (henc : s.conn.encodeMessage = encodeMessage)
    (h : Suspended encodeMessage log op s future) :
    (s.drive future ticks).2.1.conn.encodeMessage = encodeMessage ∧
      match (s.drive future ticks).1 with
      | none => Suspended encodeMessage log op (s.drive future ticks).2.1
          (s.drive future ticks).2.2
      | some answer => Issued encodeMessage (log ++ [(op, some answer)])
          (s.drive future ticks).2.1.world (s.drive future ticks).2.1.conn.inner := by
  induction ticks generalizing s future with
  | nil => exact ⟨henc, h⟩
  | cons tick ticks ih =>
      obtain ⟨henc', hstep⟩ := poll_issued henc h tick
      unfold Call.drive
      cases hp : s.poll tick future with
      | mk answer s' future' =>
          rw [hp] at henc' hstep
          cases answer with
          | pending => exact ih henc' hstep
          | ready answer => exact ⟨henc', hstep⟩

/-- No operation but the last is dropped while it awaits the response head. -/
def Call.Kept (s : Call ρ ω H Req Resp) : List (Op Req × List (Tick ρ ω H)) → Prop
  | [] => True
  | (op, ticks) :: rest =>
      ((s.drive (.start op) ticks).1 = none → rest ≠ [] →
        (s.drive (.start op) ticks).2.2.isOpening = false) ∧
      (s.drive (.start op) ticks).2.1.Kept rest

omit [ResponseBody ρ H] [AsyncWrite ω] [HeaderMap H] [Base64] [Features] [CodecCrates] in
theorem Issued.to_wired {w : World H} {inner : Inner ρ ω H}
    (h : Issued encodeMessage log w inner) : Wired encodeMessage log w := by
  cases inner with
  | pending p => exact .inl h.1
  | _ => exact h

omit [ResponseBody ρ H] [AsyncWrite ω] [HeaderMap H] [Base64] [Features] [CodecCrates] in
theorem Suspended.to_wired {future : OpFuture H Req} (h : Suspended encodeMessage log op s future) :
    Wired encodeMessage (log ++ [(op, (none : Option (Answer Resp)))]) s.world := by
  cases hawait : future.isOpening with
  | false => exact (h.dropped hawait).to_wired
  | true =>
      cases future with
      | opening op' o =>
          obtain ⟨_, _, hlive, hrequests, hcarried⟩ := h
          exact Wired.nothing (.of_opening hlive hrequests hcarried) (by simp)
      | _ => simp [OpFuture.isOpening] at hawait

theorem run_issued (ops : List (Op Req × List (Tick ρ ω H)))
    (henc : s.conn.encodeMessage = encodeMessage)
    (h : Issued encodeMessage log s.world s.conn.inner) (hkept : s.Kept ops) :
    Wired encodeMessage (log ++ (s.run ops).1) (s.run ops).2.world := by
  induction ops generalizing s log with
  | nil =>
      rw [Call.run, List.append_nil]
      exact h.to_wired
  | cons head rest ih =>
      obtain ⟨op, ticks⟩ := head
      obtain ⟨hawait, hrest⟩ := hkept
      have hstart : Suspended encodeMessage log op s (.start op) := ⟨rfl, h⟩
      obtain ⟨henc', hend⟩ := drive_issued ticks henc hstart
      rw [Call.run_cons]
      -- the log of the run goes on from what this operation added
      have hnext : Issued encodeMessage (log ++ [(op, (s.drive (.start op) ticks).1)])
          (s.drive (.start op) ticks).2.1.world (s.drive (.start op) ticks).2.1.conn.inner →
          Wired encodeMessage (log ++ (op, (s.drive (.start op) ticks).1) ::
            ((s.drive (.start op) ticks).2.1.run rest).1)
            ((s.drive (.start op) ticks).2.1.run rest).2.world := by
        intro hissued
        have hrun := ih henc' hissued hrest
        rwa [List.append_assoc] at hrun
      cases hanswer : (s.drive (.start op) ticks).1 with
      | some answer =>
          rw [hanswer] at hend hnext
          exact hnext hend
      | none =>
          rw [hanswer] at hend hnext
          cases rest with
          | nil => exact hend.to_wired
          | cons next rest => exact hnext (hend.dropped (hawait hanswer (by simp)))

end

structure Call.Fresh (s : Call ρ ω H Req Resp) : Prop where
  pending : ∃ p, s.conn.inner = .pending p ∧ p.body = [] ∧ p.sendClosed = false
  requests : s.world.requests = []
  live : s.world.live = []

theorem Call.new_fresh [HeaderMap H] [Features] {codec : Codec Req Resp} {defaultHeaders : H}
    {path : String} {metadata : Metadata} {timeout : Option Duration} {fullDuplex : Bool}
    {now : Instant} {conn : GrpcClientConn ρ ω H Req Resp}
    (h : GrpcClientConn.new codec defaultHeaders path metadata timeout fullDuplex now = .ok conn) :
    Call.Fresh ⟨conn, .fresh now⟩ := by
  unfold GrpcClientConn.new at h
  dsimp only at h
  split at h
  · cases h
    exact ⟨⟨_, rfl, rfl, rfl⟩, rfl, rfl⟩
  · rename_i d
    cases hadd : now.add d with
    | error p => simp [hadd, Except.map] at h
    | ok deadline =>
        rw [hadd] at h
        cases h
        exact ⟨⟨_, rfl, rfl, rfl⟩, rfl, rfl⟩

def sends (tick : Tick ρ ω H) (messages : List Req) : List (Op Req × List (Tick ρ ω H)) :=
  messages.map (fun m => (.send m, [tick]))

/-- Sends to a pending conn put their frames behind its body. -/
theorem run_sends [CodecCrates] [ResponseBody ρ H] [AsyncWrite ω] [HeaderMap H] [Base64]
    [Features] {s : Call ρ ω H Req Resp} {p : Pending H} (hinner : s.conn.inner = .pending p)
    (hclosed : p.sendClosed = false) (tick : Tick ρ ω H) (messages : List Req)
    (hsent : ∀ m ∈ messages, ∃ frame, s.conn.encodeMessage m = .ok frame) :
    ∃ sent, sent.map Prod.fst = messages ∧
      (∀ x ∈ sent, s.conn.encodeMessage x.1 = .ok x.2) ∧
      (s.run (sends tick messages)).2.conn =
        { s.conn with inner := .pending { p with body := p.body ++ wire sent } } := by
  induction messages generalizing s p with
  | nil =>
      refine ⟨[], rfl, by simp, ?_⟩
      simp [sends, Call.run, wire, ← hinner]
  | cons m messages ih =>
      obtain ⟨frame, hframe⟩ := hsent m List.mem_cons_self
      have hstep : (s.drive (.start (.send m)) [tick]).2.1 =
          ⟨{ s.conn with inner := .pending { p with body := p.body ++ frame } }, s.world⟩ := by
        simp [Call.drive, Call.poll, Call.startSend, hframe, hinner, hclosed, Call.finish]
      obtain ⟨sent, hfst, hframes, hconn⟩ := ih (s := ⟨{ s.conn with
          inner := .pending { p with body := p.body ++ frame } }, s.world⟩) rfl hclosed
        (fun x hx => hsent x (List.mem_cons_of_mem _ hx))
      refine ⟨(m, frame) :: sent, by rw [List.map_cons, hfst], ?_, ?_⟩
      · intro x hx
        rcases List.mem_cons.mp hx with rfl | hx
        · exact hframe
        · exact hframes x hx
      · rw [sends, List.map_cons, Call.run_cons, hstep]
        rw [sends] at hconn
        rw [hconn, wire_cons, List.append_assoc]

/-- One request at most, which with the live writes carries the frames of the sends
that succeeded, whole and in order. -/
theorem request_issued_once [CodecCrates] [ResponseBody ρ H] [AsyncWrite ω] [HeaderMap H] [Base64]
    [Features] (s : Call ρ ω H Req Resp) (hfresh : s.Fresh)
    (ops : List (Op Req × List (Tick ρ ω H))) (hkept : s.Kept ops) :
    Wired s.conn.encodeMessage (s.run ops).1 (s.run ops).2.world := by
  obtain ⟨⟨p, hinner, hbody, _⟩, hrequests, hlive⟩ := hfresh
  have hissued : Issued s.conn.encodeMessage ([] : List (Op Req × Option (Answer Resp))) s.world
      s.conn.inner := by
    rw [hinner]
    exact ⟨hrequests, hlive, [], .nil, by simp [hbody]⟩
  exact run_issued ops rfl hissued hkept

/-! ## A head that was not waited for -/

/-- A response body of fixed bytes, with fixed trailers behind them. -/
structure ScriptedBody where
  script : Script
  sent : HeaderList

instance : ResponseBody ScriptedBody HeaderList where
  pollRead b len :=
    let (answer, script) := AsyncRead.pollRead b.script len
    (answer, { b with script })
  trailers b := if b.script.bytes = [] then some b.sent else none

/-- A conn for plain byte messages, as `new` makes it. -/
def plainConn (fullDuplex : Bool) :
    GrpcClientConn ScriptedBody SinkScript HeaderList (List UInt8) (List UInt8) :=
  { inner := .pending ⟨empty, "/echo", "application/grpc+proto", .new, [], false⟩
    decode := .ok
    encode := .ok
    outboundEncoding := .identity
    maxMessageSize := defaultMaxMessageSize
    fullDuplex
    deadline := none
    initError := none }

def plainCall (fullDuplex : Bool) :
    Call ScriptedBody SinkScript HeaderList (List UInt8) (List UInt8) :=
  ⟨plainConn fullDuplex, .fresh epoch⟩

def quietTick (net : NetPoll ScriptedBody SinkScript HeaderList) :
    Tick ScriptedBody SinkScript HeaderList :=
  ⟨epoch, ⟨false, epoch, false⟩, net, ⟨false, epoch, false⟩⟩

def emptyResponse : Response ScriptedBody SinkScript HeaderList :=
  { status := some 200
    headers := insert empty "content-type" (.ofString "application/grpc")
    reader := ⟨⟨[], [], none⟩, insert empty "grpc-status" (.ofString "0")⟩
    writer := ⟨[]⟩ }

def awaitedRecv : List (Op (List UInt8) × List (Tick ScriptedBody SinkScript HeaderList)) :=
  [(.send [7], [quietTick .connecting]),
    (.recv, [quietTick .sent, quietTick (.response emptyResponse)]),
    (.recv, [quietTick .sent])]

/-- The first `recv` is dropped while it waits for the head. -/
def droppedRecv : List (Op (List UInt8) × List (Tick ScriptedBody SinkScript HeaderList)) :=
  [(.send [7], [quietTick .connecting]), (.recv, [quietTick .sent]), (.recv, [quietTick .sent])]

theorem awaited_recv_issues_once :
    letI := storedCrates
    letI := standardNoPad
    letI := allFeatures
    Wired (plainConn false).encodeMessage ((plainCall false).run awaitedRecv).1
      ((plainCall false).run awaitedRecv).2.world := by
  let _ := storedCrates
  let _ := standardNoPad
  let _ := allFeatures
  exact request_issued_once (plainCall false) ⟨⟨_, rfl, rfl, rfl⟩, rfl, rfl⟩ awaitedRecv
    ⟨nofun, nofun, nofun, trivial⟩

/-- The second request goes out without the frame. -/
theorem dropped_recv_reissues :
    letI := storedCrates
    letI := standardNoPad
    letI := allFeatures
    ((plainCall false).run droppedRecv).2.world.requests.map Request.body =
        [[0, 0, 0, 0, 1, 7], []] ∧
      ¬ Wired (plainConn false).encodeMessage ((plainCall false).run droppedRecv).1
        ((plainCall false).run droppedRecv).2.world := by
  let _ := storedCrates
  let _ := standardNoPad
  let _ := allFeatures
  have hbodies : ((plainCall false).run droppedRecv).2.world.requests.map Request.body =
      [[0, 0, 0, 0, 1, 7], []] := by decide
  refine ⟨hbodies, ?_⟩
  rintro (hnone | ⟨request, hone, _⟩)
  · simp [hnone] at hbodies
  · simp [hone] at hbodies

end TrilliumGrpc
