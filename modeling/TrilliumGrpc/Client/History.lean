import TrilliumGrpc.Client.Receiving
import TrilliumGrpc.Frame.Outgoing

/-! # A full-duplex call with its history

A client connection past its head, in either direction of an upgraded transport,
together with what it has sent and what its `recv`s have given. Any operation may be
started at any time, which drops the one that is suspended.
-/

namespace TrilliumGrpc

open Async HeaderMap TalliedRead Time

variable {ω H Req Resp : Type}

/-- Trailers come along with the end and are there once all in front of it is read. -/
instance : ResponseBody (Inbox H) H where
  toAsyncRead := inferInstance
  trailers b :=
    match b.arrived, b.ending with
    | [], some (.ok trailers) => some trailers
    | _, _ => none

/-- A call with its suspended operation, what it has sent, the messages that came, the
result with which it ended, and how many messages and bytes had gone out when the send
side was closed. -/
structure Calling (ω H Req Resp : Type) where
  call : Call (Inbox H) ω H Req Resp
  future : Option (OpFuture H Req)
  out : Outgoing Req
  received : List Resp
  verdict : Option (Except Status (Option Resp))
  closed : Option (Nat × Nat)

/-- The bytes of the request, those of the live writes behind its body. -/
def World.issued (w : World H) : List UInt8 :=
  (w.requests.map Request.body).flatten ++ w.live

def OpStep.sending {ρ : Type} (step : OpStep ρ ω H Req Resp) : Poll (Except Unit Unit) :=
  match step.answer with
  | .pending => .pending
  | .ready (.unit (.ok ())) => .ready (.ok ())
  | .ready _ => .ready (.error ())

namespace Calling

def drop (s : Calling ω H Req Resp) : Calling ω H Req Resp :=
  { s with future := none, out := s.out.drop }

/-- After a poll of the send of `message`, or of another operation. -/
def settle (s : Calling ω H Req Resp) (message : Option Req)
    (step : OpStep (Inbox H) ω H Req Resp) : Calling ω H Req Resp :=
  { call := step.call
    future := match step.answer with
      | .pending => some step.future
      | .ready _ => none
    out := match message, step.future with
      | some m, .writing frame left => s.out.settle m frame left step.sending
      | _, _ => s.out
    received := match step.answer with
      | .ready (.item (.ok (some m))) => s.received ++ [m]
      | _ => s.received
    verdict := match s.call.conn.trailers, step.call.conn.trailers, step.answer with
      | none, some _, .ready (.item result) => some result
      | _, _, _ => s.verdict
    closed := s.closed }

/-- After a poll of `close_send`: the send side is closed once that succeeds. -/
def close (s : Calling ω H Req Resp) (step : OpStep (Inbox H) ω H Req Resp) :
    Calling ω H Req Resp :=
  let s' := s.settle none step
  match step.answer with
  | .ready (.unit (.ok ())) =>
      { s' with closed := some (s.closed.getD (s.out.sent.length, step.call.world.issued.length)) }
  | _ => s'

def bring (s : Calling ω H Req Resp) (f : Inbox H → Inbox H) : Calling ω H Req Resp :=
  match s.call.conn.inner with
  | .duplex live =>
      { s with
        call := { s.call with
          conn := { s.call.conn with
            inner := .duplex { live with
              reader := { live.reader with reader := f live.reader.reader } } } } }
  | _ => s

variable [AsyncWrite ω] [CodecCrates] [HeaderMap H] [Base64] [Features]

/-- A fresh operation is polled. -/
def start (s : Calling ω H Req Resp) (tick : Tick (Inbox H) ω H) (op : Op Req) :
    Calling ω H Req Resp :=
  let s := s.drop
  let step := s.call.poll tick (.start op)
  match op with
  | .send message => s.settle (some message) step
  | .closeSend => s.close step
  | _ => s.settle none step

def resume (s : Calling ω H Req Resp) (tick : Tick (Inbox H) ω H) : Calling ω H Req Resp :=
  match s.future with
  | none => s
  | some .closing => s.close (s.call.poll tick .closing)
  | some future => s.settle (s.out.sending.map Prod.fst) (s.call.poll tick future)

end Calling

/-! ## One poll of a live call -/

section

variable {cfg : ReadConfig Resp} {head : Head H} {writer : ω} {b : Inbox H} {state : ReadState}
  {s : Call (Inbox H) ω H Req Resp}

structure Call.Upgraded (cfg : ReadConfig Resp) (head : Head H) (writer : ω) (b : Inbox H)
    (state : ReadState) (s : Call (Inbox H) ω H Req Resp) : Prop where
  inner : s.conn.inner = head.live (some writer) (b, state)
  config : s.conn.readConfig head.responseEncoding = cfg

/-- A poll that leaves the requests, and the way messages are framed and read, alone. -/
structure Call.Same (s s' : Call (Inbox H) ω H Req Resp) : Prop where
  requests : s'.world.requests = s.world.requests
  encodes : s'.conn.encode = s.conn.encode ∧ s'.conn.outboundEncoding = s.conn.outboundEncoding

def told [HeaderMap H] [Base64] (b : Inbox H) :
    Option (Except Status Resp) → Except Status (Option Resp)
  | none => closing ((ResponseBody.trailers b).getD empty)
  | some (.error status) => .error status
  | some (.ok message) => .ok (some message)

variable [CodecCrates]

/-- One poll of a `recv` on a live call: it is interrupted, or it does what the framing
reader does, and ends the call with what ends the stream. -/
def Call.ReadSpec [HeaderMap H] [Base64] (cfg : ReadConfig Resp) (head : Head H) (writer : ω)
    (b : Inbox H) (state : ReadState) (s : Call (Inbox H) ω H Req Resp)
    (step : OpStep (Inbox H) ω H Req Resp) : Prop :=
  (∃ status, step.answer = .ready (.item (.error status)) ∧ step.call.conn = s.conn) ∨
    match pollReadMessage cfg b state with
    | ⟨.pending, b', state'⟩ => step.answer = .pending ∧ step.future = .reading ∧
        step.call.Upgraded cfg head writer b' state'
    | ⟨.ready (some (.ok message)), b', state'⟩ =>
        step.answer = .ready (.item (.ok (some message))) ∧
          step.call.Upgraded cfg head writer b' state'
    | ⟨.ready last, b', _⟩ => step.answer = .ready (.item (told b' last)) ∧
        ∃ responseHeaders trailers, step.call.conn.inner = .done responseHeaders trailers

variable [HeaderMap H] [Base64]

omit [HeaderMap H] [Base64] in
theorem GrpcClientConn.pollRead_upgraded {c : GrpcClientConn (Inbox H) ω H Req Resp}
    (h : c.inner = head.live (some writer) (b, state))
    (hconfig : c.readConfig head.responseEncoding = cfg) :
    c.pollRead = ((pollReadMessage cfg b state).answer,
      { c with
        inner := head.live (some writer)
          ((pollReadMessage cfg b state).reader, (pollReadMessage cfg b state).state) }) := by
  subst hconfig
  simp only [pollRead, h, Head.live]

theorem Call.Upgraded.pollReading (h : s.Upgraded cfg head writer b state)
    (hhead : head.headStatus = none) (started : Bool) (tick : Tick (Inbox H) ω H) :
    s.Same (s.pollReading started tick).call ∧
      (s.pollReading started tick).call.world.live = s.world.live ∧
      s.ReadSpec cfg head writer b state (s.pollReading started tick) := by
  unfold Call.pollReading
  dsimp only
  cases interrupt s.conn.deadline started (s.world.observe tick.live) tick.live.timer with
  | some status => exact ⟨⟨rfl, rfl, rfl⟩, rfl, .inl ⟨status, rfl, rfl⟩⟩
  | none =>
      rw [GrpcClientConn.pollRead_upgraded h.inner h.config]
      unfold Call.ReadSpec
      cases hp : pollReadMessage cfg b state with
      | mk answer b' state' =>
          have hat : (⟨{ s.conn with inner := head.live (some writer) (b', state') },
              s.world.observe tick.live⟩ : Call (Inbox H) ω H Req Resp).Upgraded cfg head writer
                b' state' := ⟨rfl, h.config⟩
          obtain ⟨hstatus, hended⟩ := GrpcClientConn.finishFromTrailers_live hat.inner
          have honly := GrpcClientConn.isTrailersOnly_live hat.inner
          obtain ⟨responseHeaders, trailers, hdone⟩ := GrpcClientConn.finishFromTrailers_conn
            { s.conn with inner := head.live (some writer) (b', state') }
          rcases answer with _ | (_ | (status | message))
          · exact ⟨⟨rfl, rfl, rfl⟩, rfl, .inr ⟨rfl, rfl, hat⟩⟩
          · simp only [Call.finish, GrpcClientConn.readOutcome, hdone, hstatus]
            refine ⟨⟨rfl, rfl, rfl⟩, rfl, .inr ⟨?_, _, _, rfl⟩⟩
            rw [Head.finalStatus_of_none hhead]
            rfl
          · simp only [Call.finish, GrpcClientConn.readOutcome, hdone]
            exact ⟨⟨rfl, rfl, rfl⟩, rfl, .inr ⟨rfl, _, _, rfl⟩⟩
          · rw [hhead] at honly
            simp only [Call.finish, GrpcClientConn.readOutcome, honly]
            exact ⟨⟨rfl, rfl, rfl⟩, rfl, .inr ⟨rfl, hat⟩⟩

omit [CodecCrates] [HeaderMap H] [Base64] in
/-- A poll of `write_all` on a live call, interrupted or not: what it leaves of the frame,
and what it adds to the live writes. -/
theorem Call.Upgraded.pollWriting [AsyncWrite ω] (h : s.Upgraded cfg head writer b state)
    (frame left : List UInt8) (started : Bool) (tick : Tick (Inbox H) ω H)
    {live : Live (Duplex (Inbox H) ω) H} (hlive : s.conn.inner = .duplex live) :
    ∃ (write : WriteStep ω) (writer' : ω), WriteSpec left write ∧
      (s.pollWriting live frame left started tick).future = .writing frame write.left ∧
      (s.pollWriting live frame left started tick).call.world.live =
        s.world.live ++ write.accepted ∧
      s.Same (s.pollWriting live frame left started tick).call ∧
      (s.pollWriting live frame left started tick).call.Upgraded cfg head writer' b state ∧
      (∀ result, (s.pollWriting live frame left started tick).answer ≠ .ready (.item result)) ∧
      (s.pollWriting live frame left started tick).sending =
        match write.answer with
        | .pending => .pending
        | .ready (.ok ()) => .ready (.ok ())
        | .ready (.error _) => .ready (.error ()) := by
  have hinner := h.inner
  rw [hlive] at hinner
  cases hinner
  unfold Call.pollWriting
  dsimp only
  cases interrupt s.conn.deadline started (s.world.observe tick.live) tick.live.timer with
  | some status =>
      refine ⟨⟨.ready (.error ""), left, [], writer⟩, writer,
        ⟨rfl, fun h => by simp at h, fun h => by simp at h⟩, rfl, (List.append_nil _).symm,
        ⟨rfl, rfl, rfl⟩, ⟨h.inner, h.config⟩, fun result h => by simp at h, rfl⟩
  | none =>
      refine ⟨writeAll writer left, (writeAll writer left).writer, writeAll_spec writer left, ?_⟩
      dsimp only
      match (writeAll writer left).answer with
      | .pending =>
          exact ⟨rfl, rfl, ⟨rfl, rfl, rfl⟩, ⟨rfl, h.config⟩, fun result h => by simp at h, rfl⟩
      | .ready (.ok ()) =>
          exact ⟨rfl, rfl, ⟨rfl, rfl, rfl⟩, ⟨rfl, h.config⟩, fun result h => by simp at h, rfl⟩
      | .ready (.error e) =>
          exact ⟨rfl, rfl, ⟨rfl, rfl, rfl⟩, ⟨rfl, h.config⟩, fun result h => by simp at h, rfl⟩

omit [CodecCrates] [HeaderMap H] [Base64] in
theorem Call.Upgraded.pollClosing [AsyncWrite ω] (h : s.Upgraded cfg head writer b state)
    {live : Live (Duplex (Inbox H) ω) H} (hlive : s.conn.inner = .duplex live) :
    ∃ writer', s.Same (s.pollClosing live).call ∧
      (s.pollClosing live).call.world.live = s.world.live ∧
      (s.pollClosing live).call.Upgraded cfg head writer' b state ∧
      (((s.pollClosing live).answer = .pending ∧ (s.pollClosing live).future = .closing) ∨
        ∃ result, (s.pollClosing live).answer = .ready (.unit result)) := by
  have hinner := h.inner
  rw [hlive] at hinner
  cases hinner
  unfold Call.pollClosing
  cases hc : AsyncWrite.pollClose writer with
  | mk answer writer' =>
      dsimp only
      cases answer with
      | pending => exact ⟨writer', ⟨rfl, rfl, rfl⟩, rfl, ⟨rfl, h.config⟩, .inl ⟨rfl, rfl⟩⟩
      | ready result => exact ⟨writer', ⟨rfl, rfl, rfl⟩, rfl, ⟨rfl, h.config⟩, .inr ⟨_, rfl⟩⟩

end

/-! ## What every poll keeps -/

theorem Calling.settle_finish (s : Calling ω H Req Resp) (hnone : s.future = none) (message : Option Req)
    (op : Op Req) (result : Except Status Unit) :
    s.settle message (s.call.finish op (.unit result)) = s := by
  obtain ⟨call, future, out, received, verdict, closed⟩ := s
  subst hnone
  simp only [Calling.settle, Call.finish]
  cases call.conn.trailers <;> cases message <;> rfl


variable [CodecCrates] [HeaderMap H] [Base64]

/-- The conn reads on behind the messages that came, or it is over, and tells why. Of the
pipe its bytes come through, `K` holds. -/
inductive Calling.Stage (cfg : ReadConfig Resp) (head : Head H) (K : Inbox H → Prop)
    (s : Calling ω H Req Resp) : Prop where
  | live (writer : ω) (b : Inbox H) (state : ReadState)
      (upgraded : s.call.Upgraded cfg head writer b state)
      (consumed : Consumed cfg b state (s.received.map (fun m => some (.ok m))))
      (verdict : s.verdict = none) (pipe : K b)
  | ended (b : Inbox H) (state : ReadState) (last : Option (Except Status Resp))
      (done : ∃ responseHeaders trailers, s.call.conn.inner = .done responseHeaders trailers)
      (idle : s.future = none)
      (consumed : Consumed cfg b state (s.received.map (fun m => some (.ok m)) ++ [last]))
      (ends : ∀ m, last ≠ some (.ok m)) (verdict : s.verdict = some (told b last)) (pipe : K b)

omit [CodecCrates] in
theorem told_ends (b : Inbox H) {last : Option (Except Status Resp)}
    (h : ∀ m, last ≠ some (.ok m)) (m : Resp) : told b last ≠ .ok (some m) := by
  match last with
  | none =>
      simp only [told, closing]
      cases Status.fromTrailers ((ResponseBody.trailers b).getD empty) <;> simp [Except.map]
  | some (.error status) => simp [told]
  | some (.ok m') => exact absurd rfl (h m')

/-- The suspended operation is one that can be, and a suspended send is the last one begun. -/
def Calling.Suspended (s : Calling ω H Req Resp) : Prop :=
  match s.future with
  | some (.writing frame left) => ∃ m, s.out.sending = some (m, ⟨frame, left⟩)
  | none => s.out.sending = none
  | some .closing => s.out.sending = none
  | some .reading => s.out.sending = none
  | _ => False

/-- The history of a call that frames with `encodeMessage` and reads with `cfg`. -/
structure Calling.Kept (cfg : ReadConfig Resp) (head : Head H)
    (encodeMessage : Req → Except Status (List UInt8)) (K : Inbox H → Prop)
    (s : Calling ω H Req Resp) : Prop where
  stage : s.Stage cfg head K
  encodes : s.call.conn.encodeMessage = encodeMessage
  frames : s.out.Frames encodeMessage s.call.world.issued
  suspended : s.Suspended
  closed : ∀ k len, s.closed = some (k, len) → s.out.torn = false →
    k ≤ s.out.sent.length ∧ len ≤ s.call.world.issued.length ∧
      ∃ fs, List.Forall₂ (fun m f => encodeMessage m = .ok f) (s.out.sent.take k) fs ∧
        s.call.world.issued.take len = fs.flatten

/-- The history after a step, in which nothing that had gone out was taken back. -/
structure Calling.Goes (cfg : ReadConfig Resp) (head : Head H)
    (encodeMessage : Req → Except Status (List UInt8)) (K : Inbox H → Prop)
    (s s' : Calling ω H Req Resp) : Prop where
  kept : s'.Kept cfg head encodeMessage K
  issued : s.call.world.issued <+: s'.call.world.issued
  closed : s'.closed = s.closed ∨
    (s.closed = none ∧ ∃ k, s'.closed = some (k, s'.call.world.issued.length))

namespace Calling.Kept

variable {cfg : ReadConfig Resp} {head : Head H}
  {encodeMessage : Req → Except Status (List UInt8)} {K : Inbox H → Prop}
  {s : Calling ω H Req Resp}

theorem drop (h : s.Kept cfg head encodeMessage K) : s.drop.Kept cfg head encodeMessage K where
  stage := by
    cases h.stage with
    | live writer b state upgraded consumed verdict pipe =>
        exact .live writer b state upgraded consumed verdict pipe
    | ended b state last done idle consumed ends verdict pipe =>
        exact .ended b state last done rfl consumed ends verdict pipe
  encodes := h.encodes
  frames := h.frames.drop
  suspended := rfl
  closed k len hclosed htorn := h.closed k len hclosed (Bool.or_eq_false_iff.mp htorn).1

theorem stays (h : s.Kept cfg head encodeMessage K) : s.Goes cfg head encodeMessage K s :=
  ⟨h, List.prefix_rfl, .inl rfl⟩

/-- What a poll may add, beside the stage it leaves the conn in. -/
theorem settle (h : s.Kept cfg head encodeMessage K) {message : Option Req}
    {step : OpStep (Inbox H) ω H Req Resp} {accepted : List UInt8}
    (hsame : s.call.Same step.call) (hlive : step.call.world.live = s.call.world.live ++ accepted)
    (hstage : (s.settle message step).Stage cfg head K)
    (hframes : (s.settle message step).out.Frames encodeMessage (s.call.world.issued ++ accepted))
    (hsuspended : (s.settle message step).Suspended) :
    s.Goes cfg head encodeMessage K (s.settle message step) := by
  have hissued : (s.settle message step).call.world.issued = s.call.world.issued ++ accepted := by
    change (step.call.world.requests.map Request.body).flatten ++ step.call.world.live = _
    rw [hsame.requests, hlive, ← List.append_assoc]
    rfl
  obtain ⟨hsent, htorn⟩ : (∃ later, (s.settle message step).out.sent = s.out.sent ++ later) ∧
      ((s.settle message step).out.torn = false → s.out.torn = false) := by
    have hkept : (∃ later, s.out.sent = s.out.sent ++ later) ∧
        (s.out.torn = false → s.out.torn = false) := ⟨⟨[], (List.append_nil _).symm⟩, id⟩
    simp only [Calling.settle]
    cases message with
    | none => exact hkept
    | some m =>
        cases step.future with
        | writing frame left => exact ⟨Outgoing.settle_sent _ _ _ _ _, Outgoing.settle_torn⟩
        | _ => exact hkept
  refine ⟨⟨hstage, ?_, by rw [hissued]; exact hframes, hsuspended, ?_⟩, ⟨accepted, hissued.symm⟩,
    .inl rfl⟩
  · have henc := h.encodes
    rw [← henc]
    funext m
    change encodeFrame step.call.conn.encode m step.call.conn.outboundEncoding = _
    rw [hsame.encodes.1, hsame.encodes.2]
    rfl
  · intro k len hclosed hwhole
    obtain ⟨hk, hlen, fs, hfs, hflat⟩ := h.closed k len hclosed (htorn hwhole)
    obtain ⟨later, hlater⟩ := hsent
    rw [hissued, hlater, List.length_append, List.length_append,
      List.take_append_of_le_length hk, List.take_append_of_le_length hlen]
    exact ⟨by omega, by omega, fs, hfs, hflat⟩

/-- A poll of the send of `m`, of which `left` is to be written. -/
theorem writing [AsyncWrite ω] (h : s.Kept cfg head encodeMessage K) {writer : ω} {b : Inbox H}
    {state : ReadState} (hup : s.call.Upgraded cfg head writer b state)
    (hconsumed : Consumed cfg b state (s.received.map (fun m => some (.ok m))))
    (hverdict : s.verdict = none) (hpipe : K b) {live : Live (Duplex (Inbox H) ω) H}
    (hlive : s.call.conn.inner = .duplex live) {m : Req} {frame left : List UInt8}
    (hbegun : s.out.Begun encodeMessage s.call.world.issued m frame left) (started : Bool)
    (tick : Tick (Inbox H) ω H) :
    s.Goes cfg head encodeMessage K
      (s.settle (some m) (s.call.pollWriting live frame left started tick)) := by
  obtain ⟨write, writer', hspec, hfuture, hmore, hsame, hup', hno, hsending⟩ :=
    hup.pollWriting frame left started tick hlive
  have hnone : s.call.conn.trailers = none := by
    rw [GrpcClientConn.trailers, hup.inner]
    rfl
  have hnone' : (s.call.pollWriting live frame left started tick).call.conn.trailers = none := by
    rw [GrpcClientConn.trailers, hup'.inner]
    rfl
  have hout : (s.settle (some m) (s.call.pollWriting live frame left started tick)).out =
      s.out.settle m frame write.left (s.call.pollWriting live frame left started tick).sending := by
    simp only [Calling.settle, hfuture]
  have hreceived : (s.settle (some m) (s.call.pollWriting live frame left started tick)).received =
      s.received := by
    simp only [Calling.settle]
    split
    · rename_i habs
      exact absurd habs (hno _)
    · rfl
  refine h.settle hsame hmore (.live writer' b state hup' ?_ ?_ hpipe) ?_ ?_
  · rw [hreceived]
    exact hconsumed
  · simp only [Calling.settle, hnone, hnone', hverdict]
  · rw [hout]
    refine hbegun.settle hspec (fun hp => ?_) (fun hd => ?_)
    · rw [hsending] at hp
      split at hp <;> simp_all
    · rw [hsending] at hd
      split at hd <;> simp_all
  · obtain ⟨hpending, hready⟩ := s.out.settle_sending m frame write.left
      (s.call.pollWriting live frame left started tick).sending
    unfold Calling.Suspended
    rw [hout]
    cases ha : (s.call.pollWriting live frame left started tick).answer with
    | pending =>
        have hs : (s.call.pollWriting live frame left started tick).sending = .pending := by
          simp only [OpStep.sending, ha]
        simp only [Calling.settle, ha, hfuture]
        exact ⟨m, hpending hs⟩
    | ready answer =>
        have hs : (s.call.pollWriting live frame left started tick).sending ≠ .pending := by
          simp only [OpStep.sending, ha]
          split <;> simp_all
        simp only [Calling.settle, ha]
        exact hready hs

/-- The send side is closed with no send suspended. -/
theorem close {step : OpStep (Inbox H) ω H Req Resp}
    (hsettled : s.Goes cfg head encodeMessage K (s.settle none step))
    (hsending : s.out.sending = none) : s.Goes cfg head encodeMessage K (s.close step) := by
  have hissued := hsettled.issued
  have hgoes := hsettled
  replace hsettled := hsettled.kept
  unfold Calling.close
  dsimp only
  split
  · refine ⟨⟨?_, hsettled.encodes, hsettled.frames, hsettled.suspended, ?_⟩, hissued, ?_⟩
    · cases hsettled.stage with
      | live writer b state upgraded consumed verdict pipe =>
          exact .live writer b state upgraded consumed verdict pipe
      | ended b state last done idle consumed ends verdict pipe =>
          exact .ended b state last done idle consumed ends verdict pipe
    · intro k len hclosed hwhole
      cases hc : s.closed with
      | some before =>
          rw [hc, Option.getD_some] at hclosed
          refine hsettled.closed k len ?_ hwhole
          change s.closed = some (k, len)
          rw [hc]
          exact hclosed
      | none =>
          rw [hc, Option.getD_none, Option.some.injEq, Prod.mk.injEq] at hclosed
          obtain ⟨rfl, rfl⟩ := hclosed
          obtain ⟨fs, accepted, hfs, hissued, hnone⟩ := hsettled.frames hwhole
          have hsending' : (s.settle none step).out.sending = none := hsending
          rw [hsending'] at hnone
          subst hnone
          rw [List.append_nil] at hissued
          refine ⟨Nat.le_refl _, Nat.le_refl _, fs, ?_, ?_⟩
          · change List.Forall₂ _ (s.out.sent.take s.out.sent.length) fs
            rw [List.take_length]
            exact hfs
          · change step.call.world.issued.take step.call.world.issued.length = fs.flatten
            rw [List.take_length]
            exact hissued
    · cases hc : s.closed with
      | none => exact .inr ⟨rfl, s.out.sent.length, rfl⟩
      | some before => exact .inl rfl
  · exact hgoes

theorem quiet (h : s.Kept cfg head encodeMessage K) (hsending : s.out.sending = none)
    {step : OpStep (Inbox H) ω H Req Resp} (hsame : s.call.Same step.call)
    (hlive : step.call.world.live = s.call.world.live)
    (hstage : (s.settle none step).Stage cfg head K)
    (hfuture : step.answer = .pending → step.future = .reading ∨ step.future = .closing) :
    s.Goes cfg head encodeMessage K (s.settle none step) := by
  have hmore : step.call.world.live = s.call.world.live ++ [] := by rw [hlive, List.append_nil]
  refine h.settle hsame hmore hstage ?_ ?_
  · rw [List.append_nil]
    exact h.frames
  · simp only [Calling.Suspended, Calling.settle]
    cases ha : step.answer with
    | ready answer => exact hsending
    | pending =>
        rcases hfuture ha with hf | hf <;> simp only [hf] <;> exact hsending

/-- A fresh `close_send` on a live call, or one that goes on. -/
theorem closing [AsyncWrite ω] (h : s.Kept cfg head encodeMessage K) (hsending : s.out.sending = none)
    {writer : ω} {b : Inbox H} {state : ReadState} (hup : s.call.Upgraded cfg head writer b state)
    (hconsumed : Consumed cfg b state (s.received.map (fun m => some (.ok m))))
    (hverdict : s.verdict = none) (hpipe : K b) {live : Live (Duplex (Inbox H) ω) H}
    (hlive : s.call.conn.inner = .duplex live) :
    s.Goes cfg head encodeMessage K (s.close (s.call.pollClosing live)) := by
  obtain ⟨writer', hsame, hsamelive, hup', hanswer⟩ := hup.pollClosing hlive
  have hnone : s.call.conn.trailers = none := by
    rw [GrpcClientConn.trailers, hup.inner]
    rfl
  have hnone' : (s.call.pollClosing live).call.conn.trailers = none := by
    rw [GrpcClientConn.trailers, hup'.inner]
    rfl
  refine Kept.close (h.quiet hsending hsame hsamelive
    (.live writer' b state hup' ?_ ?_ hpipe) (fun hp => .inr ?_)) hsending
  · have hreceived : (s.settle none (s.call.pollClosing live)).received = s.received := by
      rcases hanswer with ⟨hp, _⟩ | ⟨result, hr⟩
      · simp only [Calling.settle, hp]
      · simp only [Calling.settle, hr]
    rw [hreceived]
    exact hconsumed
  · simp only [Calling.settle, hnone, hnone', hverdict]
  · rcases hanswer with ⟨_, hf⟩ | ⟨result, hr⟩
    · exact hf
    · rw [hr] at hp
      cases hp

variable (hK : ∀ (b : Inbox H) len, K b → K (AsyncRead.pollRead b len).2)

include hK

theorem reading (h : s.Kept cfg head encodeMessage K) (hsending : s.out.sending = none)
    {writer : ω} {b : Inbox H} {state : ReadState} (hup : s.call.Upgraded cfg head writer b state)
    (hconsumed : Consumed cfg b state (s.received.map (fun m => some (.ok m))))
    (hverdict : s.verdict = none) (hpipe : K b) {step : OpStep (Inbox H) ω H Req Resp}
    (hsame : s.call.Same step.call) (hlive : step.call.world.live = s.call.world.live)
    (hspec : s.call.ReadSpec cfg head writer b state step) :
    s.Goes cfg head encodeMessage K (s.settle none step) := by
  have hnone : s.call.conn.trailers = none := by
    rw [GrpcClientConn.trailers, hup.inner]
    rfl
  have hstep := hconsumed.step
  have hkept := pollReadMessage_kept hK cfg hpipe state
  have hmore : step.call.world.live = s.call.world.live ++ [] := by rw [hlive, List.append_nil]
  have hframes : (s.settle none step).out.Frames encodeMessage (s.call.world.issued ++ []) := by
    rw [List.append_nil]
    exact h.frames
  -- a conn that is live afterwards has no trailers yet
  have hstill : ∀ {writer' : ω} {b' : Inbox H} {state' : ReadState},
      step.call.Upgraded cfg head writer' b' state' → (s.settle none step).verdict = none := by
    intro writer' b' state' hup'
    have hnone' : step.call.conn.trailers = none := by
      rw [GrpcClientConn.trailers, hup'.inner]
      rfl
    simp only [Calling.settle, hnone, hnone', hverdict]
  -- a conn that is over has its trailers and this result
  have hover : ∀ {b' : Inbox H} {state' : ReadState} (last : Option (Except Status Resp)),
      (∀ m, last ≠ some (.ok m)) →
      Consumed cfg b' state' (s.received.map (fun m => some (.ok m)) ++ [last]) → K b' →
      (step.answer = .ready (.item (told b' last)) ∧
        ∃ responseHeaders trailers, step.call.conn.inner = .done responseHeaders trailers) →
      s.Goes cfg head encodeMessage K (s.settle none step) := by
    rintro b' state' last hends hall hpipe' ⟨hanswer, hdone⟩
    obtain ⟨_, trailers, hinner⟩ := id hdone
    have hsome : step.call.conn.trailers = some trailers := by
      rw [GrpcClientConn.trailers, hinner]
    refine h.settle hsame hmore (.ended b' state' last hdone ?_ ?_ hends ?_ hpipe') hframes ?_
    · simp only [Calling.settle, hanswer]
    · have hreceived : (s.settle none step).received = s.received := by
        have hresult := told_ends b' hends
        simp only [Calling.settle, hanswer]
        rcases ht : told b' last with status | (_ | m)
        · rfl
        · rfl
        · exact absurd ht (hresult m)
      rw [hreceived]
      exact hall
    · simp only [Calling.settle, hanswer, hnone, hsome]
    · simp only [Calling.Suspended, Calling.settle, hanswer]
      exact hsending
  rcases hspec with ⟨status, hanswer, hconn⟩ | hspec
  · have hup' : step.call.Upgraded cfg head writer b state :=
      ⟨by rw [hconn]; exact hup.inner, by rw [hconn]; exact hup.config⟩
    refine h.settle hsame hmore (.live writer b state hup' ?_ (hstill hup') hpipe) hframes ?_
    · simp only [Calling.settle, hanswer]
      exact hconsumed
    · simp only [Calling.Suspended, Calling.settle, hanswer]
      exact hsending
  · cases hp : pollReadMessage cfg b state with
    | mk answer b' state' =>
        rw [hp] at hspec hstep hkept
        rcases answer with _ | (_ | (status | message))
        · obtain ⟨hanswer, hfuture, hup'⟩ := hspec
          refine h.settle hsame hmore (.live writer b' state' hup' ?_ (hstill hup') hkept) hframes ?_
          · simp only [Calling.settle, hanswer]
            simpa only [Poll.given, List.append_nil] using hstep
          · simp only [Calling.Suspended, Calling.settle, hanswer, hfuture]
            exact hsending
        · exact hover none (fun m => by simp) hstep hkept hspec
        · exact hover (some (.error status)) (fun m => by simp) hstep hkept hspec
        · obtain ⟨hanswer, hup'⟩ := hspec
          refine h.settle hsame hmore (.live writer b' state' hup' ?_ (hstill hup') hkept) hframes ?_
          · simp only [Calling.settle, hanswer, List.map_append]
            exact hstep
          · simp only [Calling.Suspended, Calling.settle, hanswer]
            exact hsending

variable [AsyncWrite ω] [Features]

/-- A fresh operation keeps the history in step, whatever it is and wherever the conn is. -/
theorem start (h : s.Kept cfg head encodeMessage K) (hhead : head.headStatus = none)
    (tick : Tick (Inbox H) ω H) (op : Op Req) :
    s.Goes cfg head encodeMessage K (s.start tick op) := by
  have hdrop := h.drop
  have hnone : s.drop.out.sending = none := rfl
  suffices hgoes : s.drop.Goes cfg head encodeMessage K (s.start tick op) from
    ⟨hgoes.kept, hgoes.issued, hgoes.closed⟩
  cases hdrop.stage with
  | live writer b state hup hconsumed hverdict hpipe =>
      have hinner := hup.inner
      cases op with
      | send message =>
          simp only [Calling.start, Call.poll, Call.startSend]
          cases hm : s.drop.call.conn.encodeMessage message with
          | error status =>
              rw [Calling.settle_finish _ rfl]
              exact hdrop.stays
          | ok frame =>
              have hframe : encodeMessage message = .ok frame := hdrop.encodes ▸ hm
              rw [hinner]
              exact hdrop.writing hup hconsumed hverdict hpipe hinner
                (hdrop.frames.starts hnone hframe) false tick
      | closeSend =>
          simp only [Calling.start, Call.poll, Call.startClose, hinner, Head.live]
          exact hdrop.closing hnone hup hconsumed hverdict hpipe hinner
      | openHead =>
          simp only [Calling.start, Call.poll, Call.startOpenHead, hinner, Head.live]
          rw [Calling.settle_finish _ rfl]
          exact hdrop.stays
      | recv =>
          obtain ⟨hsame, hlive, hspec⟩ := hup.pollReading hhead false tick
          simp only [Calling.start, Call.poll, Call.startRecv, Call.deliver, hinner, Head.live]
          exact hdrop.reading hK hnone hup hconsumed hverdict hpipe hsame hlive hspec
  | ended b state last hdone hidle hconsumed hends hverdict hpipe =>
      obtain ⟨responseHeaders, trailers, hinner⟩ := hdone
      cases op with
      | send message =>
          simp only [Calling.start, Call.poll, Call.startSend]
          cases hm : s.drop.call.conn.encodeMessage message with
          | error status =>
              rw [Calling.settle_finish _ rfl]
              exact hdrop.stays
          | ok frame =>
              rw [hinner, Calling.settle_finish _ rfl]
              exact hdrop.stays
      | closeSend =>
          simp only [Calling.start, Call.poll, Call.startClose, hinner]
          refine Kept.close ?_ hnone
          rw [Calling.settle_finish _ rfl]
          exact hdrop.stays
      | openHead =>
          simp only [Calling.start, Call.poll, Call.startOpenHead, hinner]
          rw [Calling.settle_finish _ rfl]
          exact hdrop.stays
      | recv =>
          simp only [Calling.start, Call.poll, Call.startRecv, Call.deliver, hinner]
          have hsame : s.drop.settle none (s.drop.call.finish .recv (.item (.ok none))) = s.drop := by
            have htrailers : s.drop.call.conn.trailers = some trailers := by
              rw [GrpcClientConn.trailers, hinner]
            simp only [Calling.settle, Call.finish, htrailers]
            rfl
          rw [hsame]
          exact hdrop.stays

theorem resume (h : s.Kept cfg head encodeMessage K) (hhead : head.headStatus = none)
    (tick : Tick (Inbox H) ω H) : s.Goes cfg head encodeMessage K (s.resume tick) := by
  have hsuspended := h.suspended
  unfold Calling.Suspended at hsuspended
  unfold Calling.resume
  cases hf : s.future with
  | none => exact h.stays
  | some future =>
      rw [hf] at hsuspended
      cases h.stage with
      | ended b state last hdone hidle hconsumed hends hverdict hpipe =>
          rw [hidle] at hf
          cases hf
      | live writer b state hup hconsumed hverdict hpipe =>
          have hinner := hup.inner
          cases future with
          | start op => exact hsuspended.elim
          | opening op o => exact hsuspended.elim
          | writing frame left =>
              obtain ⟨m, hm⟩ := hsuspended
              simp only [Call.poll, hinner, Head.live, hm, Option.map_some]
              exact h.writing hup hconsumed hverdict hpipe hinner (h.frames.resumes hm) true tick
          | closing =>
              simp only [Call.poll, hinner, Head.live]
              exact h.closing hsuspended hup hconsumed hverdict hpipe hinner
          | reading =>
              obtain ⟨hsame, hlive, hspec⟩ := hup.pollReading hhead true tick
              have hnone : s.out.sending = none := hsuspended
              simp only [Call.poll, hnone, Option.map_none]
              exact h.reading hK hnone hup hconsumed hverdict hpipe hsame hlive hspec

omit hK [AsyncWrite ω] [Features]

theorem mono {K' : Inbox H → Prop} (h : s.Kept cfg head encodeMessage K)
    (himp : ∀ b, K b → K' b) : s.Kept cfg head encodeMessage K' where
  stage := by
    cases h.stage with
    | live writer b state upgraded consumed verdict pipe =>
        exact .live writer b state upgraded consumed verdict (himp b pipe)
    | ended b state last done idle consumed ends verdict pipe =>
        exact .ended b state last done idle consumed ends verdict (himp b pipe)
  encodes := h.encodes
  frames := h.frames
  suspended := h.suspended
  closed := h.closed

/-- What the pipe brings changes nothing of the history. -/
theorem bring {K' : Inbox H → Prop} (h : s.Kept cfg head encodeMessage K)
    {f : Inbox H → Inbox H} (htaken : ∀ b, (f b).taken = b.taken)
    (hstopped : ∀ b fault, Stopped b fault → Stopped (f b) fault) (himp : ∀ b, K b → K' b)
    (hkeeps : ∀ b, K b → K' (f b)) :
    (s.bring f).Kept cfg head encodeMessage K' ∧ (s.bring f).out = s.out ∧
      (s.bring f).closed = s.closed ∧ (s.bring f).received = s.received ∧
      (s.bring f).verdict = s.verdict ∧ (s.bring f).call.world = s.call.world := by
  cases hs : h.stage with
  | live writer b state upgraded consumed verdict pipe =>
      have hinner := upgraded.inner
      have hbring : s.bring f = { s with
          call := { s.call with
            conn := { s.call.conn with inner := head.live (some writer) (f b, state) } } } := by
        rw [Calling.bring, hinner]
        rfl
      rw [hbring]
      refine ⟨⟨?_, h.encodes, h.frames, h.suspended, h.closed⟩, rfl, rfl, rfl, rfl, rfl⟩
      exact .live writer (f b) state ⟨rfl, upgraded.config⟩
        (consumed.moved (htaken b) (hstopped b)) verdict (hkeeps b pipe)
  | ended b state last done idle consumed ends verdict pipe =>
      obtain ⟨_, _, hinner⟩ := done
      have hbring : s.bring f = s := by rw [Calling.bring, hinner]
      rw [hbring]
      exact ⟨h.mono himp, rfl, rfl, rfl, rfl, rfl⟩

end Calling.Kept

end TrilliumGrpc
