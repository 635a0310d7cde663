import TrilliumGrpc.Client.Terminal

/-! # Calls that are cancelled or late

A cancel and an elapsed deadline are seen by every race before the future it polls. A
call that either of them has stopped gives no message any more and issues nothing,
whatever is buffered and whatever is done with it.
-/

namespace TrilliumGrpc

open Async HeaderMap Time

variable {ρ ω H Req Resp : Type}

/-! ## Everything a user can do with a call -/

/-- An operation with the polls it is given, a method that returns at once, a `cancel`
on some handle, or the time that passes. -/
inductive Action (ρ ω H Req : Type) where
  | operate (op : Op Req) (ticks : List (Tick ρ ω H))
  | addAsciiMetadata (key value : String)
  | addBinaryMetadata (key : String) (value : List UInt8)
  | bufferRequest (message : Req)
  | withTimeout (timeout : Duration) (now : Instant)
  | cancel
  | wait (now : Instant)

namespace Call

section

variable [ResponseBody ρ H] [AsyncWrite ω] [CodecCrates] [HeaderMap H] [Base64] [Features]

/-- What an action gives, if it is an operation that finishes, and the call it leaves. A
timeout that overflows the clock panics and leaves the conn as it was. -/
def act (s : Call ρ ω H Req Resp) : Action ρ ω H Req → Option (Answer Resp) × Call ρ ω H Req Resp
  | .operate op ticks =>
      let (answer, s', _) := s.drive (.start op) ticks
      (answer, s')
  | .addAsciiMetadata key value => (none, ⟨s.conn.addAsciiMetadata key value, s.world⟩)
  | .addBinaryMetadata key value => (none, ⟨s.conn.addBinaryMetadata key value, s.world⟩)
  | .bufferRequest message => (none, ⟨s.conn.bufferRequest message, s.world⟩)
  | .withTimeout timeout now =>
      let now := s.world.now.later now
      match s.conn.setDeadlineFromNow timeout now with
      | .ok conn => (none, ⟨conn, { s.world with now }⟩)
      | .error _ => (none, ⟨s.conn, { s.world with now }⟩)
  | .cancel => (none, ⟨s.conn, { s.world with cancelled := true }⟩)
  | .wait now => (none, ⟨s.conn, { s.world with now := s.world.now.later now }⟩)

/-- What each action of a sequence gives, and the call at the end. -/
def acts (s : Call ρ ω H Req Resp) :
    List (Action ρ ω H Req) → List (Option (Answer Resp)) × Call ρ ω H Req Resp
  | [] => ([], s)
  | action :: rest =>
      let (answer, s') := s.act action
      let (answers, s'') := s'.acts rest
      (answer :: answers, s'')

end

/-! ## Stopped calls -/

/-- Some handle was cancelled, or the deadline lies in the past. -/
def Stopped (s : Call ρ ω H Req Resp) : Prop :=
  s.world.cancelled = true ∨
    ∃ deadline, s.conn.deadline = some deadline ∧ deadline < s.world.now

/-- No request is added, and what stops a call is not taken back. -/
structure Held (s s' : Call ρ ω H Req Resp) : Prop where
  requests : s'.world.requests = s.world.requests
  deadline : s'.conn.deadline = s.conn.deadline
  cancelled : s.world.cancelled = true → s'.world.cancelled = true
  now : s.world.now ≤ s'.world.now

theorem Held.refl (s : Call ρ ω H Req Resp) : s.Held s :=
  ⟨rfl, rfl, id, Int.le_refl _⟩

theorem Held.trans {s s' s'' : Call ρ ω H Req Resp} (h : s.Held s') (h' : s'.Held s'') :
    s.Held s'' :=
  ⟨h'.requests.trans h.requests, h'.deadline.trans h.deadline,
    fun hc => h'.cancelled (h.cancelled hc), Int.le_trans h.now h'.now⟩

theorem Held.observe {s : Call ρ ω H Req Resp} {conn : GrpcClientConn ρ ω H Req Resp}
    (hdeadline : conn.deadline = s.conn.deadline) (moment : Moment) :
    s.Held ⟨conn, s.world.observe moment⟩ where
  requests := rfl
  deadline := hdeadline
  cancelled h := by simp [World.observe, h]
  now := Instant.le_later_left _ _

theorem Held.of_conn {s : Call ρ ω H Req Resp} {conn : GrpcClientConn ρ ω H Req Resp}
    (hdeadline : conn.deadline = s.conn.deadline) : s.Held ⟨conn, s.world⟩ :=
  ⟨rfl, hdeadline, id, Int.le_refl _⟩

theorem Stopped.of_held {s s' : Call ρ ω H Req Resp} (h : s.Stopped) (hheld : s.Held s') :
    s'.Stopped := by
  rcases h with hcancelled | ⟨deadline, hsome, hpast⟩
  · exact .inl (hheld.cancelled hcancelled)
  · exact .inr ⟨deadline, hheld.deadline.trans hsome, Int.lt_of_lt_of_le hpast hheld.now⟩

theorem Stopped.interrupt {s : Call ρ ω H Req Resp} (h : s.Stopped) (moment : Moment)
    (timer : Bool) : ∃ status,
      TrilliumGrpc.interrupt s.conn.deadline false (s.world.observe moment) timer =
        some status := by
  rcases h with hcancelled | ⟨deadline, hsome, hpast⟩
  · apply interrupt_of_cancelled
    simp [World.observe, hcancelled]
  · have hlate : deadline < (s.world.observe moment).now :=
      Int.lt_of_lt_of_le hpast (Instant.le_later_left _ _)
    have hnone := (Instant.checkedDurationSince_eq_none_iff _ _).mpr hlate
    refine ⟨deadlinePassed, ?_⟩
    simp [TrilliumGrpc.interrupt, hsome, hnone]

/-- The poll of a stopped call: no message, nothing issued, and only a `close` of the
write half can be left suspended. -/
structure Halts (s : Call ρ ω H Req Resp) (step : OpStep ρ ω H Req Resp) : Prop where
  held : s.Held step.call
  noMessage : ∀ message, step.answer ≠ .ready (.item (.ok (some message)))
  closing : step.answer = .pending → step.future = .closing

theorem Halts.finish {s s' : Call ρ ω H Req Resp} (hheld : s.Held s') (op : Op Req)
    {answer : Answer Resp} (hanswer : ∀ message, answer ≠ .item (.ok (some message))) :
    s.Halts (s'.finish op answer) where
  held := hheld
  noMessage message h := hanswer message (Poll.ready.inj h)
  closing h := by cases h

theorem Halts.unit {s s' : Call ρ ω H Req Resp} (hheld : s.Held s') (op : Op Req)
    (result : Except Status Unit) : s.Halts (s'.finish op (.unit result)) :=
  .finish hheld op (fun message => by simp)

theorem failure_ne_message (op : Op Req) (status : Status) (message : Resp) :
    op.failure status ≠ .item (.ok (some message)) := by
  cases op with
  | recv => simp [Op.failure]
  | _ => simp [Op.failure]

theorem Halts.of_held {s s' : Call ρ ω H Req Resp} {step : OpStep ρ ω H Req Resp}
    (hheld : s.Held s') (h : s'.Halts step) : s.Halts step :=
  ⟨hheld.trans h.held, h.noMessage, h.closing⟩

/-! ## One poll -/

section

variable [ResponseBody ρ H] [AsyncWrite ω] [CodecCrates] [HeaderMap H] [Base64]
  {s : Call ρ ω H Req Resp}

omit [ResponseBody ρ H] [CodecCrates] [HeaderMap H] [Base64] in
theorem Halts.pollClosing (live : Live (Duplex ρ ω) H) : s.Halts (s.pollClosing live) := by
  unfold Call.pollClosing
  cases AsyncWrite.pollClose live.reader.writer with
  | mk answer writer =>
      cases answer with
      | pending => exact ⟨.of_conn rfl, (fun message h => by cases h), fun _ => rfl⟩
      | ready result =>
          apply Halts.unit
          exact .of_conn rfl

omit [AsyncWrite ω] in
theorem Stopped.deliver (h : s.Stopped) (tick : Tick ρ ω H) : s.Halts (s.deliver tick) := by
  have hreading : s.Halts (s.pollReading false tick) := by
    obtain ⟨status, hstatus⟩ := h.interrupt tick.live tick.live.timer
    simp only [pollReading, hstatus]
    apply Halts.finish
    · exact .observe rfl _
    · exact fun message => by simp
  unfold Call.deliver
  split
  · exact .finish (.refl s) _ (fun message => by simp)
  · apply Halts.finish
    · exact .of_conn rfl
    · exact fun message => by simp
  · exact hreading

variable [Features]

theorem Stopped.pollOpening (h : s.Stopped) (op : Op Req) (o : Opening H) (tick : Tick ρ ω H) :
    s.Halts (s.pollOpening op o false tick) := by
  obtain ⟨status, hstatus⟩ := h.interrupt tick.opening tick.opening.timer
  have hdeadline : (s.conn.fail status).deadline = s.conn.deadline := rfl
  simp only [Call.pollOpening, hstatus]
  apply Halts.finish
  · exact .observe hdeadline _
  · exact failure_ne_message op status

theorem Stopped.materialize (h : s.Stopped) (p : Pending H) (op : Op Req) (tick : Tick ρ ω H) :
    s.Halts (s.materialize p op tick) := by
  unfold Call.materialize
  cases s.conn.initError with
  | some status =>
      apply Halts.finish
      · exact .of_conn rfl
      · exact failure_ne_message op status
  | none =>
      have hheld : s.Held ⟨{ s.conn with inner := .pending { p with body := [] } },
          { s.world with now := s.world.now.later tick.build }⟩ :=
        ⟨rfl, rfl, id, Instant.le_later_left _ _⟩
      exact .of_held hheld ((h.of_held hheld).pollOpening op _ tick)

omit [ResponseBody ρ H] [HeaderMap H] [Base64] [Features] in
theorem Stopped.startSend (h : s.Stopped) (message : Req) (tick : Tick ρ ω H) :
    s.Halts (s.startSend message tick) := by
  unfold Call.startSend
  cases s.conn.encodeMessage message with
  | error status => exact .unit (.refl s) _ _
  | ok frame =>
      dsimp only
      split
      · split
        · exact .unit (.refl s) _ _
        · apply Halts.unit
          exact .of_conn rfl
      · obtain ⟨status, hstatus⟩ := h.interrupt tick.live tick.live.timer
        simp only [pollWriting, hstatus]
        exact ⟨.observe rfl _, fun message => by simp, fun hpending => by cases hpending⟩
      · exact .unit (.refl s) _ _

/-- Whatever operation is started on a stopped call halts at once. -/
theorem Stopped.poll (h : s.Stopped) (op : Op Req) (tick : Tick ρ ω H) :
    s.Halts (s.poll tick (.start op)) := by
  cases op with
  | send message => exact h.startSend message tick
  | closeSend =>
      show s.Halts (s.startClose tick)
      unfold startClose
      split
      · rename_i p _
        have hheld : s.Held ⟨{ s.conn with inner := .pending { p with sendClosed := true } },
            s.world⟩ := .of_conn rfl
        exact .of_held hheld ((h.of_held hheld).materialize _ _ tick)
      · exact .pollClosing _
      · exact .unit (.refl s) _ _
  | openHead =>
      show s.Halts (s.startOpenHead tick)
      unfold startOpenHead
      split
      · exact h.materialize _ _ tick
      · exact .unit (.refl s) _ _
  | recv =>
      show s.Halts (s.startRecv tick)
      unfold startRecv
      split
      · exact h.materialize _ _ tick
      · exact h.deliver tick

theorem Halts.poll_closing (tick : Tick ρ ω H) :
    s.Halts (s.poll tick (.closing : OpFuture H Req)) := by
  rw [Call.poll]
  split
  · exact .pollClosing _
  · exact ⟨.refl s, (fun message h => by cases h), fun _ => rfl⟩

/-! ## Whole runs -/

/-- The polls that a stopped call's operations are given. -/
theorem Stopped.drive (h : s.Stopped) {future : OpFuture H Req}
    (hfuture : future = .closing ∨ ∃ op, future = .start op) (ticks : List (Tick ρ ω H)) :
    s.Held (s.drive future ticks).2.1 ∧
      ∀ message, (s.drive future ticks).1 ≠ some (.item (.ok (some message))) := by
  induction ticks generalizing s future with
  | nil => exact ⟨.refl s, fun message => by simp [Call.drive]⟩
  | cons tick ticks ih =>
      have hhalts : s.Halts (s.poll tick future) := by
        rcases hfuture with rfl | ⟨op, rfl⟩
        · exact .poll_closing tick
        · exact h.poll op tick
      unfold Call.drive
      cases hp : s.poll tick future with
      | mk answer s' future' =>
          rw [hp] at hhalts
          cases answer with
          | ready answer =>
              refine ⟨hhalts.held, ?_⟩
              intro message hmessage
              rw [Option.some.injEq] at hmessage
              exact hhalts.noMessage message (congrArg Poll.ready hmessage)
          | pending =>
              obtain ⟨hheld, hanswer⟩ := ih (h.of_held hhalts.held) (.inl (hhalts.closing rfl))
              exact ⟨hhalts.held.trans hheld, hanswer⟩

omit [ResponseBody ρ H] [AsyncWrite ω] [CodecCrates] [HeaderMap H] [Base64] in
theorem addMetadata_deadline (c : GrpcClientConn ρ ω H Req Resp)
    (insert : Metadata → Except MetadataError Metadata) :
    (c.addMetadata insert).deadline = c.deadline := by
  unfold GrpcClientConn.addMetadata
  split
  · split
    · rfl
    · rfl
  · rfl

omit [ResponseBody ρ H] [AsyncWrite ω] [HeaderMap H] [Base64] [Features] in
theorem bufferRequest_deadline (c : GrpcClientConn ρ ω H Req Resp) (message : Req) :
    (c.bufferRequest message).deadline = c.deadline := by
  unfold GrpcClientConn.bufferRequest
  split
  · split
    · rfl
    · rfl
  · rfl

theorem Stopped.act_held (h : s.Stopped) {action : Action ρ ω H Req}
    (hkeeps : ∀ timeout now, action ≠ .withTimeout timeout now) :
    s.Held (s.act action).2 ∧ ∀ message, (s.act action).1 ≠ some (.item (.ok (some message))) := by
  have hnone : ∀ message, (none : Option (Answer Resp)) ≠ some (.item (.ok (some message))) :=
    fun message => nofun
  cases action with
  | operate op ticks => exact h.drive (.inr ⟨op, rfl⟩) ticks
  | addAsciiMetadata key value => exact ⟨.of_conn (addMetadata_deadline _ _), hnone⟩
  | addBinaryMetadata key value => exact ⟨.of_conn (addMetadata_deadline _ _), hnone⟩
  | bufferRequest message => exact ⟨.of_conn (bufferRequest_deadline _ _), hnone⟩
  | withTimeout timeout now => exact absurd rfl (hkeeps timeout now)
  | cancel => exact ⟨⟨rfl, rfl, fun _ => rfl, Int.le_refl _⟩, hnone⟩
  | wait now => exact ⟨⟨rfl, rfl, id, Instant.le_later_left _ _⟩, hnone⟩

theorem act_withTimeout (timeout : Duration) (now : Instant) :
    (s.act (.withTimeout timeout now)).1 = none ∧
      (s.act (.withTimeout timeout now)).2.world.requests = s.world.requests ∧
      (s.act (.withTimeout timeout now)).2.world.cancelled = s.world.cancelled := by
  simp only [act]
  split
  · exact ⟨rfl, rfl, rfl⟩
  · exact ⟨rfl, rfl, rfl⟩

/-- What stops a call is there at the start of every later action. -/
def Lasting (s : Call ρ ω H Req Resp) (actions : List (Action ρ ω H Req)) : Prop :=
  s.world.cancelled = true ∨
    (∃ deadline, s.conn.deadline = some deadline ∧ deadline < s.world.now) ∧
      ∀ timeout now, .withTimeout timeout now ∉ actions

theorem Lasting.act {action : Action ρ ω H Req} {rest : List (Action ρ ω H Req)}
    (h : s.Lasting (action :: rest)) : (s.act action).2.Lasting rest ∧
      (s.act action).2.world.requests = s.world.requests ∧
      ∀ message, (s.act action).1 ≠ some (.item (.ok (some message))) := by
  by_cases hkeeps : ∀ timeout now, action ≠ .withTimeout timeout now
  · have hstopped : s.Stopped := h.imp id And.left
    obtain ⟨hheld, hanswer⟩ := hstopped.act_held hkeeps
    refine ⟨?_, hheld.requests, hanswer⟩
    rcases h with hcancelled | ⟨⟨deadline, hsome, hpast⟩, hrest⟩
    · exact .inl (hheld.cancelled hcancelled)
    · right
      constructor
      · exact ⟨deadline, hheld.deadline.trans hsome, Int.lt_of_lt_of_le hpast hheld.now⟩
      · intro timeout now hmem
        exact hrest timeout now (List.mem_cons_of_mem _ hmem)
  · simp only [not_forall, not_not] at hkeeps
    obtain ⟨timeout, now, rfl⟩ := hkeeps
    obtain ⟨hnone, hrequests, hcancelled⟩ := s.act_withTimeout timeout now
    refine ⟨?_, hrequests, fun message => by rw [hnone]; exact nofun⟩
    rcases h with h | ⟨_, hrest⟩
    · exact .inl (hcancelled.trans h)
    · exact absurd List.mem_cons_self (hrest timeout now)

/-- A call that is cancelled, or late with no new timeout to come, never gives a message
again and puts no request on the wire. -/
theorem stopped_not_overtaken {s : Call ρ ω H Req Resp} {actions : List (Action ρ ω H Req)}
    (h : s.Lasting actions) :
    (∀ answer ∈ (s.acts actions).1, ∀ message, answer ≠ some (.item (.ok (some message)))) ∧
      (s.acts actions).2.world.requests = s.world.requests := by
  induction actions generalizing s with
  | nil => exact ⟨nofun, rfl⟩
  | cons action rest ih =>
      obtain ⟨hlasting, hrequests, hanswer⟩ := h.act
      obtain ⟨hlater, hlast⟩ := ih hlasting
      refine ⟨?_, hlast.trans hrequests⟩
      intro answer hmem
      rcases List.mem_cons.mp hmem with rfl | hmem
      · exact hanswer
      · exact hlater answer hmem

end

end Call

def bufferedCall : Call ScriptedBody SinkScript HeaderList (List UInt8) (List UInt8) :=
  ⟨{ plainConn false with
      inner := .reading ⟨⟨⟨[0, 0, 0, 0, 1, 7], [], none⟩, empty⟩, empty, .new, .identity, none⟩ },
    { World.fresh epoch with cancelled := true }⟩

theorem buffered_message_not_delivered :
    letI := storedCrates
    letI := standardNoPad
    letI := allFeatures
    (∀ answer ∈ (bufferedCall.acts [.operate .recv [quietTick .connecting], .cancel,
        .operate .recv [quietTick .connecting]]).1,
      ∀ message, answer ≠ some (.item (.ok (some message)))) ∧
    (bufferedCall.acts [.operate .recv [quietTick .connecting], .cancel,
      .operate .recv [quietTick .connecting]]).2.world.requests = [] := by
  let _ := storedCrates
  let _ := standardNoPad
  let _ := allFeatures
  exact Call.stopped_not_overtaken (.inl rfl)

end TrilliumGrpc
