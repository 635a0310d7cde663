import TrilliumGrpc.Client.Typed

/-! # The end of a response stream

Every error that comes out of the reading of a live response ends the call, and an
error kept from a failed open does so when it is delivered. An open that fails inside
`recv` and an interrupted read leave the call where a later `recv` fails again.
-/

namespace TrilliumGrpc

open Async HeaderMap Time

variable {ρ ω H Req Resp : Type}

def Inner.IsLive : Inner ρ ω H → Prop
  | .reading _ => True
  | .duplex _ => True
  | _ => False

def Inner.IsDone : Inner ρ ω H → Prop
  | .done _ _ => True
  | _ => False

theorem Inner.IsDone.exists {inner : Inner ρ ω H} (h : inner.IsDone) :
    ∃ responseHeaders trailers, inner = .done responseHeaders trailers := by
  cases inner with
  | done responseHeaders trailers => exact ⟨responseHeaders, trailers, rfl⟩
  | _ => exact h.elim

section

variable [ResponseBody ρ H] [AsyncWrite ω] [CodecCrates] [HeaderMap H] [Base64] [Features]

/-! ## Terminal calls -/

/-- Every `recv` of every later run gives the end, and so does every poll of a stream
over the same engine. -/
structure Call.Terminal (s : Call ρ ω H Req Resp) : Prop where
  recv : ∀ later, ∀ entry ∈ (s.run later).1, entry.1 = .recv →
    ∀ answer, entry.2 = some answer → answer = .item (.ok none)
  stream : ∀ ticks : List (Tick ρ ω H), ∃ c, (TypedCall.new s).run (ticks.map .pollNext) =
    .ok (ticks.map (fun _ => .polled (.ready none)), c)

namespace Call

variable {s : Call ρ ω H Req Resp}

theorem drive_of_done (h : s.conn.inner.IsDone) (op : Op Req) (ticks : List (Tick ρ ω H)) :
    (s.drive (.start op) ticks).2.1.conn.inner.IsDone ∧
      (op = .recv → ∀ answer, (s.drive (.start op) ticks).1 = some answer →
        answer = .item (.ok none)) := by
  cases ticks with
  | nil => exact ⟨h, fun _ answer hanswer => by simp [drive] at hanswer⟩
  | cons tick ticks =>
      obtain ⟨responseHeaders, trailers, hinner⟩ := h.exists
      unfold drive
      cases op with
      | send message =>
          simp only [poll, startSend, hinner]
          cases s.conn.encodeMessage message with
          | error status => exact ⟨h, by simp⟩
          | ok frame => exact ⟨h, by simp⟩
      | closeSend =>
          simp only [poll, startClose, hinner]
          exact ⟨h, by simp⟩
      | openHead =>
          simp only [poll, startOpenHead, hinner]
          exact ⟨h, by simp⟩
      | recv =>
          simp only [poll, startRecv, hinner, deliver]
          exact ⟨h, fun _ answer hanswer => (Option.some.inj hanswer).symm⟩

theorem recv_of_done (later : List (Op Req × List (Tick ρ ω H))) (h : s.conn.inner.IsDone) :
    ∀ entry ∈ (s.run later).1, entry.1 = .recv →
      ∀ answer, entry.2 = some answer → answer = .item (.ok none) := by
  induction later generalizing s with
  | nil => simp [run]
  | cons head later ih =>
      obtain ⟨op, ticks⟩ := head
      obtain ⟨hdone, hanswer⟩ := drive_of_done h op ticks
      rw [run_cons]
      intro entry hentry
      rcases List.mem_cons.mp hentry with rfl | hentry
      · exact hanswer
      · exact ih hdone entry hentry

theorem pollNext_of_done (h : s.conn.inner.IsDone) (tick : Tick ρ ω H) :
    (TypedCall.new s).pollNext tick = .ok (.ready none, TypedCall.new s) := by
  obtain ⟨responseHeaders, trailers, hinner⟩ := h.exists
  simp [TypedCall.pollNext, TypedCall.new, StreamingConn.launch, StreamingConn.engineRef,
    TypedCall.pollInFlight, poll, startRecv, deliver, finish, hinner, Answer.streamItem, bind,
    Except.bind, Except.map]

theorem stream_of_done (h : s.conn.inner.IsDone) (ticks : List (Tick ρ ω H)) :
    ∃ c, (TypedCall.new s).run (ticks.map .pollNext) =
      .ok (ticks.map (fun _ => .polled (.ready none)), c) := by
  induction ticks with
  | nil => exact ⟨_, rfl⟩
  | cons tick ticks ih =>
      obtain ⟨c, hrun⟩ := ih
      refine ⟨c, ?_⟩
      simp only [List.map_cons, TypedCall.run, TypedCall.step, pollNext_of_done h, hrun, bind,
        Except.bind, Except.map]

theorem terminal_of_done (h : s.conn.inner.IsDone) : s.Terminal :=
  ⟨fun later => recv_of_done later h, stream_of_done h⟩

theorem not_terminal {tick : Tick ρ ω H} {status : Status}
    (h : (s.startRecv tick).answer = .ready (.item (.error status))) : ¬ s.Terminal := by
  intro hterminal
  have hdrive : (s.drive (.start .recv) [tick]).1 = some (.item (.error status)) := by
    unfold drive
    simp only [poll]
    cases hp : s.startRecv tick with
    | mk answer s' future =>
        rw [hp] at h
        simp only at h
        subst h
        rfl
  have hnone := hterminal.recv [(.recv, [tick])] (.recv, some (.item (.error status)))
    (by rw [run_cons, hdrive]; exact List.mem_cons_self) rfl _ rfl
  simp at hnone

theorem not_terminal_of_failed {status : Status} (h : s.conn.inner = .failed status)
    (tick : Tick ρ ω H) : ¬ s.Terminal := by
  have hanswer : (s.startRecv tick).answer = .ready (.item (.error status)) := by
    simp [startRecv, deliver, h, finish]
  exact not_terminal hanswer

omit [ResponseBody ρ H] [AsyncWrite ω] [CodecCrates] [HeaderMap H] [Base64] [Features] in
theorem interrupt_of_cancelled {deadline : Option Instant} {started timer : Bool} {w : World H}
    (h : w.cancelled = true) : ∃ status, interrupt deadline started w timer = some status := by
  unfold interrupt
  cases deadline with
  | none => exact ⟨callCancelled, by simp [h]⟩
  | some instant =>
      dsimp only
      split
      · exact ⟨_, rfl⟩
      · exact ⟨callCancelled, by simp⟩

theorem not_terminal_of_live (h : s.conn.inner.IsLive) (tick : Tick ρ ω H) : ¬ s.Terminal := by
  obtain ⟨status, hstatus⟩ : ∃ status, interrupt s.conn.deadline false
      (s.world.observe ⟨true, tick.live.now, false⟩) false = some status :=
    interrupt_of_cancelled (by simp [World.observe])
  have hanswer : (s.startRecv { tick with live := ⟨true, tick.live.now, false⟩ }).answer =
      .ready (.item (.error status)) := by
    cases hinner : s.conn.inner with
    | reading live => simp [startRecv, deliver, hinner, pollReading, hstatus, finish]
    | duplex live => simp [startRecv, deliver, hinner, pollReading, hstatus, finish]
    | _ =>
        rw [hinner] at h
        exact h.elim
  exact not_terminal hanswer

/-! ## One poll that fails -/

/-- Neither the deadline nor a cancellation interrupts the read of the poll. -/
def ReadsOn (deadline : Option Instant) (w : World H) (started : Bool) (tick : Tick ρ ω H) :
    Prop :=
  interrupt deadline started (w.observe tick.live) tick.live.timer = none

/-- The open gets an accepted head in this poll, and nothing interrupts the read. -/
def OpensAndReads (deadline : Option Instant) (w : World H) (started : Bool)
    (tick : Tick ρ ω H) : Prop :=
  interrupt deadline started (w.observe tick.opening) tick.opening.timer = none ∧
    (∃ r head, tick.net = .response r ∧ processHead r = .ok head) ∧
    ReadsOn deadline (w.observe tick.opening) false tick

/-- What an error of the poll must not come from for the stream to be over. -/
def EndsStream (s : Call ρ ω H Req Resp) (tick : Tick ρ ω H) : OpFuture H Req → Prop
  | .start .recv =>
      match s.conn.inner with
      | .pending _ => s.conn.initError = none ∧ OpensAndReads s.conn.deadline
          { s.world with now := s.world.now.later tick.build } false tick
      | .done _ _ => True
      | .failed _ => True
      | _ => ReadsOn s.conn.deadline s.world false tick
  | .opening _ _ => OpensAndReads s.conn.deadline s.world true tick
  | .reading => ReadsOn s.conn.deadline s.world true tick
  | _ => True

theorem pollReading_terminal_iff (hlive : s.conn.inner.IsLive) (started : Bool)
    (tick : Tick ρ ω H) {status : Status}
    (h : (s.pollReading started tick).answer = .ready (.item (.error status))) :
    (s.pollReading started tick).call.Terminal ↔
      ReadsOn s.conn.deadline s.world started tick := by
  revert h
  unfold pollReading ReadsOn
  dsimp only
  cases interrupt s.conn.deadline started (s.world.observe tick.live) tick.live.timer with
  | some status =>
      have hnot : ¬ Terminal (⟨s.conn, s.world.observe tick.live⟩ : Call ρ ω H Req Resp) :=
        not_terminal_of_live hlive tick
      simp [finish, hnot]
  | none =>
      cases s.conn.pollRead with
      | mk answer conn =>
          cases answer with
          | pending => simp
          | ready item =>
              rcases conn.readOutcome_conn item with ⟨_, _, _, heq⟩ | ⟨_, _, heq, _⟩
              · simp [heq, finish]
              · simp only [finish, heq, iff_true]
                exact fun _ => terminal_of_done trivial

omit [AsyncWrite ω] [Features] in
theorem deliver_of_live (hlive : s.conn.inner.IsLive) (tick : Tick ρ ω H) :
    s.deliver tick = s.pollReading false tick := by
  unfold deliver
  split
  · rename_i hinner
    rw [hinner] at hlive
    exact hlive.elim
  · rename_i hinner
    rw [hinner] at hlive
    exact hlive.elim
  · rfl

omit [ResponseBody ρ H] [AsyncWrite ω] [CodecCrates] [HeaderMap H] [Base64] [Features] in
theorem goLive_live (c : GrpcClientConn ρ ω H Req Resp) (r : Response ρ ω H) (head : Head H) :
    (c.goLive r head).inner.IsLive ∧ (c.goLive r head).deadline = c.deadline := by
  unfold GrpcClientConn.goLive
  split <;> exact ⟨trivial, rfl⟩

omit [ResponseBody ρ H] [AsyncWrite ω] [CodecCrates] [HeaderMap H] [Base64] [Features] in
theorem readsOn_put {deadline : Option Instant} {w : World H} {o : Opening H} {started : Bool}
    {tick : Tick ρ ω H} : ReadsOn deadline (w.put o) started tick ↔
      ReadsOn deadline w started tick := by
  unfold World.put
  split <;> exact Iff.rfl

theorem pollOpening_terminal_iff (o : Opening H) (started : Bool) (tick : Tick ρ ω H)
    {status : Status}
    (h : (s.pollOpening .recv o started tick).answer = .ready (.item (.error status))) :
    (s.pollOpening .recv o started tick).call.Terminal ↔
      OpensAndReads s.conn.deadline s.world started tick := by
  revert h
  unfold pollOpening OpensAndReads
  dsimp only
  -- a failed open keeps its error for the next `recv`
  have hfailed : ∀ (world : World H) (status : Status),
      ¬ Terminal (⟨s.conn.fail status, world⟩ : Call ρ ω H Req Resp) :=
    fun world status => not_terminal_of_failed rfl tick
  cases interrupt s.conn.deadline started (s.world.observe tick.opening) tick.opening.timer with
  | some status => simp [finish, hfailed]
  | none =>
      cases hnet : tick.net with
      | connecting => simp
      | sent => simp
      | refused e => simp [finish, hfailed]
      | broken e => simp [finish, hfailed]
      | response r =>
          dsimp only
          cases hhead : processHead r with
          | error status => simp [finish, hfailed, hhead]
          | ok head =>
              obtain ⟨hlive, hdeadline⟩ := goLive_live s.conn r head
              intro h
              simp only [afterOpen] at h ⊢
              rw [deliver_of_live hlive] at h ⊢
              rw [pollReading_terminal_iff hlive false tick h, hdeadline, readsOn_put]
              simp [hhead]

theorem startRecv_terminal_iff (tick : Tick ρ ω H) {status : Status}
    (h : (s.startRecv tick).answer = .ready (.item (.error status))) :
    (s.startRecv tick).call.Terminal ↔ s.EndsStream tick (.start .recv) := by
  revert h
  unfold startRecv EndsStream
  cases hinner : s.conn.inner with
  | pending p =>
      dsimp only
      unfold materialize
      cases hinit : s.conn.initError with
      | some status =>
          have hnot : ¬ Terminal
              (⟨{ s.conn with initError := none }.fail status, s.world⟩ : Call ρ ω H Req Resp) :=
            not_terminal_of_failed rfl tick
          simp [finish, hnot]
      | none =>
          dsimp only
          intro h
          rw [pollOpening_terminal_iff _ false tick h]
          simp
  | reading live =>
      have hlive : s.conn.inner.IsLive := by rw [hinner]; trivial
      dsimp only
      rw [deliver_of_live hlive]
      exact pollReading_terminal_iff hlive false tick
  | duplex live =>
      have hlive : s.conn.inner.IsLive := by rw [hinner]; trivial
      dsimp only
      rw [deliver_of_live hlive]
      exact pollReading_terminal_iff hlive false tick
  | done responseHeaders trailers => simp [deliver, hinner, finish]
  | failed status' =>
      simp only [deliver, hinner, finish, iff_true]
      exact fun _ => terminal_of_done trivial

/-! ## Answers without an item -/

def NoItem (step : OpStep ρ ω H Req Resp) : Prop :=
  ∀ result, step.answer ≠ .ready (.item result)

omit [ResponseBody ρ H] [CodecCrates] [HeaderMap H] [Base64] [Features] in
theorem NoItem.pollClosing (live : Live (Duplex ρ ω) H) : NoItem (s.pollClosing live) := by
  unfold Call.pollClosing
  split
  dsimp only
  split <;> simp [NoItem, finish]

omit [ResponseBody ρ H] [CodecCrates] [HeaderMap H] [Base64] [Features] in
theorem NoItem.pollWriting (live : Live (Duplex ρ ω) H) (frame left : List UInt8) (started : Bool)
    (tick : Tick ρ ω H) : NoItem (s.pollWriting live frame left started tick) := by
  unfold Call.pollWriting
  dsimp only
  split
  · simp [NoItem]
  · split <;> simp [NoItem]

omit [ResponseBody ρ H] [HeaderMap H] [Base64] [Features] in
theorem NoItem.startSend (message : Req) (tick : Tick ρ ω H) :
    NoItem (s.startSend message tick) := by
  unfold Call.startSend
  split
  · simp [NoItem, finish]
  · split
    · split <;> simp [NoItem, finish]
    · exact .pollWriting _ _ _ false tick
    · simp [NoItem, finish]

variable {op : Op Req}

omit [ResponseBody ρ H] [AsyncWrite ω] [CodecCrates] [HeaderMap H] [Base64] [Features] in
theorem NoItem.failure (hop : op ≠ .recv) (s : Call ρ ω H Req Resp) (status : Status) :
    NoItem (s.finish op (op.failure status)) := by
  cases op with
  | recv => exact absurd rfl hop
  | _ => simp [NoItem, finish, Op.failure]

theorem NoItem.pollOpening (hop : op ≠ .recv) (o : Opening H) (started : Bool)
    (tick : Tick ρ ω H) : NoItem (s.pollOpening op o started tick) := by
  unfold Call.pollOpening
  dsimp only
  split
  · exact .failure hop _ _
  · split
    · simp [NoItem]
    · simp [NoItem]
    · exact .failure hop _ _
    · exact .failure hop _ _
    · split
      · exact .failure hop _ _
      · unfold afterOpen
        split
        · exact absurd rfl hop
        · split
          · exact .pollClosing _
          · simp [NoItem, finish]
        · simp [NoItem, finish]

theorem NoItem.materialize (hop : op ≠ .recv) (p : Pending H) (tick : Tick ρ ω H) :
    NoItem (s.materialize p op tick) := by
  unfold Call.materialize
  split
  · exact .failure hop _ _
  · exact .pollOpening hop _ false tick

/-- Only `recv` answers with an item. -/
theorem poll_item {future : OpFuture H Req} {tick : Tick ρ ω H}
    {result : Except Status (Option Resp)}
    (h : (s.poll tick future).answer = .ready (.item result)) :
    future = .start .recv ∨ (∃ o, future = .opening .recv o) ∨ future = .reading := by
  cases future with
  | start op =>
      cases op with
      | recv => exact .inl rfl
      | send message => exact absurd h (NoItem.startSend message tick result)
      | closeSend =>
          simp only [poll, startClose] at h
          split at h
          · exact absurd h (NoItem.materialize (by simp) _ tick result)
          · exact absurd h (NoItem.pollClosing _ result)
          · simp [finish] at h
      | openHead =>
          simp only [poll, startOpenHead] at h
          split at h
          · exact absurd h (NoItem.materialize (by simp) _ tick result)
          · simp [finish] at h
  | opening op o =>
      by_cases hop : op = .recv
      · exact .inr (.inl ⟨o, by rw [hop]⟩)
      · exact absurd h (NoItem.pollOpening hop o true tick result)
  | writing frame left =>
      simp only [poll] at h
      split at h
      · exact absurd h (NoItem.pollWriting _ _ _ true tick result)
      · simp at h
  | closing =>
      simp only [poll] at h
      split at h
      · exact absurd h (NoItem.pollClosing _ result)
      · simp at h
  | reading => exact .inr (.inr rfl)

/-! ## Whole futures -/

def Awaits (s : Call ρ ω H Req Resp) : OpFuture H Req → Prop
  | .reading => s.conn.inner.IsLive
  | _ => True

theorem poll_terminal_iff {future : OpFuture H Req} (hawaits : s.Awaits future)
    {tick : Tick ρ ω H} {status : Status}
    (h : (s.poll tick future).answer = .ready (.item (.error status))) :
    (s.poll tick future).call.Terminal ↔ s.EndsStream tick future := by
  rcases poll_item h with rfl | ⟨o, rfl⟩ | rfl
  · exact startRecv_terminal_iff tick h
  · exact pollOpening_terminal_iff o true tick h
  · exact pollReading_terminal_iff hawaits true tick h

omit [AsyncWrite ω] [Features] in
theorem pollReading_awaits (hlive : s.conn.inner.IsLive) (started : Bool) (tick : Tick ρ ω H)
    (h : (s.pollReading started tick).answer = .pending) :
    (s.pollReading started tick).call.Awaits (s.pollReading started tick).future := by
  revert h
  unfold pollReading
  dsimp only
  cases interrupt s.conn.deadline started (s.world.observe tick.live) tick.live.timer with
  | some status => simp [finish]
  | none =>
      have hread : s.conn.pollRead.2.inner.IsLive := by
        unfold GrpcClientConn.pollRead
        cases hinner : s.conn.inner with
        | reading live => trivial
        | duplex live => trivial
        | _ =>
            rw [hinner] at hlive
            exact hlive.elim
      cases hp : s.conn.pollRead with
      | mk answer conn =>
          rw [hp] at hread
          cases answer with
          | pending => exact fun _ => hread
          | ready item => simp [finish]

omit [Features] in
theorem afterOpen_awaits (hlive : s.conn.inner.IsLive) (tick : Tick ρ ω H)
    (h : (s.afterOpen op tick).answer = .pending) :
    (s.afterOpen op tick).call.Awaits (s.afterOpen op tick).future := by
  cases op with
  | recv =>
      simp only [afterOpen, deliver_of_live hlive] at h ⊢
      exact pollReading_awaits hlive false tick h
  | closeSend =>
      rcases Quiet.afterOpen_future h with ⟨hop, _⟩ | ⟨_, hfuture⟩
      · simp at hop
      · rw [hfuture]
        trivial
  | send message => simp [afterOpen, finish] at h
  | openHead => simp [afterOpen, finish] at h

theorem pollOpening_awaits (o : Opening H) (started : Bool) (tick : Tick ρ ω H)
    (h : (s.pollOpening op o started tick).answer = .pending) :
    (s.pollOpening op o started tick).call.Awaits (s.pollOpening op o started tick).future := by
  revert h
  unfold pollOpening
  dsimp only
  split
  · simp [finish]
  · split
    · exact fun _ => trivial
    · exact fun _ => trivial
    · simp [finish]
    · simp [finish]
    · split
      · simp [finish]
      · exact afterOpen_awaits (goLive_live s.conn _ _).1 tick

theorem materialize_awaits (p : Pending H) (tick : Tick ρ ω H)
    (h : (s.materialize p op tick).answer = .pending) :
    (s.materialize p op tick).call.Awaits (s.materialize p op tick).future := by
  revert h
  unfold materialize
  split
  · simp [finish]
  · exact pollOpening_awaits _ false tick

omit [ResponseBody ρ H] [CodecCrates] [HeaderMap H] [Base64] [Features] in
theorem pollWriting_future (live : Live (Duplex ρ ω) H) (frame left : List UInt8) (started : Bool)
    (tick : Tick ρ ω H) :
    ∃ left', (s.pollWriting live frame left started tick).future = .writing frame left' := by
  unfold pollWriting
  dsimp only
  split
  · exact ⟨_, rfl⟩
  · split <;> exact ⟨_, rfl⟩

omit [ResponseBody ρ H] [CodecCrates] [HeaderMap H] [Base64] [Features] in
theorem pollWriting_awaits (live : Live (Duplex ρ ω) H) (frame left : List UInt8) (started : Bool)
    (tick : Tick ρ ω H) : (s.pollWriting live frame left started tick).call.Awaits
      (s.pollWriting live frame left started tick).future := by
  obtain ⟨left', hfuture⟩ := s.pollWriting_future live frame left started tick
  rw [hfuture]
  trivial

omit [ResponseBody ρ H] [CodecCrates] [HeaderMap H] [Base64] [Features] in
theorem pollClosing_awaits (live : Live (Duplex ρ ω) H)
    (h : (s.pollClosing live).answer = .pending) :
    (s.pollClosing live).call.Awaits (s.pollClosing live).future := by
  rw [Quiet.pollClosing_future h]
  trivial

theorem startRecv_awaits (tick : Tick ρ ω H) (h : (s.startRecv tick).answer = .pending) :
    (s.startRecv tick).call.Awaits (s.startRecv tick).future := by
  revert h
  rw [startRecv]
  cases hinner : s.conn.inner with
  | pending p => exact materialize_awaits p tick
  | done responseHeaders trailers => simp [deliver, hinner, finish]
  | failed status => simp [deliver, hinner, finish]
  | reading live =>
      have hlive : s.conn.inner.IsLive := by
        rw [hinner]
        trivial
      dsimp only
      rw [deliver_of_live hlive]
      exact pollReading_awaits hlive false tick
  | duplex live =>
      have hlive : s.conn.inner.IsLive := by
        rw [hinner]
        trivial
      dsimp only
      rw [deliver_of_live hlive]
      exact pollReading_awaits hlive false tick

theorem start_awaits (op : Op Req) (tick : Tick ρ ω H)
    (h : (s.poll tick (.start op)).answer = .pending) :
    (s.poll tick (.start op)).call.Awaits (s.poll tick (.start op)).future := by
  cases op with
  | send message =>
      revert h
      simp only [poll, startSend]
      split
      · simp [finish]
      · split
        · split <;> simp [finish]
        · exact fun _ => pollWriting_awaits _ _ _ _ _
        · simp [finish]
  | closeSend =>
      revert h
      simp only [poll, startClose]
      split
      · exact materialize_awaits _ tick
      · exact pollClosing_awaits _
      · simp [finish]
  | openHead =>
      revert h
      simp only [poll, startOpenHead]
      split
      · exact materialize_awaits _ tick
      · simp [finish]
  | recv => exact startRecv_awaits tick h

theorem poll_awaits {future : OpFuture H Req} (hawaits : s.Awaits future) (tick : Tick ρ ω H)
    (h : (s.poll tick future).answer = .pending) :
    (s.poll tick future).call.Awaits (s.poll tick future).future := by
  cases future with
  | start op => exact start_awaits op tick h
  | opening op o => exact pollOpening_awaits o true tick h
  | writing frame left =>
      revert h
      simp only [poll]
      split
      · exact fun _ => pollWriting_awaits _ _ _ _ _
      · exact fun _ => trivial
  | closing =>
      revert h
      simp only [poll]
      split
      · exact pollClosing_awaits _
      · exact fun _ => trivial
  | reading => exact pollReading_awaits hawaits true tick h

/-! ## Whole runs -/

/-- The error a driven future ends with is one that ends the stream. -/
def DriveEnds (s : Call ρ ω H Req Resp) : OpFuture H Req → List (Tick ρ ω H) → Prop
  | _, [] => True
  | future, tick :: ticks =>
      match (s.poll tick future).answer with
      | .pending => (s.poll tick future).call.DriveEnds (s.poll tick future).future ticks
      | .ready (.item (.error _)) => s.EndsStream tick future
      | .ready _ => True

def ErrorsEnd (s : Call ρ ω H Req Resp) : List (Op Req × List (Tick ρ ω H)) → Prop
  | [] => True
  | (op, ticks) :: rest =>
      s.DriveEnds (.start op) ticks ∧ (s.drive (.start op) ticks).2.1.ErrorsEnd rest

/-- The call is terminal after every `recv` of the run that gave an error. -/
def TerminalAfterErrors (s : Call ρ ω H Req Resp) : List (Op Req × List (Tick ρ ω H)) → Prop
  | [] => True
  | (op, ticks) :: rest =>
      (∀ status, (s.drive (.start op) ticks).1 = some (.item (.error status)) →
        (s.drive (.start op) ticks).2.1.Terminal) ∧
      (s.drive (.start op) ticks).2.1.TerminalAfterErrors rest

theorem drive_terminal_iff {future : OpFuture H Req} (hawaits : s.Awaits future)
    (ticks : List (Tick ρ ω H)) :
    (∀ status, (s.drive future ticks).1 = some (.item (.error status)) →
      (s.drive future ticks).2.1.Terminal) ↔ s.DriveEnds future ticks := by
  induction ticks generalizing s future with
  | nil => simp [drive, DriveEnds]
  | cons tick ticks ih =>
      have hnext := poll_awaits hawaits tick
      have hiff : ∀ status, (s.poll tick future).answer = .ready (.item (.error status)) →
          ((s.poll tick future).call.Terminal ↔ s.EndsStream tick future) :=
        fun status => poll_terminal_iff hawaits
      unfold drive DriveEnds
      cases hp : s.poll tick future with
      | mk answer s' future' =>
          rw [hp] at hnext hiff
          rcases answer with _ | (result | (status | message))
          · exact ih (hnext rfl)
          · simp
          · simpa using hiff status rfl
          · simp

theorem terminalAfterErrors_iff (s : Call ρ ω H Req Resp)
    (ops : List (Op Req × List (Tick ρ ω H))) : s.TerminalAfterErrors ops ↔ s.ErrorsEnd ops := by
  induction ops generalizing s with
  | nil => exact Iff.rfl
  | cons head rest ih =>
      obtain ⟨op, ticks⟩ := head
      have hstart : s.Awaits (.start op) := trivial
      rw [TerminalAfterErrors, ErrorsEnd, ih, drive_terminal_iff hstart]

/-- Every error that a stream over the engine yields is one that ends it. -/
def StreamEnds (s : Call ρ ω H Req Resp) : OpFuture H Req → List (Tick ρ ω H) → Prop
  | _, [] => True
  | future, tick :: ticks =>
      match (s.poll tick future).answer with
      | .pending => (s.poll tick future).call.StreamEnds (s.poll tick future).future ticks
      | .ready (.item (.error _)) =>
          s.EndsStream tick future ∧ (s.poll tick future).call.StreamEnds (.start .recv) ticks
      | .ready _ => (s.poll tick future).call.StreamEnds (.start .recv) ticks

end Call

namespace TypedCall

def flying (s : Call ρ ω H Req Resp) (future : OpFuture H Req) : TypedCall ρ ω H Req Resp :=
  ⟨⟨none, some (s.conn, future)⟩, s.world⟩

theorem pollNext_flying (s : Call ρ ω H Req Resp) (future : OpFuture H Req) (tick : Tick ρ ω H) :
    (flying s future).pollNext tick = .ok (match (s.poll tick future).answer with
      | .pending => (.pending, flying (s.poll tick future).call (s.poll tick future).future)
      | .ready answer => (.ready answer.streamItem, new (s.poll tick future).call)) := by
  simp only [pollNext, flying, StreamingConn.launch, bind, Except.bind, pollInFlight]
  cases (s.poll tick future).answer <;> rfl

theorem pollNext_new (s : Call ρ ω H Req Resp) (tick : Tick ρ ω H) :
    (new s).pollNext tick = (flying s (.start .recv)).pollNext tick := rfl

/-- The engine is terminal after every error that the stream yields. -/
def TerminalAfterErrors (c : TypedCall ρ ω H Req Resp) : List (Tick ρ ω H) → Prop
  | [] => True
  | tick :: ticks => ∀ answer c', c.pollNext tick = .ok (answer, c') →
      (∀ status, answer = .ready (some (.error status)) → ∃ s, c' = new s ∧ s.Terminal) ∧
        c'.TerminalAfterErrors ticks

omit [ResponseBody ρ H] [AsyncWrite ω] [CodecCrates] [HeaderMap H] [Base64] [Features] in
theorem new_inj {s s' : Call ρ ω H Req Resp} (h : new s = new s') : s = s' := by
  obtain ⟨conn, world⟩ := s
  obtain ⟨conn', world'⟩ := s'
  simp only [new, mk.injEq, StreamingConn.mk.injEq, Option.some.injEq, and_true] at h
  rw [h.1, h.2]

theorem flying_terminal_iff {s : Call ρ ω H Req Resp} {future : OpFuture H Req}
    (hawaits : s.Awaits future) (ticks : List (Tick ρ ω H)) :
    (flying s future).TerminalAfterErrors ticks ↔ s.StreamEnds future ticks := by
  induction ticks generalizing s future with
  | nil => exact Iff.rfl
  | cons tick ticks ih =>
      have hnext := Call.poll_awaits hawaits tick
      have hiff : ∀ status, (s.poll tick future).answer = .ready (.item (.error status)) →
          ((s.poll tick future).call.Terminal ↔ s.EndsStream tick future) :=
        fun status => Call.poll_terminal_iff hawaits
      have hrest : (new (s.poll tick future).call).TerminalAfterErrors ticks ↔
          (s.poll tick future).call.StreamEnds (.start .recv) ticks := by
        have hstart : (s.poll tick future).call.Awaits (.start .recv) := trivial
        rw [← ih hstart]
        cases ticks with
        | nil => exact Iff.rfl
        | cons tick' ticks => simp only [TerminalAfterErrors, pollNext_new]
      rw [TerminalAfterErrors, pollNext_flying, Call.StreamEnds]
      cases hp : s.poll tick future with
      | mk answer s' future' =>
          rw [hp] at hnext hiff hrest
          match answer with
          | .pending =>
              rw [← ih (hnext rfl)]
              simp
          | .ready (.item (.error status)) =>
              rw [← hiff status rfl, ← hrest]
              simp only [Answer.streamItem, Except.ok.injEq, Prod.mk.injEq]
              constructor
              · intro h
                obtain ⟨hterminal, hlater⟩ := h _ _ ⟨rfl, rfl⟩
                obtain ⟨s'', hnew, hs''⟩ := hterminal status rfl
                exact ⟨new_inj hnew ▸ hs'', hlater⟩
              · rintro ⟨hterminal, hlater⟩ _ _ ⟨rfl, rfl⟩
                exact ⟨fun _ _ => ⟨_, rfl, hterminal⟩, hlater⟩
          | .ready (.item (.ok message)) =>
              rw [← hrest]
              cases message <;> simp [Answer.streamItem]
          | .ready (.unit result) =>
              rw [← hrest]
              simp [Answer.streamItem]

theorem new_terminal_iff (s : Call ρ ω H Req Resp) (ticks : List (Tick ρ ω H)) :
    (new s).TerminalAfterErrors ticks ↔ s.StreamEnds (.start .recv) ticks := by
  have hstart : s.Awaits (.start .recv) := trivial
  rw [← flying_terminal_iff hstart]
  cases ticks with
  | nil => exact Iff.rfl
  | cons tick ticks => simp only [TerminalAfterErrors, pollNext_new]

end TypedCall

/-- Whether `recv` is called or the stream is polled: an error is the last thing but
the end exactly when it is not an open's that this `recv` made nor an interruption's. -/
theorem error_ends_stream_iff (s : Call ρ ω H Req Resp) (ops : List (Op Req × List (Tick ρ ω H)))
    (ticks : List (Tick ρ ω H)) :
    (s.TerminalAfterErrors ops ↔ s.ErrorsEnd ops) ∧
      ((TypedCall.new s).TerminalAfterErrors ticks ↔ s.StreamEnds (.start .recv) ticks) :=
  ⟨s.terminalAfterErrors_iff ops, TypedCall.new_terminal_iff s ticks⟩

end

/-- A refused connection is reported twice. -/
theorem failed_open_errs_twice :
    letI := storedCrates
    letI := standardNoPad
    letI := allFeatures
    let refused := quietTick (.refused "connection refused")
    ((plainCall false).run [(.recv, [refused]), (.recv, [refused])]).1 =
        [(.recv, some (.item (.error (transportError "connection refused")))),
          (.recv, some (.item (.error (transportError "connection refused"))))] ∧
      ¬ (plainCall false).TerminalAfterErrors [(.recv, [refused])] := by
  let _ := storedCrates
  let _ := standardNoPad
  let _ := allFeatures
  refine ⟨rfl, fun h => ?_⟩
  have hterminal := h.1 _ rfl
  exact Call.not_terminal_of_failed rfl (quietTick .connecting) hterminal

end TrilliumGrpc
