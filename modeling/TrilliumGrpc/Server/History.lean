import TrilliumGrpc.Async.Steps
import TrilliumGrpc.Frame.Outgoing
import TrilliumGrpc.Server.Bidi

/-! # A responder with its history

The channel of a running responder together with what it has sent and what its `recv`s
have given. Each operation of the responder keeps the two in step with the bytes that
were written to the upgrade and the bytes that were taken from it.
-/

namespace TrilliumGrpc

open Async TalliedRead

variable {ρ ω H Req Resp : Type} [CodecCrates]

/-- A running responder, what it has sent, and the answers of its `recv`s. -/
structure Answering (ρ ω H Req Resp : Type) where
  state : Responding ρ ω H Req Resp
  out : Outgoing Resp
  received : List (Option (Except Status Req))

namespace Answering

def start (state : Responding ρ ω H Req Resp) : Answering ρ ω H Req Resp :=
  ⟨state, ⟨[], none, false⟩, []⟩

section

variable [AsyncWrite ω]

/-- A poll of `write_all` on what `fut` has left of the frame of `value`. -/
def writing (s : Answering ρ ω H Req Resp) (o : Outgoing Resp) (value : Resp) (fut : SendFuture) :
    Answering ρ ω H Req Resp :=
  let (_, channel, sending) := s.state.channel.resumeSend fut
  let step := writeAll s.state.channel.upgrade.writer fut.left
  ⟨⟨channel, sending⟩, o.settle value fut.frame step.left step.answer, s.received⟩

variable [AsyncRead ρ]

/-- An operation, and what it adds to the history. -/
def perform (s : Answering ρ ω H Req Resp) : ChannelOp H Resp → Answering ρ ω H Req Resp
  | .send value =>
      match s.state.channel.encodeMessage value with
      | .error _ => ⟨s.state.perform (.send value), s.out.drop, s.received⟩
      | .ok frame => s.writing s.out.drop value ⟨frame, frame⟩
  | .resume =>
      match s.state.sending, s.out.sending with
      | some fut, some (value, _) => s.writing s.out value fut
      | _, _ => { s with state := s.state.perform .resume }
  | .drop => ⟨s.state.perform .drop, s.out.drop, s.received⟩
  | .recv => ⟨s.state.perform .recv, s.out.drop, s.received ++ s.state.channel.recv.1.given⟩
  | .editTrailers f => ⟨s.state.perform (.editTrailers f), s.out.drop, s.received⟩

def poll (p : ResponderPoll H Resp) (s : Answering ρ ω H Req Resp) :
    Poll (Except Status Unit) × Answering ρ ω H Req Resp :=
  (p.outcome, p.ops.foldl perform s)

theorem perform_state (s : Answering ρ ω H Req Resp) (op : ChannelOp H Resp) :
    (s.perform op).state = s.state.perform op := by
  cases op with
  | send value =>
      cases hv : s.state.channel.encodeMessage value with
      | error status => simp only [perform, hv]
      | ok frame => simp only [perform, hv, writing, Responding.perform, Channel.startSend]
  | resume =>
      unfold perform
      cases hs : s.state.sending with
      | none => rfl
      | some fut =>
          cases ho : s.out.sending with
          | none => rfl
          | some x =>
              unfold Responding.perform
              simp only [hs]
              rfl
  | drop => rfl
  | recv => rfl
  | editTrailers f => rfl

theorem poll_state (p : ResponderPoll H Resp) (s : Answering ρ ω H Req Resp) :
    (poll p s).1 = (Responding.poll p s.state).1 ∧
      (poll p s).2.state = (Responding.poll p s.state).2 := by
  refine ⟨rfl, ?_⟩
  simp only [poll, Responding.poll]
  generalize p.ops = ops
  induction ops generalizing s with
  | nil => rfl
  | cons op ops ih =>
      rw [List.foldl_cons, List.foldl_cons, ← perform_state]
      exact ih (s.perform op)

/-- The race of a responder with its history is that of the responder. -/
theorem race_state (c : Cancellation) (started : Bool) (sig : Signals) (p : ResponderPoll H Resp)
    (s : Answering ρ ω H Req Resp) :
    (c.race started sig (poll p) s).1 = (c.race started sig (Responding.poll p) s.state).1 ∧
      (c.race started sig (poll p) s).2.state =
        (c.race started sig (Responding.poll p) s.state).2 := by
  obtain ⟨hanswer, hstate⟩ := poll_state p s
  unfold Cancellation.race
  cases c.polls started sig with
  | error status => exact ⟨rfl, rfl⟩
  | ok u =>
      rcases hp : poll p s with ⟨_ | result, s'⟩ <;>
        rcases hq : Responding.poll p s.state with ⟨_ | result', t⟩ <;>
        rw [hp, hq] at hanswer hstate <;> cases hanswer <;> cases hstate
      · dsimp only
        split
        · exact ⟨rfl, rfl⟩
        · split
          · exact ⟨rfl, rfl⟩
          · exact ⟨rfl, rfl⟩
      · exact ⟨rfl, rfl⟩

end

/-- The history of a responder that frames with `encodeMessage` and reads with `cfg`. -/
structure Kept [TalliedRead ρ] (cfg : ReadConfig Req)
    (encodeMessage : Resp → Except Status (List UInt8)) (s : Answering ρ ω H Req Resp) : Prop where
  sending : s.state.sending = s.out.sending.map Prod.snd
  reads : s.state.channel.readConfig = cfg
  encodes : s.state.channel.encodeMessage = encodeMessage
  frames : s.out.Frames encodeMessage s.state.channel.upgrade.written
  consumed : Consumed cfg s.state.channel.upgrade.body s.state.channel.state s.received

section

variable [TalliedRead ρ] {cfg : ReadConfig Req}
  {encodeMessage : Resp → Except Status (List UInt8)} {s : Answering ρ ω H Req Resp}

theorem Kept.dropped (h : s.Kept cfg encodeMessage) (state : Responding ρ ω H Req Resp)
    {received : List (Option (Except Status Req))} (hnone : state.sending = none)
    (hreads : state.channel.readConfig = cfg)
    (hencodes : state.channel.encodeMessage = encodeMessage)
    (hwritten : state.channel.upgrade.written = s.state.channel.upgrade.written)
    (hconsumed : Consumed cfg state.channel.upgrade.body state.channel.state received) :
    Kept cfg encodeMessage ⟨state, s.out.drop, received⟩ :=
  ⟨hnone, hreads, hencodes, by rw [hwritten]; exact h.frames.drop, hconsumed⟩

variable [AsyncWrite ω]

theorem Kept.writing (h : s.Kept cfg encodeMessage) {o : Outgoing Resp} {value : Resp}
    {fut : SendFuture}
    (hbegun : o.Begun encodeMessage s.state.channel.upgrade.written value fut.frame fut.left) :
    (s.writing o value fut).Kept cfg encodeMessage := by
  have hspec := writeAll_spec s.state.channel.upgrade.writer fut.left
  have hframes := hbegun.settle hspec (fun h => h) (fun h => h)
  obtain ⟨hpending, hready⟩ := o.settle_sending value fut.frame
    (writeAll s.state.channel.upgrade.writer fut.left).left
    (writeAll s.state.channel.upgrade.writer fut.left).answer
  simp only [Answering.writing, Channel.resumeSend]
  cases ha : (writeAll s.state.channel.upgrade.writer fut.left).answer with
  | pending =>
      rw [ha] at hframes hpending
      exact ⟨by rw [hpending rfl]; rfl, h.reads, h.encodes, hframes, h.consumed⟩
  | ready result =>
      rw [ha] at hframes hready
      exact ⟨by rw [hready (by simp)]; rfl, h.reads, h.encodes, hframes, h.consumed⟩

theorem Kept.perform (h : s.Kept cfg encodeMessage) (op : ChannelOp H Resp) :
    (s.perform op).Kept cfg encodeMessage := by
  have hlink := h.sending
  cases op with
  | drop => exact h.dropped (s.state.perform .drop) rfl h.reads h.encodes rfl h.consumed
  | editTrailers f =>
      exact h.dropped (s.state.perform (.editTrailers f)) rfl h.reads h.encodes rfl
        h.consumed
  | recv =>
      have hstep := h.consumed.step
      have hreads := h.reads
      refine h.dropped (s.state.perform .recv) rfl h.reads h.encodes rfl ?_
      subst hreads
      exact hstep
  | send value =>
      cases hv : s.state.channel.encodeMessage value with
      | error status =>
          have hsame : s.state.perform (.send value) = ⟨s.state.channel, none⟩ := by
            simp only [Responding.perform, Channel.startSend, hv]
          simp only [Answering.perform, hv, hsame]
          exact h.dropped _ rfl h.reads h.encodes rfl h.consumed
      | ok frame =>
          have hframe : encodeMessage value = .ok frame := h.encodes ▸ hv
          simp only [Answering.perform, hv]
          exact h.writing (h.frames.drop.starts rfl hframe)
  | resume =>
      unfold Answering.perform
      cases ho : s.out.sending with
      | none =>
          rw [ho, Option.map_none] at hlink
          have hsame : s.state.perform .resume = s.state := by
            simp only [Responding.perform, hlink]
          rw [hlink]
          dsimp only
          rw [hsame]
          exact h
      | some x =>
          rw [ho, Option.map_some] at hlink
          rw [hlink]
          exact h.writing (h.frames.resumes ho)

theorem Kept.foldl (h : s.Kept cfg encodeMessage) (ops : List (ChannelOp H Resp)) :
    (ops.foldl Answering.perform s).Kept cfg encodeMessage :=
  kept_of_step (fun _ op hs => hs.perform op) h ops

end

/-! ## Over a pipe -/

/-- What a responder that reads a pipe may do to its upgrade: write on, and read. -/
structure Moves {E : Type} (s s' : Answering (Inbox E) ω H Req Resp) : Prop where
  written : s.state.channel.upgrade.written <+: s'.state.channel.upgrade.written
  received : s'.state.channel.upgrade.body.received = s.state.channel.upgrade.body.received
  ending : s'.state.channel.upgrade.body.ending = s.state.channel.upgrade.body.ending
  trailers : s'.state.channel.upgrade.trailers = s.state.channel.upgrade.trailers

section

variable {E : Type}

omit [CodecCrates] in
theorem Moves.refl (s : Answering (Inbox E) ω H Req Resp) : s.Moves s :=
  ⟨List.prefix_rfl, rfl, rfl, rfl⟩

omit [CodecCrates] in
theorem Moves.trans {s s' s'' : Answering (Inbox E) ω H Req Resp} (h : s.Moves s')
    (h' : s'.Moves s'') : s.Moves s'' :=
  ⟨h.written.trans h'.written, h'.received.trans h.received, h'.ending.trans h.ending,
    h'.trailers.trans h.trailers⟩

variable [AsyncWrite ω]

omit [CodecCrates] in
theorem resumeSend_upgrade (c : Channel (Inbox E) ω H Req Resp) (fut : SendFuture) :
    c.upgrade.written <+: (c.resumeSend fut).2.1.upgrade.written ∧
      (c.resumeSend fut).2.1.upgrade.body = c.upgrade.body ∧
      (c.resumeSend fut).2.1.upgrade.trailers = c.upgrade.trailers := by
  unfold Channel.resumeSend
  dsimp only
  cases (writeAll c.upgrade.writer fut.left).answer with
  | pending => exact ⟨List.prefix_append _ _, rfl, rfl⟩
  | ready result => exact ⟨List.prefix_append _ _, rfl, rfl⟩

omit [CodecCrates] in
theorem Moves.of_resumeSend {s s' : Answering (Inbox E) ω H Req Resp} (fut : SendFuture)
    (h : s'.state.channel = (s.state.channel.resumeSend fut).2.1) : s.Moves s' := by
  obtain ⟨hwritten, hbody, htrailers⟩ := resumeSend_upgrade s.state.channel fut
  rw [← h] at hwritten hbody htrailers
  exact ⟨hwritten, congrArg Inbox.received hbody, congrArg Inbox.ending hbody, htrailers⟩

theorem perform_moves (s : Answering (Inbox E) ω H Req Resp) (op : ChannelOp H Resp) :
    s.Moves (s.perform op) := by
  cases op with
  | drop => exact ⟨List.prefix_rfl, rfl, rfl, rfl⟩
  | editTrailers f => exact ⟨List.prefix_rfl, rfl, rfl, rfl⟩
  | recv =>
      -- reading moves bytes out of the pipe and changes nothing of what has come
      have hkept := pollReadMessage_kept
        (K := fun b : Inbox E => b.received = s.state.channel.upgrade.body.received ∧
          b.ending = s.state.channel.upgrade.body.ending)
        (fun b len hb => ⟨(b.received_pollRead len).1.trans hb.1,
          (b.received_pollRead len).2.trans hb.2⟩)
        s.state.channel.readConfig ⟨rfl, rfl⟩ s.state.channel.state
      exact ⟨List.prefix_rfl, hkept.1, hkept.2, rfl⟩
  | send value =>
      cases hv : s.state.channel.encodeMessage value with
      | error status =>
          have hsame : s.state.perform (.send value) = ⟨s.state.channel, none⟩ := by
            simp only [Responding.perform, Channel.startSend, hv]
          simp only [Answering.perform, hv, hsame]
          exact ⟨List.prefix_rfl, rfl, rfl, rfl⟩
      | ok frame =>
          simp only [Answering.perform, hv]
          exact .of_resumeSend ⟨frame, frame⟩ rfl
  | resume =>
      unfold Answering.perform
      cases hs : s.state.sending with
      | none =>
          have hsame : s.state.perform .resume = s.state := by
            simp only [Responding.perform, hs]
          dsimp only
          rw [hsame]
          exact Moves.refl s
      | some fut =>
          cases ho : s.out.sending with
          | some x => exact .of_resumeSend fut rfl
          | none =>
              refine .of_resumeSend fut ?_
              simp only [Responding.perform, hs]

theorem foldl_moves (s : Answering (Inbox E) ω H Req Resp) (ops : List (ChannelOp H Resp)) :
    s.Moves (ops.foldl Answering.perform s) := by
  have hstep : ∀ (t : Answering (Inbox E) ω H Req Resp) op, s.Moves t → s.Moves (t.perform op) :=
    fun t op ht => ht.trans (t.perform_moves op)
  exact kept_of_step hstep (Moves.refl s) ops

end

end Answering

end TrilliumGrpc
