import TrilliumGrpc.Frame.RoundTrip
import TrilliumGrpc.Server.Dispatch

/-! # Bidi responses

`src/server/bidi.rs`: the responder's loop, raced against the call's
cancellation, and the trailers after it. A responder is any program over the
channel; what one poll of it does is the list of channel operations it makes, and
dropping a future it has suspended is one of them.
-/

namespace TrilliumGrpc

open Async Bytes HeaderMap Time

variable {ρ ω H Req Resp : Type} [CodecCrates]

inductive ChannelOp (H Resp : Type) where
  /-- Make a `send` future and poll it. -/
  | send (value : Resp)
  /-- Poll the suspended `send` future. -/
  | resume
  /-- Drop the suspended `send` future. -/
  | drop
  /-- Make a `recv` future and poll it. -/
  | recv
  | editTrailers (f : H → H)

/-- One poll of a responder. -/
structure ResponderPoll (H Resp : Type) where
  ops : List (ChannelOp H Resp)
  outcome : Poll (Except Status Unit)

/-- The channel of a running responder and the `send` it has suspended. -/
structure Responding (ρ ω H Req Resp : Type) where
  channel : Channel ρ ω H Req Resp
  sending : Option SendFuture

namespace Responding

/-- A suspended `send` that is dropped here is dropped part-way. -/
def Tears (s : Responding ρ ω H Req Resp) : Prop := ∃ fut, s.sending = some fut ∧ fut.Torn

omit [CodecCrates] in
theorem not_tears {s : Responding ρ ω H Req Resp} (h : s.sending = none) : ¬ s.Tears := by
  rintro ⟨fut, hfut, _⟩
  rw [h] at hfut
  cases hfut

end Responding

/-- The channel is borrowed by the suspended future, so any operation other than
resuming it comes after it was dropped. -/
def ChannelOp.Drops : ChannelOp H Resp → Prop
  | .resume => False
  | _ => True

namespace Responding

variable [AsyncRead ρ] [AsyncWrite ω]

def perform (s : Responding ρ ω H Req Resp) : ChannelOp H Resp → Responding ρ ω H Req Resp
  | .send value =>
      let (_, channel, sending) := s.channel.startSend value
      ⟨channel, sending⟩
  | .resume =>
      match s.sending with
      | none => s
      | some fut =>
          let (_, channel, sending) := s.channel.resumeSend fut
          ⟨channel, sending⟩
  | .drop => { s with sending := none }
  | .recv => ⟨s.channel.recv.2, none⟩
  | .editTrailers f => ⟨{ s.channel with responseTrailers := f s.channel.responseTrailers }, none⟩

def poll (p : ResponderPoll H Resp) (s : Responding ρ ω H Req Resp) :
    Poll (Except Status Unit) × Responding ρ ω H Req Resp :=
  (p.outcome, p.ops.foldl perform s)

end Responding

section

variable [AsyncRead ρ] [AsyncWrite ω]

/-- The polls of a race up to the one that ends it. -/
def driveLoop (c : Cancellation) : Bool → List (Signals × ResponderPoll H Resp) →
    Responding ρ ω H Req Resp → Option (Except Status Unit × Responding ρ ω H Req Resp)
  | _, [], _ => none
  | started, (sig, p) :: polls, s =>
      match c.race started sig (Responding.poll p) s with
      | (.pending, s') => driveLoop c true polls s'
      | (.ready result, s') => some (result, s')

/-- What crosses the seam, the responder aside. -/
structure BidiState (H Req Resp : Type) where
  baseTrailers : H
  decode : List UInt8 → Except Status Req
  encode : Resp → Except Status (List UInt8)
  requestEncoding : Encoding
  responseEncoding : Encoding
  deadline : Option Instant

/-- The responder's start: a fresh channel over the upgrade. -/
def BidiState.start (b : BidiState H Req Resp) (upgrade : Upgrade ρ ω H) :
    Responding ρ ω H Req Resp :=
  ⟨.new upgrade b.baseTrailers b.decode b.encode b.requestEncoding b.responseEncoding, none⟩

/-- The upgrade with its trailers sent, if the given polls end the race. -/
def BidiState.drive [HeaderMap H] [Base64] (b : BidiState H Req Resp) (upgrade : Upgrade ρ ω H)
    (polls : List (Signals × ResponderPoll H Resp)) : Option (Upgrade ρ ω H) :=
  match driveLoop ⟨b.deadline⟩ false polls (b.start upgrade) with
  | none => none
  | some (result, s) =>
      let status := match result with
        | .ok () => Status.ok
        | .error status => status
      some { s.channel.upgrade with trailers := some (status.writeInto s.channel.responseTrailers) }

/-! ## Frame boundaries -/

def OpsWhole : List (ChannelOp H Resp) → Responding ρ ω H Req Resp → Prop
  | [], _ => True
  | op :: ops, s => (op.Drops → ¬ s.Tears) ∧ OpsWhole ops (s.perform op)

/-- No send is dropped part-way, by the responder or by the end of the race. -/
def RunWhole (c : Cancellation) : Bool → List (Signals × ResponderPoll H Resp) →
    Responding ρ ω H Req Resp → Prop
  | _, [], _ => True
  | started, (sig, p) :: polls, s =>
      (c.polls started sig = .ok () → OpsWhole p.ops s) ∧
        match c.race started sig (Responding.poll p) s with
        | (.pending, s') => RunWhole c true polls s'
        | (.ready _, s') => ¬ s'.Tears

end

/-- What has been written is complete frames, followed by the accepted part of
the frame that is being sent. -/
def Responding.Framed (encodeMessage : Resp → Except Status (List UInt8))
    (s : Responding ρ ω H Req Resp) : Prop :=
  s.channel.encodeMessage = encodeMessage ∧
    ∃ fs : List (List UInt8), (∀ f ∈ fs, ∃ v, encodeMessage v = .ok f) ∧
      match s.sending with
      | none => s.channel.upgrade.written = fs.flatten
      | some fut => (∃ v, encodeMessage v = .ok fut.frame) ∧ fut.left ≠ [] ∧
          ∃ accepted, fut.frame = accepted ++ fut.left ∧
            s.channel.upgrade.written = fs.flatten ++ accepted

namespace Responding.Framed

variable {encodeMessage : Resp → Except Status (List UInt8)} {s : Responding ρ ω H Req Resp}

theorem dropped (h : s.Framed encodeMessage) (hwhole : ¬ s.Tears) :
    ∃ fs : List (List UInt8), (∀ f ∈ fs, ∃ v, encodeMessage v = .ok f) ∧
      s.channel.upgrade.written = fs.flatten := by
  obtain ⟨_, fs, hfs, hsend⟩ := h
  refine ⟨fs, hfs, ?_⟩
  cases hs : s.sending with
  | none => simpa only [hs] using hsend
  | some fut =>
      rw [hs] at hsend
      obtain ⟨_, _, accepted, hsplit, hwritten⟩ := hsend
      have hfull : ¬ fut.Torn := fun htorn => hwhole ⟨fut, hs, htorn⟩
      rw [SendFuture.Torn, hsplit, List.length_append] at hfull
      have hnil : accepted = [] := List.length_eq_zero_iff.mp (by omega)
      rw [hwritten, hnil, List.append_nil]

theorem of_dropped (henc : s.channel.encodeMessage = encodeMessage) (hnone : s.sending = none)
    (h : ∃ fs : List (List UInt8), (∀ f ∈ fs, ∃ v, encodeMessage v = .ok f) ∧
      s.channel.upgrade.written = fs.flatten) : s.Framed encodeMessage := by
  obtain ⟨fs, hfs, hwritten⟩ := h
  refine ⟨henc, fs, hfs, ?_⟩
  rw [hnone]
  exact hwritten

variable [ByteSink ω]

/-- Writing on from inside a frame stays inside it or completes it. -/
theorem resumeSend {c : Channel ρ ω H Req Resp} {fut : SendFuture} {fs : List (List UInt8)}
    {accepted : List UInt8} (henc : c.encodeMessage = encodeMessage)
    (hfs : ∀ f ∈ fs, ∃ v, encodeMessage v = .ok f) (hframe : ∃ v, encodeMessage v = .ok fut.frame)
    (hsplit : fut.frame = accepted ++ fut.left)
    (hwritten : c.upgrade.written = fs.flatten ++ accepted) :
    Framed encodeMessage
      (⟨(c.resumeSend fut).2.1, (c.resumeSend fut).2.2⟩ : Responding ρ ω H Req Resp) := by
  have hspec := writeAll_spec c.upgrade.writer fut.left
  have hok := ByteSink.writeLoop_no_error fut.left.length c.upgrade.writer fut.left
  simp only [Channel.resumeSend]
  cases ha : (writeAll c.upgrade.writer fut.left).answer with
  | pending =>
      refine ⟨henc, fs, hfs, hframe, hspec.pending ha,
        accepted ++ (writeAll c.upgrade.writer fut.left).accepted, ?_, ?_⟩
      · rw [List.append_assoc, hspec.split, hsplit]
      · simp only [Channel.wrote, hwritten, List.append_assoc]
  | ready result =>
      cases result with
      | error e => exact absurd ha (hok e)
      | ok u =>
          have hleft := hspec.done ha
          have hall := hspec.split
          rw [hleft, List.append_nil] at hall
          refine ⟨henc, fs ++ [fut.frame], ?_, ?_⟩
          · intro f hf
            rcases List.mem_append.mp hf with hf | hf
            · exact hfs f hf
            · rw [List.mem_singleton.mp hf]
              exact hframe
          · simp only [Channel.wrote, hwritten, hall, hsplit, List.flatten_append,
              List.flatten_cons, List.flatten_nil, List.append_nil, List.append_assoc]

variable [AsyncRead ρ]

/-- Every operation keeps to frames, unless it drops a send part-way. -/
theorem perform (h : s.Framed encodeMessage) (op : ChannelOp H Resp)
    (hwhole : op.Drops → ¬ s.Tears) : (s.perform op).Framed encodeMessage := by
  have henc := h.1
  cases op with
  | send value =>
      obtain ⟨fs, hfs, hwritten⟩ := h.dropped (hwhole trivial)
      cases hv : s.channel.encodeMessage value with
      | error status =>
          simp only [Responding.perform, Channel.startSend, hv]
          exact of_dropped henc rfl ⟨fs, hfs, hwritten⟩
      | ok frame =>
          have hempty : s.channel.upgrade.written = fs.flatten ++ [] := by
            rw [hwritten, List.append_nil]
          have hframe : encodeMessage value = .ok frame := henc ▸ hv
          simp only [Responding.perform, Channel.startSend, hv]
          have hfut : ∃ v, encodeMessage v = .ok (SendFuture.mk frame frame).frame :=
            ⟨value, hframe⟩
          exact resumeSend henc hfs hfut rfl hempty
  | resume =>
      unfold Responding.perform
      cases hs : s.sending with
      | none => simpa only [hs] using h
      | some fut =>
          obtain ⟨_, fs, hfs, hsend⟩ := h
          rw [hs] at hsend
          obtain ⟨hframe, _, accepted, hsplit, hwritten⟩ := hsend
          exact resumeSend henc hfs hframe hsplit hwritten
  | drop => exact of_dropped henc rfl (h.dropped (hwhole trivial))
  | recv => exact of_dropped henc rfl (h.dropped (hwhole trivial))
  | editTrailers f => exact of_dropped henc rfl (h.dropped (hwhole trivial))

theorem foldl (h : s.Framed encodeMessage) (ops : List (ChannelOp H Resp))
    (hwhole : OpsWhole ops s) : (ops.foldl Responding.perform s).Framed encodeMessage := by
  induction ops generalizing s with
  | nil => exact h
  | cons op ops ih => exact ih (h.perform op hwhole.1) hwhole.2

end Responding.Framed

omit [CodecCrates] in
theorem Cancellation.race_state {φ T : Type} (c : Cancellation) (started : Bool) (sig : Signals)
    (poll : φ → Poll (Except Status T) × φ) (fut : φ) :
    (c.race started sig poll fut).2 = fut ∨
      c.polls started sig = .ok () ∧ (c.race started sig poll fut).2 = (poll fut).2 := by
  unfold Cancellation.race
  cases hc : c.polls started sig with
  | error status => exact .inl rfl
  | ok u =>
      refine .inr ⟨rfl, ?_⟩
      cases hp : poll fut with
      | mk answer fut' =>
          cases answer with
          | ready result => rfl
          | pending =>
              dsimp only
              split
              · rfl
              · split <;> rfl

variable [AsyncRead ρ] [ByteSink ω]

theorem framed_driveLoop {encodeMessage : Resp → Except Status (List UInt8)} (c : Cancellation)
    (polls : List (Signals × ResponderPoll H Resp)) (started : Bool)
    (s : Responding ρ ω H Req Resp) (h : s.Framed encodeMessage)
    (hwhole : RunWhole c started polls s) {result : Except Status Unit}
    {s' : Responding ρ ω H Req Resp} (hrun : driveLoop c started polls s = some (result, s')) :
    s'.Framed encodeMessage ∧ ¬ s'.Tears := by
  induction polls generalizing started s with
  | nil => simp [driveLoop] at hrun
  | cons poll polls ih =>
      obtain ⟨sig, p⟩ := poll
      obtain ⟨hops, hnext⟩ := hwhole
      have hframed : (c.race started sig (Responding.poll p) s).2.Framed encodeMessage := by
        rcases c.race_state started sig (Responding.poll p) s with heq | ⟨hpolled, heq⟩
        · rw [heq]
          exact h
        · rw [heq]
          exact h.foldl p.ops (hops hpolled)
      rw [driveLoop] at hrun
      cases hrace : c.race started sig (Responding.poll p) s with
      | mk answer s₁ =>
          rw [hrace] at hframed hnext hrun
          cases answer with
          | pending => exact ih true s₁ hframed hnext hrun
          | ready r =>
              simp only [Option.some.injEq, Prod.mk.injEq] at hrun
              obtain ⟨_, rfl⟩ := hrun
              exact ⟨hframed, hnext⟩

/-- In a call in which no send is dropped part-way, the bytes in front of the
trailers are complete frames, for every responder, every writer and every moment
at which the race ends; and if their lengths fit the length field, no reader of
these bytes finds a frame cut short. -/
theorem drive_ends_on_boundary [HeaderMap H] [Base64] (b : BidiState H Req Resp)
    (upgrade sent : Upgrade ρ ω H) (polls : List (Signals × ResponderPoll H Resp))
    (hfresh : upgrade.written = [])
    (hwhole : RunWhole ⟨b.deadline⟩ false polls (b.start upgrade))
    (hsent : b.drive upgrade polls = some sent) :
    ∃ fs : List (List UInt8), sent.written = fs.flatten ∧
      (∀ f ∈ fs, ∃ v, encodeFrame b.encode v b.responseEncoding = .ok f) ∧
      ((∀ f ∈ fs, f.length < prefixLen + 2 ^ 32) → ∀ maxMessageSize,
        stopsAt maxMessageSize sent.written = .boundary ∨
          ∃ len, stopsAt maxMessageSize sent.written = .oversized len) := by
  have hstart : (b.start upgrade).Framed (fun v => encodeFrame b.encode v b.responseEncoding) :=
    ⟨rfl, [], fun f hf => by simp at hf, hfresh⟩
  unfold BidiState.drive at hsent
  cases hrun : driveLoop ⟨b.deadline⟩ false polls (b.start upgrade) with
  | none => simp [hrun] at hsent
  | some out =>
      obtain ⟨result, s'⟩ := out
      simp only [hrun, Option.some.injEq] at hsent
      subst hsent
      obtain ⟨hframed, htears⟩ := framed_driveLoop _ polls false _ hstart hwhole hrun
      obtain ⟨fs, hfs, hwritten⟩ := hframed.dropped htears
      refine ⟨fs, hwritten, hfs, fun hshort maxMessageSize => ?_⟩
      simp only [hwritten]
      refine stopsAt_flatten maxMessageSize (fun f hf => ?_)
      obtain ⟨v, hv⟩ := hfs f hf
      obtain ⟨flag, payload, rfl⟩ := encodeFrame_ok hv
      have hlen := hshort _ hf
      rw [frame_length] at hlen
      exact ⟨flag, payload, rfl, by omega⟩

/-! ## A cut in the middle of a frame -/

/-- A call without a deadline, plain byte messages, over a scripted writer. -/
def plainBidi : BidiState HeaderList (List UInt8) (List UInt8) :=
  ⟨empty, .ok, .ok, .identity, .identity, none⟩

def plainUpgrade (turns : List Turn) : Upgrade Script SinkScript HeaderList :=
  ⟨⟨[], [], none⟩, ⟨turns⟩, [], none⟩

/-- One message is sent, stalled once on the way, and the responder returns. -/
def awaitedSend : List (Signals × ResponderPoll HeaderList (List UInt8)) :=
  [(⟨epoch, false, false, false⟩, ⟨[.send [7]], .pending⟩),
    (⟨epoch, false, false, false⟩, ⟨[.resume], .ready (.ok ())⟩)]

def cutSend : List (Signals × ResponderPoll HeaderList (List UInt8)) :=
  [(⟨epoch, false, false, false⟩, ⟨[.send [7]], .pending⟩),
    (⟨epoch, true, false, false⟩, ⟨[.resume], .ready (.ok ())⟩)]

omit [CodecCrates] [AsyncRead ρ] [ByteSink ω] in
theorem awaited_send_ends_on_boundary :
    letI := storedCrates
    letI := standardNoPad
    ∃ sent, plainBidi.drive (plainUpgrade [.chunk 2, .pending]) awaitedSend = some sent ∧
      ∃ fs : List (List UInt8), sent.written = fs.flatten ∧
        ∀ f ∈ fs, ∃ v, encodeFrame plainBidi.encode v plainBidi.responseEncoding = .ok f := by
  let _ := storedCrates
  let _ := standardNoPad
  have hwhole : RunWhole ⟨none⟩ false awaitedSend
      (plainBidi.start (plainUpgrade [.chunk 2, .pending])) :=
    ⟨fun _ => ⟨fun _ => Responding.not_tears rfl, trivial⟩,
      fun _ => ⟨fun hdrops => hdrops.elim, trivial⟩, Responding.not_tears rfl⟩
  obtain ⟨fs, hwritten, hfs, _⟩ := drive_ends_on_boundary plainBidi
    (plainUpgrade [.chunk 2, .pending]) _ awaitedSend rfl hwhole rfl
  exact ⟨_, rfl, fs, hwritten, hfs⟩

omit [CodecCrates] [AsyncRead ρ] [ByteSink ω] in
/-- Three bytes of the frame were taken when the shutdown came. -/
theorem cut_send_tears_frame :
    letI := storedCrates
    letI := standardNoPad
    ∃ sent, plainBidi.drive (plainUpgrade [.chunk 2, .pending]) cutSend = some sent ∧
      ¬ ∃ fs : List (List UInt8), sent.written = fs.flatten ∧
        ∀ f ∈ fs, ∃ v, encodeFrame plainBidi.encode v plainBidi.responseEncoding = .ok f := by
  let _ := storedCrates
  let _ := standardNoPad
  refine ⟨_, rfl, ?_⟩
  rintro ⟨fs, hwritten, hfs⟩
  have hbytes : fs.flatten = [0, 0, 0] := hwritten.symm
  cases fs with
  | nil => simp at hbytes
  | cons f fs =>
      obtain ⟨v, hv⟩ := hfs f List.mem_cons_self
      obtain ⟨flag, payload, rfl⟩ := encodeFrame_ok hv
      have hlen := congrArg List.length hbytes
      rw [List.flatten_cons, List.length_append, frame_length, prefixLen] at hlen
      simp only [List.length_cons, List.length_nil] at hlen
      omega

end TrilliumGrpc
