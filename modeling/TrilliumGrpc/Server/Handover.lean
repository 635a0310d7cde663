import TrilliumGrpc.Client.Issue
import TrilliumGrpc.Server.Bidi

/-! # Handing the request stream over

A prologue may read some requests through one `requests` stream after another;
each starts from a fresh read state on the body where the last one left it, and
so does the responder's channel behind the seam.
-/

namespace TrilliumGrpc

open Async ByteSource HeaderMap

variable {ρ ω H Req Resp : Type}

/-- Whoever reads the requests: a stream of the prologue, with the calls of
`recv` it has left after the current one and those of the streams after it, or
the channel. -/
inductive Reader (ρ ω H Req Resp : Type) where
  | prologue (grpc : GrpcServerConn H ρ) (stream : RequestStream Req ρ) (calls : Nat)
      (later : List Nat)
  | responding (channel : Channel ρ ω H Req Resp)

namespace Reader

/-- The next reader of a plan: a stream for each call count, then, behind the seam,
the channel over the retained body. A stream dropped unread changes nothing. -/
def next (b : BidiState H Req Resp) (writer : ω) (grpc : GrpcServerConn H ρ) :
    List Nat → Reader ρ ω H Req Resp
  | [] => .responding (b.start ⟨grpc.conn.requestBody, writer, [], none⟩).channel
  | 0 :: later => next b writer grpc later
  | (calls + 1) :: later => .prologue grpc (grpc.requests b.decode) calls later

/-- One poll of whoever reads. A completed `recv` counts down the stream's calls,
and the last one drops it; only the channel ends the whole. -/
def poll [AsyncRead ρ] [CodecCrates] (b : BidiState H Req Resp) (writer : ω) :
    Reader ρ ω H Req Resp → Poll (Option (Except Status Req)) × Reader ρ ω H Req Resp
  | .responding channel =>
      let (answer, channel) := channel.recv
      (answer, .responding channel)
  | .prologue grpc stream calls later =>
      match stream.pollMessage with
      | (.pending, stream) => (.pending, .prologue grpc stream calls later)
      | (.ready item, stream) =>
          (match item with
            | none => .pending
            | some message => .ready (some message),
          match calls with
          | 0 => next b writer (grpc.withBody stream.reader) later
          | calls + 1 => .prologue grpc stream calls later)

def view : Reader ρ ω H Req Resp → ρ × ReadState
  | .prologue _ stream _ _ => (stream.reader, stream.state)
  | .responding channel => (channel.upgrade.body, channel.state)

/-- The calls of `recv` the prologue still makes. -/
def callsLeft : Reader ρ ω H Req Resp → Nat
  | .prologue _ _ calls later => calls + 1 + later.sum
  | .responding _ => 0

end Reader

def BidiState.readConfig (b : BidiState H Req Resp) : ReadConfig Req :=
  ⟨b.decode, b.requestEncoding, defaultMaxMessageSize⟩

namespace Reader

def Uniform (b : BidiState H Req Resp) : Reader ρ ω H Req Resp → Prop
  | .prologue grpc stream _ _ =>
      grpc.requestEncoding = b.requestEncoding ∧ stream.config = b.readConfig
  | .responding channel => channel.readConfig = b.readConfig

theorem next_spec (b : BidiState H Req Resp) (writer : ω) (grpc : GrpcServerConn H ρ)
    (plan : List Nat) (henc : grpc.requestEncoding = b.requestEncoding) :
    (next b writer grpc plan).view = (grpc.conn.requestBody, .new) ∧
      (next b writer grpc plan).Uniform b ∧ (next b writer grpc plan).callsLeft ≤ plan.sum := by
  induction plan with
  | nil => exact ⟨rfl, rfl, Nat.le_refl _⟩
  | cons calls later ih =>
      cases calls with
      | zero =>
          rw [List.sum_cons, Nat.zero_add]
          exact ih
      | succ calls =>
          have hconfig : (grpc.requests b.decode).config = b.readConfig := by
            simp only [GrpcServerConn.requests, RequestStream.new, BidiState.readConfig, henc]
          exact ⟨rfl, ⟨henc, hconfig⟩, by rw [List.sum_cons]; exact Nat.le_refl _⟩

variable [ByteSource ρ]

def Before (r' r : Reader ρ ω H Req Resp) : Prop :=
  Prod.Lex (· < ·) Advanced (r'.callsLeft, r'.view.1) (r.callsLeft, r.view.1)

theorem before_wf :
    WellFounded (Before : Reader ρ ω H Req Resp → Reader ρ ω H Req Resp → Prop) :=
  InvImage.wf (fun r : Reader ρ ω H Req Resp => (r.callsLeft, r.view.1))
    (WellFounded.prod_lex Nat.lt_wfRel.wf advanced_wf)

variable [CodecCrates]

/-- The reader is one of the call's, and the frames of `left` are still to come. -/
structure Ahead (b : BidiState H Req Resp) (left : List (Req × List UInt8))
    (reader : Reader ρ ω H Req Resp) : Prop where
  uniform : reader.Uniform b
  holding : Holding b.readConfig left reader.view

def Step (b : BidiState H Req Resp) (left : List (Req × List UInt8))
    (reader : Reader ρ ω H Req Resp) :
    Poll (Option (Except Status Req)) × Reader ρ ω H Req Resp → Prop
  | (.pending, reader') => Ahead b left reader' ∧ Before reader' reader
  | (.ready none, reader') => left = [] ∧ Ahead b left reader'
  | (.ready (some message), reader') => ∃ x left', left = x :: left' ∧ message = .ok x.1 ∧
      Ahead b left' reader' ∧ rest reader'.view.1 = wire left'

variable {b : BidiState H Req Resp} {left : List (Req × List UInt8)}

theorem Ahead.next {grpc : GrpcServerConn H ρ} (henc : grpc.requestEncoding = b.requestEncoding)
    (hend : fault grpc.conn.requestBody = none) (hrest : rest grpc.conn.requestBody = wire left)
    (writer : ω) (plan : List Nat) :
    Ahead b left (next b writer grpc plan) ∧ (next b writer grpc plan).view.1 =
      grpc.conn.requestBody := by
  obtain ⟨hview, huniform, _⟩ := next_spec b writer grpc plan henc
  exact ⟨⟨huniform, hview ▸ Holding.new hend hrest⟩, by rw [hview]⟩

variable [LawfulCrates] {encode : Req → Except Status (List UInt8)}

theorem Ahead.step_responding (hleft : ∀ x ∈ left, Carries b.readConfig encode x.1 x.2)
    (writer : ω) {channel : Channel ρ ω H Req Resp} (h : Ahead b left (.responding channel)) :
    Step b left (.responding channel) ((Reader.responding channel).poll b writer) := by
  obtain ⟨huniform, hholding⟩ := h
  have hstep := hholding.step (show defaultMaxMessageSize < 2 ^ 32 by decide) hleft
  simp only [Uniform] at huniform
  simp only [view, ← huniform] at hstep
  simp only [poll, Channel.recv]
  cases hp : pollReadMessage channel.readConfig channel.upgrade.body channel.state with
  | mk answer body state =>
      simp only [readPoll, hp] at hstep
      cases answer with
      | pending => exact ⟨⟨huniform, huniform ▸ hstep.1⟩, .right _ hstep.2⟩
      | ready item =>
          cases item with
          | none =>
              obtain ⟨hnil, hend, hspent, hdone⟩ := hstep
              exact ⟨hnil, huniform, hnil ▸ Holding.ended hend hspent hdone⟩
          | some message =>
              obtain ⟨x, left', hl, hmessage, hend, hrest, hnew⟩ := hstep
              subst hnew
              exact ⟨x, left', hl, hmessage, ⟨huniform, Holding.new hend hrest⟩, hrest⟩

/-- Where a completed `recv` drops the stream, the body stands at a frame
boundary, so the next reader's fresh state is in place. -/
theorem Ahead.step_prologue (hleft : ∀ x ∈ left, Carries b.readConfig encode x.1 x.2)
    (writer : ω) {grpc : GrpcServerConn H ρ} {stream : RequestStream Req ρ} {calls : Nat}
    {later : List Nat} (h : Ahead (ω := ω) b left (.prologue grpc stream calls later)) :
    Step b left (.prologue grpc stream calls later)
      ((Reader.prologue grpc stream calls later).poll b writer) := by
  obtain ⟨⟨henc, hconfig⟩, hholding⟩ := h
  have hstep := hholding.step (show defaultMaxMessageSize < 2 ^ 32 by decide) hleft
  simp only [view, ← hconfig] at hstep
  simp only [poll, RequestStream.pollMessage]
  cases hp : pollReadMessage stream.config stream.reader stream.state with
  | mk answer body state =>
      simp only [readPoll, hp] at hstep
      cases answer with
      | pending => exact ⟨⟨⟨henc, hconfig⟩, hconfig ▸ hstep.1⟩, .right _ hstep.2⟩
      | ready item =>
          cases item with
          | none =>
              obtain ⟨hnil, hend, hspent, hdone⟩ := hstep
              subst hnil
              cases calls with
              | zero =>
                  have hfewer := (next_spec b writer (grpc.withBody body) later henc).2.2
                  have henc' : (grpc.withBody body).requestEncoding = b.requestEncoding := henc
                  have hspent' : rest (grpc.withBody body).conn.requestBody =
                      wire ([] : List (Req × List UInt8)) := hspent
                  refine ⟨(Ahead.next henc' hend hspent' writer later).1,
                    .left _ _ (Nat.lt_of_le_of_lt hfewer ?_)⟩
                  simp only [callsLeft]
                  omega
              | succ calls =>
                  refine ⟨⟨⟨henc, hconfig⟩, Holding.ended hend hspent hdone⟩, .left _ _ ?_⟩
                  simp only [callsLeft]
                  omega
          | some message =>
              obtain ⟨x, left', hl, hmessage, hend, hrest, hnew⟩ := hstep
              refine ⟨x, left', hl, hmessage, ?_⟩
              cases calls with
              | zero =>
                  have henc' : (grpc.withBody body).requestEncoding = b.requestEncoding := henc
                  obtain ⟨hahead, hbody⟩ := Ahead.next henc' hend hrest writer later
                  exact ⟨hahead, by rw [hbody]; exact hrest⟩
              | succ calls =>
                  subst hnew
                  exact ⟨⟨⟨henc, hconfig⟩, Holding.new hend hrest⟩, hrest⟩

theorem Ahead.step (hleft : ∀ x ∈ left, Carries b.readConfig encode x.1 x.2) (writer : ω)
    {reader : Reader ρ ω H Req Resp} (h : Ahead b left reader) :
    Step b left reader (reader.poll b writer) := by
  cases reader with
  | responding channel => exact h.step_responding hleft writer
  | prologue grpc stream calls later => exact h.step_prologue hleft writer

/-- The chain of readers yields the messages and then the end. -/
theorem poll_yields (b : BidiState H Req Resp) (writer : ω)
    (encode : Req → Except Status (List UInt8)) :
    Yields (Reader.poll (ρ := ρ) b writer) isErr
      (fun reader l => ∃ left, (∀ x ∈ left, Carries b.readConfig encode x.1 x.2) ∧
        Ahead b left reader ∧ l = left.map (fun x => some (.ok x.1)) ++ [none])
      Before where
  wf := before_wf
  pending {s s' l} hl hp := by
    obtain ⟨left, hleft, hahead, hl⟩ := hl
    have hstep := hahead.step hleft writer
    rw [hp] at hstep
    exact ⟨⟨left, hleft, hstep.1, hl⟩, hstep.2⟩
  ended {s s' l} hl hp := by
    obtain ⟨left, hleft, hahead, hl⟩ := hl
    have hstep := hahead.step hleft writer
    rw [hp] at hstep
    rw [hl, hstep.1]
    rfl
  item {s s' l message} hl hp := by
    obtain ⟨left, hleft, hahead, hl⟩ := hl
    have hstep := hahead.step hleft writer
    rw [hp] at hstep
    obtain ⟨x, left', rfl, rfl, hnext, _⟩ := hstep
    exact ⟨_, hl, left', fun y hy => hleft y (List.mem_cons_of_mem _ hy), hnext, rfl⟩

/-- After any number of polls what was collected and what is ahead make up the
frames that were sent. -/
theorem Ahead.after (writer : ω) (n : Nat) {reader : Reader ρ ω H Req Resp}
    (hleft : ∀ x ∈ left, Carries b.readConfig encode x.1 x.2) (h : Ahead b left reader) :
    ∃ got left', left = got ++ left' ∧ Ahead b left' (Async.after (Reader.poll b writer) n reader) ∧
      (left' ≠ [] →
        items (Reader.poll b writer) isErr n reader = got.map (fun x => some (.ok x.1))) := by
  induction n generalizing left reader with
  | zero => exact ⟨[], left, rfl, h, fun _ => rfl⟩
  | succ n ih =>
      have hstep := h.step hleft writer
      rw [after_succ]
      cases hp : reader.poll b writer with
      | mk answer reader' =>
          rw [hp] at hstep
          cases answer with
          | pending =>
              obtain ⟨got, left', hl, hahead, hitems⟩ := ih hleft hstep.1
              refine ⟨got, left', hl, hahead, fun hne => ?_⟩
              rw [items_of_pending hp]
              exact hitems hne
          | ready item =>
              cases item with
              | none =>
                  obtain ⟨hnil, hahead⟩ := hstep
                  obtain ⟨got, left', hl, hahead', _⟩ := ih hleft hahead
                  refine ⟨got, left', hl, hahead', fun hne => ?_⟩
                  rw [hnil] at hl
                  exact absurd (List.append_eq_nil_iff.mp hl.symm).2 hne
              | some message =>
                  obtain ⟨x, rest', rfl, rfl, hnext, _⟩ := hstep
                  obtain ⟨got, left', hl, hahead, hitems⟩ :=
                    ih (fun y hy => hleft y (List.mem_cons_of_mem _ hy)) hnext
                  refine ⟨x :: got, left', by rw [hl, List.cons_append], hahead, fun hne => ?_⟩
                  rw [items_of_some hp, hitems hne]
                  rfl

end Reader

/-- However the reads are split over the streams of the prologue and the channel,
and however the body arrives, the messages that the client sent are received in
order, once each, and then the end; and a reader that returns a message leaves the
body at the start of the next frame. -/
theorem requests_handed_over {ρ' ω' H' Resp' : Type} [ByteSource ρ] [CodecCrates] [LawfulCrates]
    [ResponseBody ρ' H'] [AsyncWrite ω'] [HeaderMap H'] [Base64] [Features]
    (client : Call ρ' ω' H' Req Resp') (tick : Tick ρ' ω' H') (messages : List Req)
    (hfresh : client.Fresh) (b : BidiState H Req Resp) (grpc : GrpcServerConn H ρ)
    (hencoding : grpc.requestEncoding = b.requestEncoding)
    (hnegotiated : client.conn.outboundEncoding = b.requestEncoding)
    (hdecode : ∀ m ∈ messages, ∀ raw, client.conn.encode m = .ok raw → b.decode raw = .ok m)
    (hraw : ∀ m ∈ messages, ∀ raw, client.conn.encode m = .ok raw →
      raw.length ≤ defaultMaxMessageSize)
    (hsent : ∀ m ∈ messages, ∃ bytes, client.conn.encodeMessage m = .ok bytes ∧
      bytes.length ≤ prefixLen + defaultMaxMessageSize)
    (hbody : ∀ p, (client.run (sends tick messages)).2.conn.inner = .pending p →
      rest grpc.conn.requestBody = p.body)
    (hend : fault grpc.conn.requestBody = none) (writer : ω) (plan : List Nat) :
    let poll := Reader.poll b writer
    let reader := Reader.next b writer grpc plan
    (∀ n, items poll isErr n reader <+: messages.map (fun m => some (.ok m)) ++ [none]) ∧
      (∃ N, ∀ n ≥ N, items poll isErr n reader =
        messages.map (fun m => some (.ok m)) ++ [none]) ∧
      ∃ sent, sent.map Prod.fst = messages ∧
        (∀ x ∈ sent, client.conn.encodeMessage x.1 = .ok x.2) ∧
        ∀ n message reader', poll (after poll n reader) = (.ready (some message), reader') →
          ∃ got x left, sent = got ++ x :: left ∧
            items poll isErr n reader = got.map (fun y => some (.ok y.1)) ∧
            message = .ok x.1 ∧ rest reader'.view.1 = wire left := by
  obtain ⟨⟨p, hinner, hempty, hopen⟩, _, _⟩ := hfresh
  obtain ⟨sent, hfst, hframes, hconn⟩ := run_sends hinner hopen tick messages
    (fun m hm => (hsent m hm).imp fun _ h => h.1)
  subst hfst
  have hrest : rest grpc.conn.requestBody = wire sent := by
    rw [hbody _ (by rw [hconn]), hempty, List.nil_append]
  -- every frame is one that the readers' configuration reads back
  have hcarries : ∀ x ∈ sent, Carries b.readConfig client.conn.encode x.1 x.2 := by
    intro x hx
    have hx' := List.mem_map_of_mem (f := Prod.fst) hx
    obtain ⟨bytes, hbytes, hlen⟩ := hsent x.1 hx'
    have hwritten := hframes x hx
    rw [hwritten, Except.ok.injEq] at hbytes
    subst hbytes
    rw [GrpcClientConn.encodeMessage, hnegotiated] at hwritten
    exact ⟨hwritten, fun hraw' => hdecode _ hx' _ hraw', fun hraw' => hraw _ hx' _ hraw', hlen⟩
  have hahead := (Reader.Ahead.next hencoding hend hrest writer plan).1
  have hyields := Reader.poll_yields (ρ := ρ) b writer client.conn.encode
  have hlist : sent.map (fun x => some (Except.ok (ε := Status) x.1)) ++ [none] =
      (sent.map Prod.fst).map (fun m => some (.ok m)) ++ [none] := by
    rw [List.map_map]
    rfl
  intro poll reader
  rw [← hlist]
  refine ⟨fun n => hyields.items_prefix n ⟨sent, hcarries, hahead, rfl⟩,
    hyields.items_eventually ⟨sent, hcarries, hahead, rfl⟩, sent, rfl, hframes, ?_⟩
  intro n message reader' hp
  obtain ⟨got, left, hl, hnow, hitems⟩ := hahead.after writer n hcarries
  have hstep := hnow.step
    (fun y hy => hcarries y (hl ▸ List.mem_append_right got hy)) writer
  rw [show Reader.poll b writer (Async.after (Reader.poll b writer) n reader) =
    (.ready (some message), reader') from hp] at hstep
  obtain ⟨x, left', rfl, hmessage, _, hleft⟩ := hstep
  exact ⟨got, x, left', hl, hitems (by simp), hmessage, hleft⟩

/-- A server conn over the frames of two messages that arrive in pieces. -/
def plainRequests (turns : List Turn) : GrpcServerConn HeaderList Script :=
  { conn := ⟨empty, empty, none, ⟨[0, 0, 0, 0, 1, 7, 0, 0, 0, 0, 2, 8, 9], turns, none⟩, true⟩
    responseTrailers := empty
    requestEncoding := .identity
    deadline := none }

/-- One message is read in the prologue and the other behind the seam. -/
theorem two_requests_handed_over :
    letI := storedCrates
    ∃ N, ∀ n ≥ N, items (Reader.poll plainBidi (⟨[]⟩ : SinkScript)) isErr n
      (Reader.next plainBidi ⟨[]⟩ (plainRequests [.chunk 3, .pending, .chunk 0]) [0, 1]) =
        [some (.ok [7]), some (.ok [8, 9]), none] := by
  let _ := storedCrates
  let _ := standardNoPad
  let _ := allFeatures
  have _ := storedCrates_lawful
  have hraw : ∀ m ∈ [[7], [8, 9]], ∀ raw, (plainCall false).conn.encode m = .ok raw →
      raw.length ≤ defaultMaxMessageSize := by
    intro m hm raw h
    cases h
    revert m
    decide
  have hsent : ∀ m ∈ [[7], [8, 9]], ∃ bytes, (plainCall false).conn.encodeMessage m = .ok bytes ∧
      bytes.length ≤ prefixLen + defaultMaxMessageSize := by
    intro m hm
    refine ⟨frame 0 m, rfl, ?_⟩
    revert m
    decide
  obtain ⟨_, hall, _⟩ := requests_handed_over (plainCall false) (quietTick .connecting)
    [[7], [8, 9]] ⟨⟨_, rfl, rfl, rfl⟩, rfl, rfl⟩ plainBidi
    (plainRequests [.chunk 3, .pending, .chunk 0]) rfl rfl (fun m _ raw h => h.symm) hraw hsent
    (fun p hp => by cases hp; rfl) rfl (⟨[]⟩ : SinkScript) [0, 1]
  exact hall

end TrilliumGrpc
