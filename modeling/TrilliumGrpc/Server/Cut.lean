import TrilliumGrpc.Server.Body
import TrilliumGrpc.StatusTrailers

/-! # Response bodies that may be cut

A `StreamBody` with its cancellation signal. `pull` says what one look at the signal
and the stream gives, with no buffer in sight; the reads of a body, whatever their
sizes, hand out the frames of what is pulled up to the event that ends it.
-/

namespace TrilliumGrpc

open Async HeaderMap

variable {σ ζ H Resp : Type}

/-! ## What is pulled -/

/-- The event that ends a body. -/
inductive Ending where
  | streamEnd
  | item (status : Status)
  | encoding (status : Status)
  | cancellation (status : Status)

def Ending.status : Ending → Status
  | .streamEnd => .ok
  | .item status => status
  | .encoding status => status
  | .cancellation status => status

inductive Pull (Resp : Type) where
  | stalled
  | sent (resp : Resp) (frame : List UInt8)
  | ended (ending : Ending)

abbrev Feed (σ ζ : Type) := σ × ζ

section

variable [AsyncStream σ (Except Status Resp)] [AsyncFuture ζ Status] [CodecCrates]

/-- The signal is asked first, and the stream when it does not answer. -/
def pull (encode : Resp → Except Status (List UInt8)) (encoding : Encoding) (cancel : Bool)
    (feed : Feed σ ζ) : Pull Resp × Feed σ ζ :=
  let (cut, signal) := if cancel then AsyncFuture.poll feed.2 else (.pending, feed.2)
  match cut with
  | .ready status => (.ended (.cancellation status), (feed.1, signal))
  | .pending =>
      match AsyncStream.pollNext feed.1 with
      | (.pending, stream) => (.stalled, (stream, signal))
      | (.ready none, stream) => (.ended .streamEnd, (stream, signal))
      | (.ready (some (.error status)), stream) => (.ended (.item status), (stream, signal))
      | (.ready (some (.ok resp)), stream) =>
          match encodeFrame encode resp encoding with
          | .error status => (.ended (.encoding status), (stream, signal))
          | .ok frame => (.sent resp frame, (stream, signal))

/-- The messages with their frames that are pulled before the event that ends the body. -/
inductive Pulls (encode : Resp → Except Status (List UInt8)) (encoding : Encoding) (cancel : Bool) :
    Feed σ ζ → List (Resp × List UInt8) → Ending → Feed σ ζ → Prop where
  | ended {feed feed' : Feed σ ζ} {ending : Ending} :
      pull encode encoding cancel feed = (.ended ending, feed') →
      Pulls encode encoding cancel feed [] ending feed'
  | stalled {feed feed' last : Feed σ ζ} {sent : List (Resp × List UInt8)} {ending : Ending} :
      pull encode encoding cancel feed = (.stalled, feed') →
      Pulls encode encoding cancel feed' sent ending last →
      Pulls encode encoding cancel feed sent ending last
  | sent {feed feed' last : Feed σ ζ} {resp : Resp} {frame : List UInt8}
      {sent : List (Resp × List UInt8)} {ending : Ending} :
      pull encode encoding cancel feed = (.sent resp frame, feed') →
      Pulls encode encoding cancel feed' sent ending last →
      Pulls encode encoding cancel feed ((resp, frame) :: sent) ending last

theorem encodeFrame_of_pull {encode : Resp → Except Status (List UInt8)} {encoding : Encoding}
    {cancel : Bool} {feed feed' : Feed σ ζ} {resp : Resp} {frame : List UInt8}
    (h : pull encode encoding cancel feed = (.sent resp frame, feed')) :
    encodeFrame encode resp encoding = .ok frame := by
  unfold pull at h
  dsimp only at h
  split at h
  · cases h
  · split at h
    · cases h
    · cases h
    · cases h
    · split at h
      · cases h
      · rename_i hframe
        cases h
        exact hframe

theorem Pulls.frames {encode : Resp → Except Status (List UInt8)} {encoding : Encoding}
    {cancel : Bool} {feed last : Feed σ ζ} {sent : List (Resp × List UInt8)} {ending : Ending}
    (h : Pulls encode encoding cancel feed sent ending last) :
    ∀ x ∈ sent, encodeFrame encode x.1 encoding = .ok x.2 := by
  induction h with
  | ended _ => simp
  | stalled _ _ ih => exact ih
  | sent hpull _ ih =>
      intro x hx
      rcases List.mem_cons.mp hx with rfl | hx
      · exact encodeFrame_of_pull hpull
      · exact ih x hx

/-- The signal and the stream leave no choice. -/
theorem Pulls.unique {encode : Resp → Except Status (List UInt8)} {encoding : Encoding}
    {cancel : Bool} {feed last last' : Feed σ ζ} {sent sent' : List (Resp × List UInt8)}
    {ending ending' : Ending} (h : Pulls encode encoding cancel feed sent ending last)
    (h' : Pulls encode encoding cancel feed sent' ending' last') :
    sent' = sent ∧ ending' = ending ∧ last' = last := by
  induction h generalizing sent' with
  | ended hpull =>
      cases h' with
      | ended hpull' =>
          cases hpull.symm.trans hpull'
          exact ⟨rfl, rfl, rfl⟩
      | stalled hpull' _ => cases hpull.symm.trans hpull'
      | sent hpull' _ => cases hpull.symm.trans hpull'
  | stalled hpull _ ih =>
      cases h' with
      | ended hpull' => cases hpull.symm.trans hpull'
      | stalled hpull' hrest =>
          cases hpull.symm.trans hpull'
          exact ih hrest
      | sent hpull' _ => cases hpull.symm.trans hpull'
  | sent hpull _ ih =>
      cases h' with
      | ended hpull' => cases hpull.symm.trans hpull'
      | stalled hpull' _ => cases hpull.symm.trans hpull'
      | sent hpull' hrest =>
          cases hpull.symm.trans hpull'
          obtain ⟨rfl, hending, hlast⟩ := ih hrest
          exact ⟨rfl, hending, hlast⟩

omit [AsyncStream σ (Except Status Resp)] [AsyncFuture ζ Status] in
theorem frame_pos {encode : Resp → Except Status (List UInt8)} {encoding : Encoding} {resp : Resp}
    {frame : List UInt8} (h : encodeFrame encode resp encoding = .ok frame) : 0 < frame.length := by
  obtain ⟨flag, payload, rfl⟩ := encodeFrame_ok h
  rw [frame_length, prefixLen]
  omega

end

/-! ## The reads of a body -/

/-- A body and the signal it polls. -/
structure CutBody (σ ζ H Resp : Type) where
  body : StreamBody σ H Resp
  signal : ζ

namespace CutBody

/-- A read gets to the signal: no frame is half copied out and the end is still ahead. -/
def asks (s : CutBody σ ζ H Resp) : Bool :=
  !decide (s.body.pos < s.body.pending.length) && !s.body.finished && s.body.cancel

variable [AsyncStream σ (Except Status Resp)] [AsyncFuture ζ Status] [CodecCrates]

def pollRead (s : CutBody σ ζ H Resp) (len : Nat) :
    Poll (Except String (Chunk len)) × CutBody σ ζ H Resp :=
  let (cut, signal) := if s.asks then AsyncFuture.poll s.signal else (.pending, s.signal)
  let (answer, body) := match cut with
    | .ready status => s.body.pollRead (some status) len
    | .pending => s.body.pollRead none len
  (answer, ⟨body, signal⟩)

instance : AsyncRead (CutBody σ ζ H Resp) where
  pollRead := pollRead

def feed (s : CutBody σ ζ H Resp) : Feed σ ζ := (s.body.stream, s.signal)

/-- The bytes of the current frame that are still to be copied out. -/
def left (s : CutBody σ ζ H Resp) : List UInt8 := s.body.pending.drop s.body.pos

/-- The body as `pull` leaves it. -/
def fed (s : CutBody σ ζ H Resp) (feed : Feed σ ζ) : CutBody σ ζ H Resp :=
  ⟨{ s.body with stream := feed.1 }, feed.2⟩

def copied (s : CutBody σ ζ H Resp) (len : Nat) : CutBody σ ζ H Resp :=
  ⟨(s.body.copy len).2, s.signal⟩

def loaded (s : CutBody σ ζ H Resp) (feed : Feed σ ζ) (frame : List UInt8) :
    CutBody σ ζ H Resp :=
  ⟨{ (s.fed feed).body with pending := frame, pos := 0 }, feed.2⟩

/-- A read at the end of a frame pulls once. -/
theorem pollRead_of_left_nil {s : CutBody σ ζ H Resp} {len : Nat}
    (hpos : ¬ s.body.pos < s.body.pending.length) (hfin : s.body.finished = false)
    (hstatus : s.body.status = none) :
    s.pollRead len = match pull s.body.encode s.body.encoding s.body.cancel s.feed with
      | (.stalled, feed) => (.pending, s.fed feed)
      | (.ended ending, feed) =>
          (.ready (.ok ⟨[], Nat.zero_le len⟩),
            ⟨((s.fed feed).body.finish ending.status len).2, feed.2⟩)
      | (.sent _ frame, feed) =>
          (.ready (.ok ((s.loaded feed frame).body.copy len).1),
            (s.loaded feed frame).copied len) := by
  obtain ⟨b, signal⟩ := s
  dsimp only at hpos hfin hstatus
  have hasks : (⟨b, signal⟩ : CutBody σ ζ H Resp).asks = b.cancel := by simp [asks, hpos, hfin]
  have hlive : ¬ b.finished = true := by simp [hfin]
  unfold pollRead pull StreamBody.pollRead loaded copied feed fed
  simp only [hasks, if_neg hpos, if_neg hlive, hstatus, ite_self]
  cases hcut : (if b.cancel then AsyncFuture.poll signal else (.pending, signal)) with
  | mk cut signal' =>
      cases cut with
      | ready status =>
          have hcancel : b.cancel = true := by
            by_contra hoff
            rw [if_neg hoff] at hcut
            cases hcut
          have hsome : (if b.cancel = true then some status else none) = some status :=
            if_pos hcancel
          simp only [hsome]
          rfl
      | pending =>
          dsimp only
          cases AsyncStream.pollNext b.stream with
          | mk answer stream =>
              cases answer with
              | pending => rfl
              | ready item =>
                  cases item with
                  | none => rfl
                  | some result =>
                      cases result with
                      | error status => rfl
                      | ok resp =>
                          dsimp only
                          cases encodeFrame b.encode resp b.encoding with
                          | error status => rfl
                          | ok frame => rfl

omit [AsyncStream σ (Except Status Resp)] [AsyncFuture ζ Status] [CodecCrates] in
theorem asks_of_pos {s : CutBody σ ζ H Resp} (hpos : s.body.pos < s.body.pending.length) :
    s.asks = false := by
  simp [asks, hpos]

theorem pollRead_of_pos {s : CutBody σ ζ H Resp} {len : Nat}
    (hpos : s.body.pos < s.body.pending.length) :
    s.pollRead len = (.ready (.ok (s.body.copy len).1), s.copied len) := by
  rw [pollRead, asks_of_pos hpos]
  simp only [Bool.false_eq_true, if_false, StreamBody.pollRead, if_pos hpos]
  rfl

theorem pollRead_of_finished {s : CutBody σ ζ H Resp} (hleft : s.left = [])
    (hfin : s.body.finished = true) (len : Nat) :
    s.pollRead len = (.ready (.ok ⟨[], Nat.zero_le len⟩), s) := by
  have hpos : ¬ s.body.pos < s.body.pending.length := by
    have hle := List.drop_eq_nil_iff.mp hleft
    omega
  have hasks : s.asks = false := by simp [asks, hfin]
  rw [pollRead, hasks]
  simp only [Bool.false_eq_true, if_false, StreamBody.pollRead, if_neg hpos, hfin, if_true]

structure EndedBy (ending : Ending) (base : H) (last : CutBody σ ζ H Resp) : Prop where
  finished : last.body.finished = true
  status : last.body.status = some ending.status
  left : last.left = []
  base_eq : last.body.baseTrailers = base

/-- What is read up to the end are the rest of the current frame and the frames pulled
before the event that ended the body. -/
theorem pulls_of_drain (n : Nat) {lens : Nat → Nat} (hlens : ∀ k, 0 < lens k)
    {s last : CutBody σ ζ H Resp} (hopen : s.body.finished = false) (hunset : s.body.status = none)
    (h : (drain n lens s).2 = some last) :
    ∃ sent ending, Pulls s.body.encode s.body.encoding s.body.cancel s.feed sent ending last.feed ∧
      (drain n lens s).1 = s.left ++ wire sent ∧ last.EndedBy ending s.body.baseTrailers := by
  -- Induction on the reads; a read copies from the frame at hand or pulls once.
  induction n generalizing lens s with
  | zero => cases h
  | succ n ih =>
      have hlens' : ∀ k, 0 < lens (k + 1) := fun k => hlens (k + 1)
      have hcopy : ∀ {s : CutBody σ ζ H Resp}, s.body.pos < s.body.pending.length →
          s.body.finished = false → s.body.status = none →
          (drain (n + 1) lens s).2 = some last → ∃ sent ending,
            Pulls s.body.encode s.body.encoding s.body.cancel s.feed sent ending last.feed ∧
            (drain (n + 1) lens s).1 = s.left ++ wire sent ∧
            last.EndedBy ending s.body.baseTrailers := by
        intro s hpos hopen hunset h
        have hread : AsyncRead.pollRead s (lens 0) = _ := pollRead_of_pos hpos
        rw [drain_of_chunk (Uncut.copy_ne_nil (hlens 0) hpos) hread] at h ⊢
        obtain ⟨sent, ending, hpulls, hbytes, hended⟩ := ih (s := s.copied _) hlens' hopen hunset h
        refine ⟨sent, ending, hpulls, ?_, hended⟩
        dsimp only
        rw [hbytes, left, left, ← Uncut.copy_append s.body (lens 0), List.append_assoc]
        rfl
      by_cases hpos : s.body.pos < s.body.pending.length
      · exact hcopy hpos hopen hunset h
      · have hread : AsyncRead.pollRead s (lens 0) = _ := pollRead_of_left_nil hpos hopen hunset
        have hleft : s.left = [] := List.drop_of_length_le (Nat.le_of_not_lt hpos)
        cases hpull : pull s.body.encode s.body.encoding s.body.cancel s.feed with
        | mk got feed =>
            rw [hpull] at hread
            cases got with
            | stalled =>
                rw [drain_of_pending hread] at h ⊢
                obtain ⟨sent, ending, hpulls, hbytes, hended⟩ := ih (s := s.fed feed) hlens' hopen
                  hunset h
                exact ⟨sent, ending, .stalled hpull hpulls, hbytes, hended⟩
            | ended ending =>
                rw [drain_of_end rfl hread] at h ⊢
                rw [Option.some.injEq] at h
                subst h
                refine ⟨[], ending, .ended hpull, ?_, ⟨rfl, rfl, hleft, rfl⟩⟩
                rw [hleft]
                rfl
            | sent resp frame =>
                have hframe := frame_pos (encodeFrame_of_pull hpull)
                have hload : drain (n + 1) lens s = drain (n + 1) lens (s.loaded feed frame) := by
                  have hread' : AsyncRead.pollRead (s.loaded feed frame) (lens 0) = _ :=
                    pollRead_of_pos hframe
                  rw [drain, drain, hread, hread']
                rw [hload] at h ⊢
                obtain ⟨sent, ending, hpulls, hbytes, hended⟩ := hcopy (s := s.loaded feed frame)
                  hframe hopen hunset h
                refine ⟨(resp, frame) :: sent, ending, .sent hpull hpulls, ?_, hended⟩
                rw [hbytes, hleft]
                rfl

def Drains (s : CutBody σ ζ H Resp) : Prop :=
  ∀ lens : Nat → Nat, (∀ k, 0 < lens k) → ∃ N, ∀ n ≥ N, ∃ last, (drain n lens s).2 = some last

theorem drains_of_copied {s : CutBody σ ζ H Resp}
    (h : ∀ pos, s.body.pending.length ≤ pos →
      Drains (⟨{ s.body with pos }, s.signal⟩ : CutBody σ ζ H Resp)) : Drains s := by
  -- Induction on what is left of the frame: every read into a buffer with room takes some.
  induction hleft : s.body.pending.length - s.body.pos using Nat.strongRecOn generalizing s with
  | ind left ih =>
      subst hleft
      by_cases hpos : s.body.pos < s.body.pending.length
      · intro lens hlens
        have hread : AsyncRead.pollRead s (lens 0) = _ := pollRead_of_pos hpos
        have hroom := hlens 0
        have hless : s.body.pending.length - (s.copied (lens 0)).body.pos <
            s.body.pending.length - s.body.pos := by
          show s.body.pending.length - (s.body.pos + min (s.body.pending.length - s.body.pos) _) < _
          omega
        obtain ⟨N, hN⟩ := ih _ hless (s := s.copied (lens 0)) h rfl _ (fun k => hlens (k + 1))
        refine eventually_of_succ (N := N) (fun m hm => ?_)
        rw [drain_of_chunk (Uncut.copy_ne_nil hroom hpos) hread]
        exact hN m hm
      · exact h s.body.pos (Nat.le_of_not_lt hpos)

theorem drains_of_pulls {encode : Resp → Except Status (List UInt8)} {encoding : Encoding}
    {cancel : Bool} {feed fin : Feed σ ζ} {sent : List (Resp × List UInt8)} {ending : Ending}
    (h : Pulls encode encoding cancel feed sent ending fin) {s : CutBody σ ζ H Resp}
    (hencode : s.body.encode = encode) (hencoding : s.body.encoding = encoding)
    (hcancel : s.body.cancel = cancel) (hfeed : s.feed = feed)
    (hpos : s.body.pending.length ≤ s.body.pos) (hopen : s.body.finished = false)
    (hunset : s.body.status = none) : Drains s := by
  induction h generalizing s with
  | ended hpull =>
      subst hencode hencoding hcancel hfeed
      intro lens hlens
      have hread : AsyncRead.pollRead s (lens 0) = _ :=
        pollRead_of_left_nil (Nat.not_lt_of_le hpos) hopen hunset
      rw [hpull] at hread
      refine eventually_of_succ (N := 0) (fun m _ => ?_)
      exact ⟨_, by rw [drain_of_end rfl hread]⟩
  | @stalled feed feed' _ _ _ hpull _ ih =>
      subst hencode hencoding hcancel hfeed
      intro lens hlens
      have hread : AsyncRead.pollRead s (lens 0) = _ :=
        pollRead_of_left_nil (Nat.not_lt_of_le hpos) hopen hunset
      rw [hpull] at hread
      have hnext : Drains (s.fed feed') := ih rfl rfl rfl rfl hpos hopen hunset
      obtain ⟨N, hN⟩ := hnext _ (fun k => hlens (k + 1))
      refine eventually_of_succ (N := N) (fun m hm => ?_)
      rw [drain_of_pending hread]
      exact hN m hm
  | @sent feed feed' _ _ frame _ _ hpull _ ih =>
      subst hencode hencoding hcancel hfeed
      have hloaded : Drains (s.loaded feed' frame) := by
        apply drains_of_copied
        intro pos hle
        exact ih rfl rfl rfl rfl hle hopen hunset
      intro lens hlens
      obtain ⟨N, hN⟩ := hloaded lens hlens
      refine eventually_of_succ (N := N) (fun m hm => ?_)
      have hread : AsyncRead.pollRead s (lens 0) = _ :=
        pollRead_of_left_nil (Nat.not_lt_of_le hpos) hopen hunset
      rw [hpull] at hread
      have hread' : AsyncRead.pollRead (s.loaded feed' frame) (lens 0) = _ :=
        pollRead_of_pos (frame_pos (encodeFrame_of_pull hpull))
      have hsame : drain (m + 1) lens s = drain (m + 1) lens (s.loaded feed' frame) := by
        rw [drain, drain, hread, hread']
      rw [hsame]
      exact hN (m + 1) (Nat.le_succ_of_le hm)

omit [AsyncStream σ (Except Status Resp)] [AsyncFuture ζ Status] [CodecCrates] in
theorem EndedBy.trailers [HeaderMap H] [Base64] {ending : Ending} {base : H}
    {last : CutBody σ ζ H Resp} (h : last.EndedBy ending base) :
    last.body.trailers = ending.status.writeInto base := by
  rw [StreamBody.trailers, h.status, h.base_eq, Option.getD_some]

/-- However a body is read, it hands out the frames of the messages pulled before the
event that ended it, then the end for ever, and its trailers are those of that event's
status. It does come to its end if there is such an event. -/
theorem body_refines [HeaderMap H] [Base64] (stream : σ) (signal : ζ)
    (encode : Resp → Except Status (List UInt8)) (encoding : Encoding) (base : H) (cancel : Bool)
    {lens : Nat → Nat} (hlens : ∀ k, 0 < lens k) :
    (∀ n last, (drain n lens
          (⟨.new stream encode encoding base cancel, signal⟩ : CutBody σ ζ H Resp)).2 = some last →
      ∃ sent ending, Pulls encode encoding cancel (stream, signal) sent ending last.feed ∧
        (∀ x ∈ sent, encodeFrame encode x.1 encoding = .ok x.2) ∧
        (drain n lens (⟨.new stream encode encoding base cancel, signal⟩ : CutBody σ ζ H Resp)).1 =
          (sent.map Prod.snd).flatten ∧
        (∀ len, AsyncRead.pollRead last len = (.ready (.ok ⟨[], Nat.zero_le len⟩), last)) ∧
        last.body.trailers = ending.status.writeInto base ∧
        (values base "grpc-message" = [] → ending.status.metadata.Reachable H →
          getStr last.body.trailers "grpc-status" = some ending.status.code.asU8.repr ∧
          Status.trailersMessage last.body.trailers = ending.status.message)) ∧
    ∀ sent ending feed, Pulls encode encoding cancel (stream, signal) sent ending feed →
      ∃ N, ∀ n ≥ N, ∃ last, last.feed = feed ∧ drain n lens
        (⟨.new stream encode encoding base cancel, signal⟩ : CutBody σ ζ H Resp) =
          ((sent.map Prod.snd).flatten, some last) := by
  have hall : ∀ n last, (drain n lens
      (⟨.new stream encode encoding base cancel, signal⟩ : CutBody σ ζ H Resp)).2 = some last →
      ∃ sent ending, Pulls encode encoding cancel (stream, signal) sent ending last.feed ∧
        (drain n lens (⟨.new stream encode encoding base cancel, signal⟩ : CutBody σ ζ H Resp)).1 =
          wire sent ∧ last.EndedBy ending base := fun n last h =>
    pulls_of_drain n hlens rfl rfl h
  constructor
  · intro n last h
    obtain ⟨sent, ending, hpulls, hbytes, hended⟩ := hall n last h
    refine ⟨sent, ending, hpulls, hpulls.frames, hbytes,
      pollRead_of_finished hended.left hended.finished, hended.trailers, ?_⟩
    intro hbase hreached
    rw [hended.trailers]
    exact ⟨Status.getStr_status hreached.keys base, Status.message_writeInto hreached.keys hbase⟩
  · intro sent ending feed hpulls
    have hdrains : Drains
        (⟨.new stream encode encoding base cancel, signal⟩ : CutBody σ ζ H Resp) :=
      drains_of_pulls hpulls rfl rfl rfl rfl (Nat.le_refl 0) rfl rfl
    obtain ⟨N, hN⟩ := hdrains lens hlens
    refine ⟨N, fun n hn => ?_⟩
    obtain ⟨last, hlast⟩ := hN n hn
    obtain ⟨sent', ending', hpulls', hbytes, _⟩ := hall n last hlast
    obtain ⟨rfl, _, hfeed⟩ := hpulls.unique hpulls'
    exact ⟨last, hfeed, Prod.ext hbytes hlast⟩

end CutBody

/-- A stream of two messages, and a signal that fires after the first of them. -/
def shutDown : CutBody (ItemScript (Except Status (List UInt8))) (FutureScript Status) HeaderList
    (List UInt8) :=
  ⟨.new ⟨[(true, .ok [7]), (false, .ok [8, 9])]⟩ .ok .identity empty true,
    ⟨[none, none, some (.cancelled "connection shutting down")]⟩⟩

theorem shutDown_reads_first_frame : letI := storedCrates
    letI := standardNoPad
    ∃ last, drain 4 (fun _ => 3) shutDown = (frame 0 [7], some last) ∧
      (∀ len, AsyncRead.pollRead last len = (.ready (.ok ⟨[], Nat.zero_le len⟩), last)) ∧
      ∃ ending : Ending, last.body.trailers = ending.status.writeInto empty := by
  let _ := storedCrates
  let _ := standardNoPad
  obtain ⟨last, hdrain⟩ : ∃ last, drain 4 (fun _ => 3) shutDown = (frame 0 [7], some last) :=
    ⟨_, rfl⟩
  have hlens : ∀ k, 0 < (fun _ : Nat => 3) k := fun _ => Nat.succ_pos 2
  obtain ⟨sent, ending, _, _, _, hlater, htrailers, _⟩ := (CutBody.body_refines
    shutDown.body.stream shutDown.signal .ok .identity (empty : HeaderList) true
    hlens).1 4 last (congrArg Prod.snd hdrain)
  exact ⟨last, hdrain, hlater, ending, htrailers⟩

end TrilliumGrpc
