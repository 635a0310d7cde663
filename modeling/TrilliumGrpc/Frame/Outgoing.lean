import TrilliumGrpc.Async.Pipe
import TrilliumGrpc.Frame.Taken
import TrilliumGrpc.Server.Streaming

/-! # A side that sends and a side that reads

The history of a side that writes messages frame by frame, and what the other side, to
which these bytes come through a pipe, makes of them: the messages in their order.
-/

namespace TrilliumGrpc

open Async Bytes TalliedRead

/-! ## Frames over the cap -/

/-- A prefix that announces too much does so whatever comes behind it. -/
theorem scan_append_oversized {max len : Nat} {bytes : List UInt8}
    (h : scan max bytes = .oversized len) (more : List UInt8) :
    scan max (bytes ++ more) = .oversized len := by
  rw [scan] at h
  split at h
  · cases h
  · rename_i hne
    split at h
    · cases h
    · rename_i hfive
      have hlong : ¬ (bytes ++ more).length < prefixLen := by
        rw [List.length_append]
        omega
      have hne' : bytes ++ more ≠ [] := fun hnil => hne (List.append_eq_nil_iff.mp hnil).1
      rw [scan, if_neg hne', if_neg hlong, List.take_append_of_le_length (Nat.le_of_not_lt hfive)]
      dsimp only at h ⊢
      split at h
      · rename_i hbig
        rw [if_pos hbig]
        exact h
      · rw [scanPayload] at h
        split at h <;> cases h

theorem short_of_proper_front {max : Nat} {front left payload : List UInt8} {compressed : Bool}
    (h : scan max (front ++ left) = .frame compressed payload []) (hleft : left ≠ []) :
    (scan max front).Short := by
  cases hs : scan max front with
  | frame compressed' payload' rest =>
      rw [scan_append hs, Scan.frame.injEq] at h
      exact absurd (List.append_eq_nil_iff.mp h.2.2).2 hleft
  | oversized len =>
      rw [scan_append_oversized hs] at h
      cases h
  | boundary => trivial
  | shortPrefix => trivial
  | shortPayload => trivial

/-! ## The sending side -/

variable {M E : Type}

/-- The messages whose frames are out, the one whose frame is being written, and whether a
frame was left off in the middle. -/
structure Outgoing (M : Type) where
  sent : List M
  sending : Option (M × SendFuture)
  torn : Bool

namespace Outgoing

def drop (o : Outgoing M) : Outgoing M :=
  { o with
    sending := none
    torn := o.torn || o.sending.any (fun x => x.2.left.length < x.2.frame.length) }

/-- After a poll of the send of `m`, which leaves `left` of its frame. -/
def settle {ε : Type} (o : Outgoing M) (m : M) (frame left : List UInt8) :
    Poll (Except ε Unit) → Outgoing M
  | .pending => { o with sending := some (m, ⟨frame, left⟩) }
  | .ready (.ok ()) => { o with sent := o.sent ++ [m], sending := none }
  | .ready (.error _) =>
      { o with sending := none, torn := o.torn || left.length < frame.length }

/-- A side that has left off no frame has written the frames of what it sent, and a part of
the one it is sending. -/
def Frames (encodeMessage : M → Except Status (List UInt8)) (o : Outgoing M)
    (written : List UInt8) : Prop :=
  o.torn = false → ∃ fs accepted, List.Forall₂ (fun m f => encodeMessage m = .ok f) o.sent fs ∧
    written = fs.flatten ++ accepted ∧
    match o.sending with
    | none => accepted = []
    | some (m, fut) =>
        encodeMessage m = .ok fut.frame ∧ fut.frame = accepted ++ fut.left ∧ fut.left ≠ []

/-- The send of `m` has all of its frame but `left` written behind the frames before it. -/
def Begun (encodeMessage : M → Except Status (List UInt8)) (o : Outgoing M)
    (written : List UInt8) (m : M) (frame left : List UInt8) : Prop :=
  o.torn = false → encodeMessage m = .ok frame ∧
    ∃ fs accepted, List.Forall₂ (fun m f => encodeMessage m = .ok f) o.sent fs ∧
      written = fs.flatten ++ accepted ∧ frame = accepted ++ left

namespace Frames

variable {encodeMessage : M → Except Status (List UInt8)} {o : Outgoing M} {written : List UInt8}

theorem drop (h : o.Frames encodeMessage written) : o.drop.Frames encodeMessage written := by
  intro htorn
  obtain ⟨hwhole, hfull⟩ := Bool.or_eq_false_iff.mp htorn
  obtain ⟨fs, accepted, hfs, hwritten, hsending⟩ := h hwhole
  refine ⟨fs, accepted, hfs, hwritten, ?_⟩
  cases hs : o.sending with
  | none =>
      rw [hs] at hsending
      exact hsending
  | some x =>
      rw [hs] at hsending hfull
      obtain ⟨_, hsplit, _⟩ := hsending
      have hlen := congrArg List.length hsplit
      rw [List.length_append] at hlen
      simp only [Option.any_some, decide_eq_false_iff_not] at hfull
      exact List.length_eq_zero_iff.mp (by omega)

theorem starts (h : o.Frames encodeMessage written) (hnone : o.sending = none) {m : M}
    {frame : List UInt8} (hframe : encodeMessage m = .ok frame) :
    o.Begun encodeMessage written m frame frame := by
  intro hwhole
  obtain ⟨fs, accepted, hfs, hwritten, hsending⟩ := h hwhole
  rw [hnone] at hsending
  exact ⟨hframe, fs, accepted, hfs, hwritten, by rw [hsending, List.nil_append]⟩

theorem resumes (h : o.Frames encodeMessage written) {m : M} {fut : SendFuture}
    (hsome : o.sending = some (m, fut)) :
    o.Begun encodeMessage written m fut.frame fut.left := by
  intro hwhole
  obtain ⟨fs, accepted, hfs, hwritten, hsending⟩ := h hwhole
  rw [hsome] at hsending
  exact ⟨hsending.1, fs, accepted, hfs, hwritten, hsending.2.1⟩

end Frames

theorem settle_torn {ε : Type} {o : Outgoing M} {m : M} {frame left : List UInt8}
    {answer : Poll (Except ε Unit)} (h : (o.settle m frame left answer).torn = false) :
    o.torn = false := by
  match answer with
  | .pending => exact h
  | .ready (.ok ()) => exact h
  | .ready (.error _) => exact (Bool.or_eq_false_iff.mp h).1

theorem settle_sent {ε : Type} (o : Outgoing M) (m : M) (frame left : List UInt8)
    (answer : Poll (Except ε Unit)) :
    ∃ later, (o.settle m frame left answer).sent = o.sent ++ later := by
  match answer with
  | .pending => exact ⟨[], (List.append_nil _).symm⟩
  | .ready (.ok ()) => exact ⟨[m], rfl⟩
  | .ready (.error _) => exact ⟨[], (List.append_nil _).symm⟩

theorem settle_sending {ε : Type} (o : Outgoing M) (m : M) (frame left : List UInt8)
    (answer : Poll (Except ε Unit)) :
    (answer = .pending → (o.settle m frame left answer).sending = some (m, ⟨frame, left⟩)) ∧
      (answer ≠ .pending → (o.settle m frame left answer).sending = none) := by
  match answer with
  | .pending => exact ⟨fun _ => rfl, fun h => absurd rfl h⟩
  | .ready (.ok ()) => exact ⟨fun h => (by simp at h), fun _ => rfl⟩
  | .ready (.error _) => exact ⟨fun h => (by simp at h), fun _ => rfl⟩

/-- A poll of `write_all` on the rest of a frame. -/
theorem Begun.settle {encodeMessage : M → Except Status (List UInt8)} {o : Outgoing M}
    {written : List UInt8} {ω ε : Type} {m : M} {frame left : List UInt8} {step : WriteStep ω}
    {answer : Poll (Except ε Unit)} (h : o.Begun encodeMessage written m frame left)
    (hstep : WriteSpec left step) (hpending : answer = .pending → step.answer = .pending)
    (hdone : answer = .ready (.ok ()) → step.answer = .ready (.ok ())) :
    (o.settle m frame step.left answer).Frames encodeMessage (written ++ step.accepted) := by
  intro hwhole
  obtain ⟨hframe, fs, accepted, hfs, hwritten, hsplit⟩ := h (settle_torn hwhole)
  have hall := hstep.split
  match answer with
  | .pending =>
      refine ⟨fs, accepted ++ step.accepted, hfs, ?_, hframe, ?_, hstep.pending (hpending rfl)⟩
      · rw [hwritten, List.append_assoc]
      · rw [hsplit, ← hall, List.append_assoc]
  | .ready (.ok ()) =>
      have hnil := hstep.done (hdone rfl)
      rw [hnil, List.append_nil] at hall
      refine ⟨fs ++ [frame], [], List.rel_append hfs (.cons hframe .nil), ?_, rfl⟩
      rw [hwritten, hsplit, hall, List.flatten_append, List.flatten_cons, List.flatten_nil,
        List.append_nil, List.append_nil, List.append_assoc]
  | .ready (.error e) =>
      obtain ⟨_, hfull⟩ := Bool.or_eq_false_iff.mp hwhole
      have hlen := congrArg List.length hsplit
      have hlen' := congrArg List.length hall
      rw [List.length_append] at hlen hlen'
      simp only [decide_eq_false_iff_not] at hfull
      have hnone : accepted = [] := List.length_eq_zero_iff.mp (by omega)
      have hnone' : step.accepted = [] := List.length_eq_zero_iff.mp (by omega)
      refine ⟨fs, [], hfs, ?_, rfl⟩
      rw [hwritten, hnone, hnone', List.append_nil, List.append_nil]

end Outgoing

/-! ## What the other side reads -/

variable [CodecCrates]

/-- Where a message has a frame, the other side reads it back. -/
def Readable (cfg : ReadConfig M) (encode : M → Except Status (List UInt8)) (m : M) : Prop :=
  ∀ frame, encodeFrame encode m cfg.encoding = .ok frame → Carries cfg encode m frame

theorem readable_plain {cfg : ReadConfig (List UInt8)} (hdecode : cfg.decode = .ok)
    (hplain : cfg.encoding = .identity) {m : List UInt8} (hlen : m.length ≤ cfg.maxMessageSize) :
    Readable cfg .ok m := by
  intro bytes hbytes
  have hframe : encodeFrame (T := List UInt8) .ok m .identity = .ok (frame 0 m) := rfl
  rw [hplain, hframe] at hbytes
  cases hbytes
  refine ⟨by rw [hplain, hframe], fun h => by rw [hdecode, ← h], fun h => ?_, ?_⟩
  · cases h
    exact hlen
  · rw [frame_length]
    exact Nat.add_le_add_left hlen _

/-- Every message of the side, sent or being sent, is one that the other side reads. -/
def Outgoing.Readable (cfg : ReadConfig M) (encode : M → Except Status (List UInt8))
    (o : Outgoing M) : Prop :=
  (∀ m ∈ o.sent, TrilliumGrpc.Readable cfg encode m) ∧
    ∀ m fut, o.sending = some (m, fut) → TrilliumGrpc.Readable cfg encode m

variable [LawfulCrates] {cfg : ReadConfig M} {encode : M → Except Status (List UInt8)}

omit [LawfulCrates] in
theorem messagesIn_nil (cfg : ReadConfig M) : messagesIn cfg [] = [] := by
  rw [messagesIn, (frames_nil cfg.maxMessageSize).1]
  rfl

theorem messagesIn_frames (hcap : cfg.maxMessageSize < 2 ^ 32) {sent : List M}
    {fs : List (List UInt8)}
    (hfs : List.Forall₂ (fun m f => encodeFrame encode m cfg.encoding = .ok f) sent fs)
    (hread : ∀ m ∈ sent, Readable cfg encode m) (tail : List UInt8) :
    messagesIn cfg (fs.flatten ++ tail) = sent.map (fun m => some (.ok m)) ++ messagesIn cfg tail ∧
      remainder cfg.maxMessageSize (fs.flatten ++ tail) = remainder cfg.maxMessageSize tail := by
  induction hfs with
  | nil => exact ⟨rfl, rfl⟩
  | @cons m f sent fs hf _ ih =>
      obtain ⟨hmessages, hrest⟩ := ih (fun m hm => hread m (List.mem_cons_of_mem _ hm))
      obtain ⟨flag, payload, rfl, hword, hmax, hok⟩ :=
        (hread m List.mem_cons_self f hf).deframe hcap
      have hscan : scan cfg.maxMessageSize (frame flag payload ++ (fs.flatten ++ tail)) =
          .frame (flag != 0) payload (fs.flatten ++ tail) :=
        scan_eq_frame_iff.mpr ⟨flag, rfl, hword, hmax, rfl⟩
      rw [List.flatten_cons, List.append_assoc, messagesIn, frames_of_frame hscan,
        remainder_of_frame hscan, hrest, List.map_cons, ← messagesIn, hmessages]
      simp only [hok, List.map_cons, List.cons_append, and_self]

/-- The bytes a side has written are the messages it sent and the front of a frame, none
of it if nothing is being sent. -/
theorem Outgoing.Frames.messages (hcap : cfg.maxMessageSize < 2 ^ 32) {o : Outgoing M}
    {written : List UInt8} (h : o.Frames (encodeFrame encode · cfg.encoding) written)
    (hwhole : o.torn = false) (hread : o.Readable cfg encode) :
    messagesIn cfg written = o.sent.map (fun m => some (.ok m)) ∧
      (scan cfg.maxMessageSize (remainder cfg.maxMessageSize written)).Short ∧
      (o.sending = none → remainder cfg.maxMessageSize written = []) := by
  obtain ⟨fs, accepted, hfs, rfl, hsending⟩ := h hwhole
  obtain ⟨hmessages, hrest⟩ := messagesIn_frames hcap hfs hread.1 accepted
  obtain ⟨hnil, hnone⟩ := frames_nil cfg.maxMessageSize
  rw [hmessages, hrest]
  cases hs : o.sending with
  | none =>
      rw [hs] at hsending
      subst hsending
      rw [messagesIn_nil, List.append_nil, hnone]
      exact ⟨rfl, trivial, fun _ => rfl⟩
  | some x =>
      rw [hs] at hsending
      obtain ⟨hframe, hsplit, hleft⟩ := hsending
      obtain ⟨flag, payload, hbytes, hword, hmax, _⟩ :=
        (hread.2 _ _ hs _ hframe).deframe hcap
      have hscan : scan cfg.maxMessageSize (accepted ++ x.2.left) =
          .frame (flag != 0) payload [] := by
        rw [← hsplit, hbytes]
        exact scan_eq_frame_iff.mpr ⟨flag, rfl, hword, hmax, (List.append_nil _).symm⟩
      have hshort := short_of_proper_front hscan hleft
      obtain ⟨hno, hsame⟩ := frames_of_no_frame hshort.not_frame
      rw [messagesIn, hno, hsame, List.map_nil, List.append_nil]
      exact ⟨rfl, hshort, fun habs => by cases habs⟩

theorem Outgoing.Frames.front (hcap : cfg.maxMessageSize < 2 ^ 32) {o : Outgoing M}
    {front written : List UInt8} (h : o.Frames (encodeFrame encode · cfg.encoding) written)
    (hwhole : o.torn = false) (hread : o.Readable cfg encode) (hfront : front <+: written) :
    messagesIn cfg front <+: o.sent.map (fun m => some (.ok m)) ∧
      ∀ len, scan cfg.maxMessageSize (remainder cfg.maxMessageSize front) ≠ .oversized len := by
  obtain ⟨hmessages, hshort, _⟩ := h.messages hcap hwhole hread
  refine ⟨?_, fun len hover => ?_⟩
  · rw [← hmessages]
    exact (frames_front hfront).map _
  · obtain ⟨more, rfl⟩ := hfront
    rw [(frames_append cfg.maxMessageSize front more).2] at hshort
    have hover' := scan_append_oversized hover more
    rw [(frames_of_no_frame (fun _ _ _ hframe => by rw [hframe] at hover'; cases hover')).2,
      hover'] at hshort
    exact hshort

/-- The pipe ends in order behind the frames of the first `total` messages. -/
def EndsBehind (encodeMessage : M → Except Status (List UInt8)) (sent : List M)
    (total : Option Nat) (b : Inbox E) : Prop :=
  ∀ e, b.ending = some (.ok e) → ∃ k fs, total = some k ∧
    List.Forall₂ (fun m f => encodeMessage m = .ok f) (sent.take k) fs ∧ b.received = fs.flatten

/-- The last answer tells the end when all the messages in front of it have been read, or
that the pipe broke. -/
theorem Ends.of_pipe (hcap : cfg.maxMessageSize < 2 ^ 32) {o : Outgoing M} {written : List UInt8}
    (h : o.Frames (encodeFrame encode · cfg.encoding) written) (hwhole : o.torn = false)
    (hread : o.Readable cfg encode) {b : Inbox E} (hfed : b.Fed written) {total : Option Nat}
    (htotal : EndsBehind (encodeFrame encode · cfg.encoding) o.sent total b)
    {last : Option (Except Status M)}
    (hends : Ends cfg (remainder cfg.maxMessageSize b.taken) b last) :
    (∃ k, last = none ∧ total = some k ∧ Stopped b none ∧
        messagesIn cfg b.taken = (o.sent.take k).map (fun m => some (.ok m))) ∨
      ∃ e, b.ending = some (.error e) ∧ last = some (.error (readError e)) := by
  rcases hends with ⟨len, hover, _⟩ | ⟨fault, hstop, hshort, hlast⟩
  · exact absurd hover ((h.front hcap hwhole hread (Inbox.taken_prefix hfed)).2 len)
  · cases fault with
    | none =>
        obtain ⟨hspent, e, hend⟩ : b.arrived = [] ∧ ∃ e, b.ending = some (.ok e) := hstop
        obtain ⟨k, fs, hk, hfs, hreceived⟩ := htotal e hend
        rw [Inbox.received, hspent, List.append_nil] at hreceived
        obtain ⟨hmessages, hrest⟩ := messagesIn_frames hcap hfs
          (fun m hm => hread.1 m (List.mem_of_mem_take hm)) []
        rw [List.append_nil] at hmessages hrest
        rw [messagesIn_nil, List.append_nil] at hmessages
        rw [hreceived, hrest, (frames_nil _).2] at hlast
        refine .inl ⟨k, ?_, hk, ⟨hspent, e, hend⟩, by rw [hreceived, hmessages]⟩
        rcases hlast with ⟨_, hnone⟩ | ⟨status, hfailed, _⟩
        · exact hnone
        · simp [parseOne, scan, Scan.verdict, endOfBytes] at hfailed
    | some e =>
        refine .inr ⟨e, hstop, ?_⟩
        -- whatever was cut short, the transport's error is told
        have hverdict : parseOne cfg (some e) (remainder cfg.maxMessageSize b.taken) =
            .failed (readError e) := by
          rw [parseOne]
          cases hs : scan cfg.maxMessageSize (remainder cfg.maxMessageSize b.taken) with
          | frame compressed payload rest => exact absurd hs (hshort.not_frame _ _ _)
          | oversized len =>
              rw [hs] at hshort
              exact hshort.elim
          | boundary => rfl
          | shortPrefix => rfl
          | shortPayload => rfl
        rw [hverdict] at hlast
        rcases hlast with ⟨habs, _⟩ | ⟨status, hfailed, hitem⟩
        · cases habs
        · cases hfailed
          exact hitem

/-- What the reads of a pipe have given of the messages sent into it: these in their order,
each once; behind them the end, once all messages in front of it are read, or that the
pipe broke; and then nothing. -/
def InOrder (b : Inbox E) (sent : List M) (total : Option Nat)
    (answers : List (Option (Except Status M))) : Prop :=
  ∃ k last, k ≤ sent.length ∧ answers = (sent.take k).map (fun m => some (.ok m)) ++ last ∧
    (last = [] ∨
      (∃ n, last = List.replicate (n + 1) none ∧ total = some k ∧ Stopped b none) ∨
      ∃ e n, last = some (.error (readError e)) :: List.replicate n none ∧
        b.ending = some (.error e))

theorem Consumed.in_order (hcap : cfg.maxMessageSize < 2 ^ 32) {o : Outgoing M}
    {written : List UInt8} (h : o.Frames (encodeFrame encode · cfg.encoding) written)
    (hwhole : o.torn = false) (hread : o.Readable cfg encode) {b : Inbox E} (hfed : b.Fed written)
    {total : Option Nat}
    (htotal : EndsBehind (encodeFrame encode · cfg.encoding) o.sent total b)
    (hlength : ∀ k, total = some k → k ≤ o.sent.length) {state : ReadState}
    {answers : List (Option (Except Status M))} (hconsumed : Consumed cfg b state answers) :
    InOrder b o.sent total answers := by
  obtain ⟨hbegin, _⟩ := h.front hcap hwhole hread (Inbox.taken_prefix hfed)
  have htake : messagesIn cfg b.taken =
      (o.sent.take (messagesIn cfg b.taken).length).map (fun m => some (.ok m)) := by
    rw [List.map_take]
    exact List.prefix_iff_eq_take.mp hbegin
  have hle := hbegin.length_le
  rw [List.length_map] at hle
  rcases hconsumed with ⟨_, rfl⟩ | ⟨_, last, n, rfl, hends⟩
  · exact ⟨_, [], hle, by rw [List.append_nil]; exact htake, .inl rfl⟩
  · rcases hends.of_pipe hcap h hwhole hread hfed htotal with
      ⟨k, rfl, hk, hended, hall⟩ | ⟨e, hbroken, rfl⟩
    · refine ⟨k, none :: List.replicate n none, hlength k hk, ?_, .inr (.inl ⟨n, rfl, hk, hended⟩)⟩
      exact congrArg (· ++ _) hall
    · exact ⟨_, _, hle, congrArg (· ++ _) htake, .inr (.inr ⟨e, n, rfl, hbroken⟩)⟩

def messagesOf (answers : List (Option (Except Status M))) : List M :=
  answers.filterMap (fun answer =>
    match answer with
    | some (.ok m) => some m
    | _ => none)

omit [CodecCrates] [LawfulCrates] in
theorem messagesOf_append (messages : List M) (last : List (Option (Except Status M))) :
    messagesOf (messages.map (fun m => some (.ok m)) ++ last) = messages ++ messagesOf last := by
  rw [messagesOf, List.filterMap_append, List.filterMap_map]
  exact congrArg (· ++ _) (List.filterMap_some)

omit [CodecCrates] [LawfulCrates] in
/-- Reads that stop at the first answer which is no message: it is the end or the break. -/
theorem InOrder.stopped {b : Inbox E} {sent messages : List M} {total : Option Nat}
    {last : Option (Except Status M)}
    (h : InOrder b sent total (messages.map (fun m => some (.ok m)) ++ [last]))
    (hends : ∀ m, last ≠ some (.ok m)) :
    (last = none ∧ total = some messages.length ∧ messages <+: sent ∧ Stopped b none) ∨
      ∃ e, last = some (.error (readError e)) ∧ b.ending = some (.error e) := by
  obtain ⟨k, tail, hk, hall, htail⟩ := h
  have hlast : messagesOf [last] = [] := by
    match last with
    | none => rfl
    | some (.error _) => rfl
    | some (.ok m) => exact absurd rfl (hends m)
  have hnothing : messagesOf tail = [] := by
    rcases htail with rfl | ⟨n, rfl, _⟩ | ⟨e, n, rfl, _⟩
    · rfl
    · simp [messagesOf]
    · simp [messagesOf]
  have hmessages : messages = sent.take k := by
    have h' := congrArg messagesOf hall
    rwa [messagesOf_append, messagesOf_append, hlast, hnothing, List.append_nil,
      List.append_nil] at h'
  subst hmessages
  have htail' := List.append_cancel_left hall
  rcases htail with rfl | ⟨n, rfl, htotal, hended⟩ | ⟨e, n, rfl, hbroken⟩
  · cases htail'
  · rw [List.replicate_succ, List.cons.injEq] at htail'
    refine .inl ⟨htail'.1, ?_, List.take_prefix _ _, hended⟩
    rw [htotal, List.length_take, Nat.min_eq_left hk]
  · rw [List.cons.injEq] at htail'
    exact .inr ⟨e, htail'.1, hbroken⟩

end TrilliumGrpc
