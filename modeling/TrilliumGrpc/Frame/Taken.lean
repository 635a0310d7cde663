import TrilliumGrpc.Async.Tally
import TrilliumGrpc.Frame.Single

/-! # What the framing reader has taken

`poll_read_message` over a reader of which nothing is known: what it answers is what
the one-shot parser makes of the bytes it took, and it takes none behind the frame it
is in. So the messages given so far are those of the complete frames taken so far.
-/

namespace TrilliumGrpc

open Async Bytes TalliedRead

/-! ## Complete frames -/

def Scan.Short : Scan → Prop
  | .boundary => True
  | .shortPrefix => True
  | .shortPayload => True
  | _ => False

def remainder (maxMessageSize : Nat) (bytes : List UInt8) : List UInt8 :=
  match _h : scan maxMessageSize bytes with
  | .frame _ _ rest => remainder maxMessageSize rest
  | _ => bytes
termination_by bytes.length
decreasing_by
  have hlen := scan_frame_length _h
  simp only [prefixLen] at hlen
  omega

section

variable {max : Nat} {bytes payload rest : List UInt8} {compressed : Bool}

theorem scan_append (h : scan max bytes = .frame compressed payload rest) (more : List UInt8) :
    scan max (bytes ++ more) = .frame compressed payload (rest ++ more) := by
  obtain ⟨flag, hflag, hword, hmax, rfl⟩ := scan_eq_frame_iff.mp h
  rw [List.append_assoc]
  exact scan_eq_frame_iff.mpr ⟨flag, hflag, hword, hmax, rfl⟩

theorem frames_of_frame (h : scan max bytes = .frame compressed payload rest) :
    frames max bytes = (compressed, payload) :: frames max rest := by
  rw [frames]
  split
  · rename_i h'
    rw [h, Scan.frame.injEq] at h'
    obtain ⟨rfl, rfl, rfl⟩ := h'
    rfl
  · rename_i h'
    exact absurd h (h' _ _ _)

theorem remainder_of_frame (h : scan max bytes = .frame compressed payload rest) :
    remainder max bytes = remainder max rest := by
  rw [remainder]
  split
  · rename_i h'
    rw [h, Scan.frame.injEq] at h'
    obtain ⟨rfl, rfl, rfl⟩ := h'
    rfl
  · rename_i h'
    exact absurd h (h' _ _ _)

theorem frames_of_no_frame
    (h : ∀ compressed payload rest, scan max bytes ≠ .frame compressed payload rest) :
    frames max bytes = [] ∧ remainder max bytes = bytes := by
  constructor
  · rw [frames]
    split
    · rename_i h'
      exact absurd h' (h _ _ _)
    · rfl
  · rw [remainder]
    split
    · rename_i h'
      exact absurd h' (h _ _ _)
    · rfl

theorem frames_append (max : Nat) (bytes more : List UInt8) :
    frames max (bytes ++ more) = frames max bytes ++ frames max (remainder max bytes ++ more) ∧
      remainder max (bytes ++ more) = remainder max (remainder max bytes ++ more) := by
  induction hn : bytes.length using Nat.strong_induction_on generalizing bytes with
  | h n ih =>
      by_cases hframe : ∃ compressed payload rest,
          scan max bytes = .frame compressed payload rest
      · obtain ⟨compressed, payload, rest, h⟩ := hframe
        have hshort := scan_frame_length h
        have hpos : 0 < prefixLen := by decide
        obtain ⟨hframes, hrest⟩ := ih rest.length (by omega) rest rfl
        have hmore := scan_append h more
        rw [frames_of_frame h, frames_of_frame hmore, remainder_of_frame h,
          remainder_of_frame hmore, hframes, hrest, List.cons_append]
        exact ⟨rfl, rfl⟩
      · obtain ⟨hnil, hsame⟩ := frames_of_no_frame
          (fun c p r h => hframe ⟨c, p, r, h⟩)
        rw [hnil, hsame, List.nil_append]
        exact ⟨rfl, rfl⟩

theorem frames_front {front all : List UInt8} (h : front <+: all) :
    frames max front <+: frames max all := by
  obtain ⟨more, rfl⟩ := h
  rw [(frames_append max front more).1]
  exact List.prefix_append _ _

theorem Scan.Short.length_lt (h : (scan max bytes).Short) : bytes.length < prefixLen + max := by
  rw [scan] at h
  split at h
  · rename_i hnil
    subst hnil
    simp [prefixLen]
  · split at h
    · rename_i hlt
      omega
    · dsimp only at h
      split at h
      · exact h.elim
      · rename_i hmax
        rw [scanPayload] at h
        split at h
        · rename_i hlt
          rw [List.length_drop] at hlt
          omega
        · exact h.elim

theorem Scan.Short.not_frame {s : Scan} (h : s.Short) (compressed : Bool)
    (payload rest : List UInt8) : s ≠ .frame compressed payload rest := by
  rintro rfl
  exact h

end

/-! ## One poll -/

/-- The state in which a read of the bytes `part`, the front of a frame, waits for more. -/
def ReadState.Holds (max : Nat) (part : List UInt8) : ReadState → Prop
  | .readingPrefix buf => buf.contents = part ∧ buf.filled < prefixLen
  | .readingPayload compressed len payload => ∃ head : List UInt8, head.length = prefixLen ∧
      parsePrefix head = (compressed, len) ∧ len ≤ max ∧ part = head ++ payload.contents ∧
      payload.filled < len
  | .done => False

def ReadState.capacity : ReadState → Nat
  | .readingPrefix _ => prefixLen
  | .readingPayload _ len _ => len
  | .done => 0

theorem ReadState.Holds.capacity_le {max : Nat} {part : List UInt8} {state : ReadState}
    (h : state.Holds max part) : state.capacity ≤ Nat.max prefixLen max := by
  cases state with
  | done => exact h.elim
  | readingPrefix buf => exact Nat.le_max_left _ _
  | readingPayload compressed len payload =>
      obtain ⟨_, _, _, hmax, _⟩ := h
      exact Nat.le_trans hmax (Nat.le_max_right _ _)

theorem ReadState.holds_new (max : Nat) : ReadState.new.Holds max [] :=
  ⟨rfl, by decide⟩

theorem scan_announced {max : Nat} {head : List UInt8} (hlen : head.length = prefixLen)
    (hmax : ¬ (parsePrefix head).2 > max) (payload : List UInt8) :
    scan max (head ++ payload) = scanPayload (parsePrefix head).1 (parsePrefix head).2 payload := by
  have hne : head ++ payload ≠ [] := by
    intro hnil
    rw [(List.append_eq_nil_iff.mp hnil).1] at hlen
    exact absurd hlen (by decide)
  rw [scan, if_neg hne, if_neg (by rw [List.length_append]; omega), List.take_left' hlen,
    List.drop_left' hlen]
  dsimp only
  rw [if_neg hmax]

theorem ReadState.Holds.short {max : Nat} {part : List UInt8} {state : ReadState}
    (h : state.Holds max part) : (scan max part).Short := by
  cases state with
  | done => exact h.elim
  | readingPrefix buf =>
      obtain ⟨rfl, hlt⟩ := h
      rw [scan]
      split
      · trivial
      · rw [if_pos (by rw [FillBuf.contents_length]; exact hlt)]
        trivial
  | readingPayload compressed len payload =>
      obtain ⟨head, hhead, hparse, hmax, rfl, hlt⟩ := h
      rw [scan_announced hhead (by rw [hparse]; exact Nat.not_lt.mpr hmax), hparse, scanPayload,
        if_pos (by rw [FillBuf.contents_length]; exact hlt)]
      trivial

variable {ρ T : Type} [CodecCrates]

/-- The last answer of a stream that is over behind the bytes `part`: they begin a frame
over the cap, or the parser's word on them where the reader stopped. -/
def Ends [TalliedRead ρ] (cfg : ReadConfig T) (part : List UInt8) (r : ρ)
    (item : Option (Except Status T)) : Prop :=
  (∃ len, scan cfg.maxMessageSize part = .oversized len ∧
      item = some (.error (tooLong len cfg.maxMessageSize))) ∨
    ∃ fault, Stopped r fault ∧ (scan cfg.maxMessageSize part).Short ∧
      ((parseOne cfg fault part = .eof ∧ item = none) ∨
        ∃ status, parseOne cfg fault part = .failed status ∧ item = some (.error status))

/-- The bytes `part`, all of them taken, have this answer: the message of a complete
frame, or the last one. -/
def Answers [TalliedRead ρ] (cfg : ReadConfig T) (part : List UInt8) (r : ρ) (state : ReadState)
    (item : Option (Except Status T)) : Prop :=
  (∃ compressed payload, scan cfg.maxMessageSize part = .frame compressed payload [] ∧
      item = some (cfg.deframe compressed payload) ∧ state = .new) ∨
    (state = .done ∧ Ends cfg part r item)

/-- What one poll took, behind the front `part` of the current frame. -/
def TakesSpec [TalliedRead ρ] (cfg : ReadConfig T) (r : ρ) (part : List UInt8)
    (step : ReadStep ρ T) : Prop :=
  ∃ new, taken step.reader = taken r ++ new ∧
    match step.answer with
    | .pending => step.state.Holds cfg.maxMessageSize (part ++ new)
    | .ready item => Answers cfg (part ++ new) step.reader step.state item

variable [TalliedRead ρ]

theorem pollPayload_takes (cfg : ReadConfig T) (r : ρ) {compressed : Bool} {len : Nat}
    (payload : FillBuf len) {head : List UInt8} (hhead : head.length = prefixLen)
    (hparse : parsePrefix head = (compressed, len)) (hmax : len ≤ cfg.maxMessageSize) :
    TakesSpec cfg r (head ++ payload.contents) (pollPayload cfg r compressed len payload) := by
  have hspec := fill_taken r payload
  -- what the payload's bytes are scanned as
  have hscan : ∀ bytes, scan cfg.maxMessageSize (head ++ bytes) = scanPayload compressed len bytes := by
    intro bytes
    rw [scan_announced hhead (by rw [hparse]; exact Nat.not_lt.mpr hmax), hparse]
  have hshort : ∀ {bytes : List UInt8}, bytes.length < len →
      scan cfg.maxMessageSize (head ++ bytes) = .shortPayload := by
    intro bytes hlt
    rw [hscan, scanPayload, if_pos hlt]
  unfold pollPayload
  cases hf : fill r payload with
  | mk stop r' =>
      rw [hf] at hspec
      cases stop with
      | full payload' =>
          obtain ⟨new, hnew, hbytes, hfull⟩ := hspec
          have hlen : payload'.contents.length = len := by rw [FillBuf.contents_length, hfull]
          refine ⟨new, hnew, .inl ⟨compressed, payload'.bytes, ?_, rfl, rfl⟩⟩
          rw [List.append_assoc, ← hbytes, hscan, scanPayload, if_neg (by omega),
            payload'.bytes_of_full hfull, List.take_of_length_le (by omega),
            List.drop_of_length_le (by omega)]
      | pending payload' =>
          obtain ⟨new, hnew, hbytes, hlt⟩ := hspec
          refine ⟨new, hnew, head, hhead, hparse, hmax, ?_, hlt⟩
          rw [hbytes, List.append_assoc]
      | eof payload' =>
          obtain ⟨new, hnew, hbytes, hlt, hend⟩ := hspec
          rw [← FillBuf.contents_length] at hlt
          have hs := hshort hlt
          rw [hbytes] at hs
          refine ⟨new, hnew, .inr ⟨rfl, .inr ⟨none, hend, ?_, .inr ⟨payloadEof, ?_, rfl⟩⟩⟩⟩
          · rw [List.append_assoc, hs]
            trivial
          · rw [List.append_assoc, parseOne, hs]
            rfl
      | error e =>
          obtain ⟨new, hnew, hlt, herr⟩ := hspec
          rw [← FillBuf.contents_length, ← List.length_append] at hlt
          have hs := hshort hlt
          refine ⟨new, hnew, .inr ⟨rfl, .inr ⟨some e, herr, ?_, .inr ⟨readError e, ?_, rfl⟩⟩⟩⟩
          · rw [List.append_assoc, hs]
            trivial
          · rw [List.append_assoc, parseOne, hs]
            rfl

theorem pollPrefix_takes (cfg : ReadConfig T) (r : ρ) (buf : FillBuf prefixLen) :
    TakesSpec cfg r buf.contents (pollPrefix cfg r buf) := by
  have hspec := fill_taken r buf
  -- too few bytes for a prefix
  have hshort : ∀ {bytes : List UInt8}, bytes.length < prefixLen →
      scan cfg.maxMessageSize bytes = if bytes = [] then .boundary else .shortPrefix := by
    intro bytes hlt
    rw [scan, if_pos hlt]
  unfold pollPrefix
  cases hf : fill r buf with
  | mk stop r' =>
      rw [hf] at hspec
      cases stop with
      | pending buf' =>
          obtain ⟨new, hnew, hbytes, hlt⟩ := hspec
          exact ⟨new, hnew, hbytes, hlt⟩
      | eof buf' =>
          obtain ⟨new, hnew, hbytes, hlt, hend⟩ := hspec
          have hlen := buf'.contents_length
          rw [hbytes] at hlen
          have hs := hshort (by rw [hlen]; exact hlt)
          dsimp only
          by_cases hzero : buf'.filled = 0
          · have hnil : buf.contents ++ new = [] := List.length_eq_zero_iff.mp (hlen.trans hzero)
            rw [if_pos hnil] at hs
            rw [if_pos hzero]
            refine ⟨new, hnew, .inr ⟨rfl, .inr ⟨none, hend, ?_, .inl ⟨?_, rfl⟩⟩⟩⟩
            · rw [hs]
              trivial
            · rw [parseOne, hs]
              rfl
          · have hne : buf.contents ++ new ≠ [] := by
              intro hnil
              rw [hnil] at hlen
              exact hzero hlen.symm
            rw [if_neg hne] at hs
            rw [if_neg hzero]
            refine ⟨new, hnew, .inr ⟨rfl, .inr ⟨none, hend, ?_, .inr ⟨prefixEof, ?_, rfl⟩⟩⟩⟩
            · rw [hs]
              trivial
            · rw [parseOne, hs]
              rfl
      | error e =>
          obtain ⟨new, hnew, hlt, herr⟩ := hspec
          rw [← FillBuf.contents_length, ← List.length_append] at hlt
          have hs := hshort hlt
          refine ⟨new, hnew, .inr ⟨rfl, .inr ⟨some e, herr, ?_, .inr ⟨readError e, ?_, rfl⟩⟩⟩⟩
          · rw [hs]
            split <;> trivial
          · rw [parseOne, hs]
            split <;> rfl
      | full buf' =>
          obtain ⟨new, hnew, hbytes, hfull⟩ := hspec
          have hlen : buf'.contents.length = prefixLen := by
            rw [FillBuf.contents_length, hfull]
          have hne : buf'.contents ≠ [] := by
            intro hnil
            rw [hnil] at hlen
            exact absurd hlen (by decide)
          dsimp only
          rw [buf'.bytes_of_full hfull]
          cases hp : parsePrefix buf'.contents with
          | mk compressed len =>
              dsimp only
              by_cases hbig : len > cfg.maxMessageSize
              · rw [if_pos hbig]
                refine ⟨new, hnew, .inr ⟨rfl, .inl ⟨len, ?_, rfl⟩⟩⟩
                rw [← hbytes, scan, if_neg hne, if_neg (by omega),
                  List.take_of_length_le (by omega), hp]
                dsimp only
                rw [if_pos hbig]
              · rw [if_neg hbig]
                obtain ⟨later, hlater, hstep⟩ := pollPayload_takes cfg r' (.zeroed len) hlen hp
                  (Nat.le_of_not_lt hbig)
                rw [FillBuf.contents_zeroed, List.append_nil, hbytes, List.append_assoc] at hstep
                refine ⟨new ++ later, ?_, hstep⟩
                rw [hlater, hnew, List.append_assoc]

theorem pollReadMessage_takes (cfg : ReadConfig T) (r : ρ) {part : List UInt8} {state : ReadState}
    (h : state.Holds cfg.maxMessageSize part) :
    TakesSpec cfg r part (pollReadMessage cfg r state) := by
  cases state with
  | done => exact h.elim
  | readingPrefix buf =>
      obtain ⟨rfl, _⟩ := h
      exact pollPrefix_takes cfg r buf
  | readingPayload compressed len payload =>
      obtain ⟨head, hhead, hparse, hmax, rfl, _⟩ := h
      exact pollPayload_takes cfg r payload hhead hparse hmax

omit [TalliedRead ρ] in
/-- What every poll of a reader keeps, the framing reader's polls keep. -/
theorem pollReadMessage_kept [AsyncRead ρ] {K : ρ → Prop}
    (hpoll : ∀ r len, K r → K (AsyncRead.pollRead r len).2) (cfg : ReadConfig T) {r : ρ} (h : K r)
    (state : ReadState) : K (pollReadMessage cfg r state).reader := by
  have hpayload : ∀ {r : ρ} (compressed : Bool) (len : Nat) (payload : FillBuf len), K r →
      K (pollPayload cfg r compressed len payload).reader := by
    intro r compressed len payload h
    have hfill := fill_kept hpoll h payload
    unfold pollPayload
    rcases hf : fill r payload with ⟨_ | _ | _ | _, r'⟩ <;> rw [hf] at hfill <;> exact hfill
  cases state with
  | done => exact h
  | readingPayload compressed len payload => exact hpayload compressed len payload h
  | readingPrefix buf =>
      have hfill := fill_kept hpoll h buf
      simp only [pollReadMessage, pollPrefix]
      rcases hf : fill r buf with ⟨buf' | buf' | buf' | e, r'⟩ <;> rw [hf] at hfill
      · dsimp only
        split
        · exact hfill
        · exact hpayload _ _ _ hfill
      · exact hfill
      · dsimp only
        split <;> exact hfill
      · exact hfill

/-! ## Whole runs -/

/-- The messages of the complete frames in `bytes`. -/
def messagesIn (cfg : ReadConfig T) (bytes : List UInt8) : List (Option (Except Status T)) :=
  (frames cfg.maxMessageSize bytes).map (fun f => some (cfg.deframe f.1 f.2))

/-- The answers so far are the messages of the complete frames taken so far, and the read
of the next one waits behind them; or the stream is over. -/
def Consumed (cfg : ReadConfig T) (r : ρ) (state : ReadState)
    (answers : List (Option (Except Status T))) : Prop :=
  (state.Holds cfg.maxMessageSize (remainder cfg.maxMessageSize (taken r)) ∧
      answers = messagesIn cfg (taken r)) ∨
    (state = .done ∧ ∃ last k, answers = messagesIn cfg (taken r) ++ last :: List.replicate k none ∧
      Ends cfg (remainder cfg.maxMessageSize (taken r)) r last)

omit [CodecCrates] [TalliedRead ρ] in
theorem frames_nil (max : Nat) : frames max [] = [] ∧ remainder max [] = [] :=
  frames_of_no_frame (fun compressed payload rest h => by simp [scan] at h)

theorem Consumed.start {cfg : ReadConfig T} {r : ρ} (h : taken r = []) :
    Consumed cfg r .new [] := by
  obtain ⟨hframes, hrest⟩ := frames_nil cfg.maxMessageSize
  refine .inl ⟨?_, ?_⟩
  · rw [h, hrest]
    exact ReadState.holds_new _
  · rw [messagesIn, h, hframes]
    rfl

/-- What one poll adds. -/
theorem Consumed.step {cfg : ReadConfig T} {r : ρ} {state : ReadState}
    {answers : List (Option (Except Status T))} (h : Consumed cfg r state answers) :
    Consumed cfg (pollReadMessage cfg r state).reader (pollReadMessage cfg r state).state
      (answers ++ (pollReadMessage cfg r state).answer.given) := by
  rcases h with ⟨hholds, rfl⟩ | ⟨rfl, last, k, rfl, hends⟩
  · obtain ⟨new, hnew, hstep⟩ := pollReadMessage_takes cfg r hholds
    obtain ⟨hframes, hrest⟩ := frames_append cfg.maxMessageSize (taken r) new
    rw [← hnew] at hframes hrest
    -- while a frame is unfinished, nothing but its front has grown
    have hgrown : (∀ compressed payload rest, scan cfg.maxMessageSize
        (remainder cfg.maxMessageSize (taken r) ++ new) ≠ .frame compressed payload rest) →
        messagesIn cfg (taken (pollReadMessage cfg r state).reader) =
            messagesIn cfg (taken r) ∧
          remainder cfg.maxMessageSize (taken (pollReadMessage cfg r state).reader) =
            remainder cfg.maxMessageSize (taken r) ++ new := by
      intro hno
      obtain ⟨hnil, hsame⟩ := frames_of_no_frame hno
      rw [messagesIn, messagesIn, hframes, hrest, hnil, hsame, List.append_nil]
      exact ⟨rfl, rfl⟩
    cases ha : (pollReadMessage cfg r state).answer with
    | pending =>
        rw [ha] at hstep
        obtain ⟨hmessages, hpart⟩ := hgrown hstep.short.not_frame
        refine .inl ⟨by rw [hpart]; exact hstep, ?_⟩
        rw [hmessages, Poll.given, List.append_nil]
    | ready item =>
        rw [ha] at hstep
        rcases hstep with ⟨compressed, payload, hscan, rfl, hstate⟩ | ⟨hdone, hends⟩
        · obtain ⟨hnil, hsame⟩ := frames_nil cfg.maxMessageSize
          rw [frames_of_frame hscan, hnil] at hframes
          rw [remainder_of_frame hscan, hsame] at hrest
          refine .inl ⟨?_, ?_⟩
          · rw [hstate, hrest]
            exact ReadState.holds_new _
          · rw [messagesIn, messagesIn, hframes, List.map_append]
            rfl
        · have hno : ∀ compressed payload rest, scan cfg.maxMessageSize
              (remainder cfg.maxMessageSize (taken r) ++ new) ≠ .frame compressed payload rest := by
            intro compressed payload rest hframe
            rcases hends with ⟨len, hover, _⟩ | ⟨_, _, hshort, _⟩
            · rw [hframe] at hover
              cases hover
            · exact hshort.not_frame _ _ _ hframe
          obtain ⟨hmessages, hpart⟩ := hgrown hno
          refine .inr ⟨hdone, item, 0, ?_, by rw [hpart]; exact hends⟩
          rw [hmessages]
          rfl
  · refine .inr ⟨rfl, last, k + 1, ?_, hends⟩
    rw [List.append_assoc, List.cons_append, List.replicate_succ']
    rfl

theorem Consumed.moved {cfg : ReadConfig T} {r r' : ρ} {state : ReadState}
    {answers : List (Option (Except Status T))} (h : Consumed cfg r state answers)
    (htaken : taken r' = taken r) (hstopped : ∀ fault, Stopped r fault → Stopped r' fault) :
    Consumed cfg r' state answers := by
  unfold Consumed at h ⊢
  rw [htaken]
  rcases h with hgoing | ⟨hdone, last, k, hall, hends⟩
  · exact .inl hgoing
  · refine .inr ⟨hdone, last, k, hall, ?_⟩
    rcases hends with hover | ⟨fault, hstop, hlast⟩
    · exact .inl hover
    · exact .inr ⟨fault, hstopped fault hstop, hlast⟩

/-- Over any number of polls of any reader: no answer but the messages of the frames that
were completely taken, in order, until the one that ends the stream; nothing was taken
behind the frame that is being read, which is within the cap, and so is its buffer. -/
theorem MessageStream.takes_whole_frames {ρ : Type} [AsyncRead ρ] (cfg : ReadConfig T) (r : ρ)
    (n : Nat) :
    let start : MessageStream T (Tally ρ) := ⟨.new r, .new, cfg⟩
    let s := after MessageStream.pollNext n start
    let sofar := answers MessageStream.pollNext n start
    (s.state ≠ .done → sofar = messagesIn cfg s.reader.taken ∧
      (remainder cfg.maxMessageSize s.reader.taken).length < prefixLen + cfg.maxMessageSize ∧
      s.state.capacity ≤ Nat.max prefixLen cfg.maxMessageSize) ∧
    (s.state = .done → ∃ last k,
      sofar = messagesIn cfg s.reader.taken ++ last :: List.replicate k none ∧
      Ends cfg (remainder cfg.maxMessageSize s.reader.taken) s.reader last) := by
  intro start s sofar
  have hrun : s.config = cfg ∧ Consumed cfg s.reader s.state sofar := by
    refine answers_kept (fun (s : MessageStream T (Tally ρ)) sofar =>
      s.config = cfg ∧ Consumed cfg s.reader s.state sofar) ?_ n ⟨rfl, .start rfl⟩
    rintro s sofar ⟨rfl, h⟩
    exact ⟨rfl, h.step⟩
  rcases hrun.2 with ⟨hholds, hsofar⟩ | ⟨hdone, hends⟩
  · refine ⟨fun _ => ⟨hsofar, hholds.short.length_lt, hholds.capacity_le⟩, fun hdone => ?_⟩
    rw [hdone] at hholds
    exact hholds.elim
  · exact ⟨fun hlive => absurd hdone hlive, fun _ => hends⟩

end TrilliumGrpc
