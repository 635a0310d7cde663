import TrilliumGrpc.Frame.Reader

/-! # The one-shot frame parser

The reference a resumable reader is compared with: it is given all the bytes at
once, and how the stream ends after them. `pollReadMessage_spec` says what one
poll does to the reference's view of the bytes still to come.
-/

namespace TrilliumGrpc

open Async Bytes

/-! ## Scanning for one frame -/

/-- What stands at the head of a byte string, before anything is decoded. -/
inductive Scan where
  | boundary
  | shortPrefix
  | oversized (len : Nat)
  | shortPayload
  | frame (compressed : Bool) (payload rest : List UInt8)

def scanPayload (compressed : Bool) (len : Nat) (bytes : List UInt8) : Scan :=
  if bytes.length < len then .shortPayload
  else .frame compressed (bytes.take len) (bytes.drop len)

def scan (maxMessageSize : Nat) (bytes : List UInt8) : Scan :=
  if bytes = [] then .boundary
  else if bytes.length < prefixLen then .shortPrefix
  else
    let (compressed, len) := parsePrefix (bytes.take prefixLen)
    if len > maxMessageSize then .oversized len
    else scanPayload compressed len (bytes.drop prefixLen)

theorem scan_frame_length {maxMessageSize : Nat} {bytes payload rest : List UInt8}
    {compressed : Bool} (h : scan maxMessageSize bytes = .frame compressed payload rest) :
    rest.length + prefixLen ≤ bytes.length := by
  unfold scan at h
  split at h
  · simp at h
  · split at h
    · simp at h
    · dsimp only at h
      split at h
      · simp at h
      · unfold scanPayload at h
        split at h
        · simp at h
        · simp only [Scan.frame.injEq] at h
          rw [← h.2.2, List.length_drop, List.length_drop]
          omega

/-- The complete frames ahead of the first place where framing breaks off. -/
def frames (maxMessageSize : Nat) (bytes : List UInt8) : List (Bool × List UInt8) :=
  match _h : scan maxMessageSize bytes with
  | .frame compressed payload rest => (compressed, payload) :: frames maxMessageSize rest
  | _ => []
termination_by bytes.length
decreasing_by
  have hlen := scan_frame_length _h
  simp only [prefixLen] at hlen
  omega

/-! ## The reference parser -/

variable {ρ T : Type} [CodecCrates]

/-- The reference's next answer: the end, a framing failure that ends the
stream, or a frame's message with the bytes after it. -/
inductive Parsed (T : Type) where
  | eof
  | failed (status : Status)
  | item (message : Except Status T) (rest : List UInt8)

/-- Bytes that ran out are the transport's error if it has one. -/
def endOfBytes (fault : Option String) (atEof : Parsed T) : Parsed T :=
  match fault with
  | some e => .failed (readError e)
  | none => atEof

def Scan.verdict (cfg : ReadConfig T) (fault : Option String) : Scan → Parsed T
  | .boundary => endOfBytes fault .eof
  | .shortPrefix => endOfBytes fault (.failed prefixEof)
  | .oversized len => .failed (tooLong len cfg.maxMessageSize)
  | .shortPayload => endOfBytes fault (.failed payloadEof)
  | .frame compressed payload rest => .item (cfg.deframe compressed payload) rest

def parseOne (cfg : ReadConfig T) (fault : Option String) (bytes : List UInt8) : Parsed T :=
  (scan cfg.maxMessageSize bytes).verdict cfg fault

theorem parseOne_item_length {cfg : ReadConfig T} {fault : Option String} {bytes rest : List UInt8}
    {message : Except Status T} (h : parseOne cfg fault bytes = .item message rest) :
    rest.length < bytes.length := by
  cases hs : scan cfg.maxMessageSize bytes with
  | frame compressed payload rest' =>
      have hlen := scan_frame_length hs
      simp only [parseOne, hs, Scan.verdict, Parsed.item.injEq] at h
      rw [← h.2]
      simp only [prefixLen] at hlen
      omega
  | oversized len => simp [parseOne, hs, Scan.verdict] at h
  | boundary => cases fault <;> simp [parseOne, hs, Scan.verdict, endOfBytes] at h
  | shortPrefix => cases fault <;> simp [parseOne, hs, Scan.verdict, endOfBytes] at h
  | shortPayload => cases fault <;> simp [parseOne, hs, Scan.verdict, endOfBytes] at h

/-- All items of a byte string, up to the end or the first error. -/
def parse (cfg : ReadConfig T) (fault : Option String) (bytes : List UInt8) :
    List (Option (Except Status T)) :=
  match _h : parseOne cfg fault bytes with
  | .eof => [none]
  | .failed status => [some (.error status)]
  | .item (.error status) _ => [some (.error status)]
  | .item (.ok message) rest => some (.ok message) :: parse cfg fault rest
termination_by bytes.length
decreasing_by exact parseOne_item_length _h

/-! ## One poll against the reference -/

def ReadState.resume (cfg : ReadConfig T) (fault : Option String) (rest : List UInt8) :
    ReadState → Parsed T
  | .done => .eof
  | .readingPrefix buf => parseOne cfg fault (buf.contents ++ rest)
  | .readingPayload compressed len payload =>
      (scanPayload compressed len (payload.contents ++ rest)).verdict cfg fault

@[simp] theorem ReadState.resume_new (cfg : ReadConfig T) (fault : Option String)
    (rest : List UInt8) : ReadState.new.resume cfg fault rest = parseOne cfg fault rest := by
  simp [ReadState.new, ReadState.resume]

variable [ByteSource ρ]

open ByteSource

def ReadSpec (cfg : ReadConfig T) (r : ρ) (expected : Parsed T) (step : ReadStep ρ T) : Prop :=
  fault step.reader = fault r ∧
    match step.answer with
    | .pending =>
        step.state.resume cfg (fault r) (rest step.reader) = expected ∧ step.state ≠ .done ∧
          Advanced step.reader r
    | .ready none =>
        expected = .eof ∧ step.state = .done ∧ (rest step.reader).length ≤ (rest r).length
    | .ready (some message) =>
        (∃ status, expected = .failed status ∧ message = .error status ∧ step.state = .done) ∨
          (expected = .item message (rest step.reader) ∧ step.state = .new)

omit [CodecCrates] in
theorem endOfBytes_eof {r : ρ} (hnone : fault r = none) (atEof : Parsed T) :
    endOfBytes (fault r) atEof = atEof := by
  simp only [endOfBytes, hnone]

theorem pollPayload_spec (cfg : ReadConfig T) (r : ρ) (compressed : Bool) (len : Nat)
    (payload : FillBuf len) :
    ReadSpec cfg r ((scanPayload compressed len (payload.contents ++ rest r)).verdict cfg (fault r))
      (pollPayload cfg r compressed len payload) := by
  have hspec := fill_spec r payload
  unfold pollPayload
  cases hf : fill r payload with
  | mk stop r' =>
      rw [hf] at hspec
      cases stop with
      | full payload' =>
          obtain ⟨hfull, hbytes, hfault, _⟩ := hspec
          have hlen : payload'.contents.length = len := by
            rw [FillBuf.contents_length, hfull]
          refine ⟨hfault, .inr ⟨?_, rfl⟩⟩
          rw [← hbytes, scanPayload, if_neg (by rw [List.length_append]; omega), Scan.verdict,
            List.take_left' hlen, List.drop_left' hlen, payload'.bytes_of_full hfull]
      | pending payload' =>
          obtain ⟨hbytes, hfault, _, hadv⟩ := hspec
          exact ⟨hfault, by rw [ReadState.resume, hbytes], ReadState.noConfusion, hadv⟩
      | eof payload' =>
          obtain ⟨hbytes, _, hfault, hnone, hlt⟩ := hspec
          refine ⟨hfault, .inl ⟨payloadEof, ?_, rfl, rfl⟩⟩
          rw [scanPayload, if_pos (by rw [← hbytes, FillBuf.contents_length]; exact hlt),
            Scan.verdict, endOfBytes_eof hnone]
      | error e =>
          obtain ⟨hlt, herr, hfault⟩ := hspec
          refine ⟨hfault, .inl ⟨readError e, ?_, rfl, rfl⟩⟩
          rw [scanPayload, if_pos (by rw [List.length_append, FillBuf.contents_length]; exact hlt),
            Scan.verdict, herr, endOfBytes]

theorem ReadSpec.of_later {cfg : ReadConfig T} {r r' : ρ} {expected : Parsed T}
    {step : ReadStep ρ T} (hfault : fault r' = fault r)
    (hmove : r' = r ∨ (rest r').length < (rest r).length)
    (h : ReadSpec cfg r' expected step) : ReadSpec cfg r expected step := by
  rcases hmove with rfl | hlen
  · exact h
  · obtain ⟨hf, hstep⟩ := h
    refine ⟨hf.trans hfault, ?_⟩
    rw [hfault] at hstep
    cases ha : step.answer with
    | ready item =>
        rw [ha] at hstep
        cases item with
        | none =>
            obtain ⟨heof, hdone, hle⟩ := hstep
            exact ⟨heof, hdone, Nat.le_of_lt (Nat.lt_of_le_of_lt hle hlen)⟩
        | some message => exact hstep
    | pending =>
        rw [ha] at hstep
        obtain ⟨hresume, hlive, hadv⟩ := hstep
        exact ⟨hresume, hlive, .inl (Nat.lt_of_le_of_lt hadv.length_le hlen)⟩

theorem pollPrefix_spec (cfg : ReadConfig T) (r : ρ) (buf : FillBuf prefixLen) :
    ReadSpec cfg r (parseOne cfg (fault r) (buf.contents ++ rest r)) (pollPrefix cfg r buf) := by
  have hspec := fill_spec r buf
  unfold pollPrefix
  cases hf : fill r buf with
  | mk stop r' =>
      rw [hf] at hspec
      cases stop with
      | pending buf' =>
          obtain ⟨hbytes, hfault, _, hadv⟩ := hspec
          exact ⟨hfault, by rw [ReadState.resume, hbytes], ReadState.noConfusion, hadv⟩
      | eof buf' =>
          obtain ⟨hbytes, hspent, hfault, hnone, hlt⟩ := hspec
          have hlen : (buf.contents ++ rest r).length = buf'.filled := by
            rw [← hbytes, FillBuf.contents_length]
          dsimp only
          by_cases hzero : buf'.filled = 0
          · have hnil : buf.contents ++ rest r = [] := List.length_eq_zero_iff.mp (hlen.trans hzero)
            rw [if_pos hzero, hnil]
            exact ⟨hfault, endOfBytes_eof hnone _, rfl, by simp [hspent]⟩
          · have hne : buf.contents ++ rest r ≠ [] := by
              intro hnil
              rw [hnil] at hlen
              exact hzero hlen.symm
            rw [if_neg hzero]
            refine ⟨hfault, .inl ⟨prefixEof, ?_, rfl, rfl⟩⟩
            rw [parseOne, scan, if_neg hne, if_pos (by omega), Scan.verdict, endOfBytes_eof hnone]
      | error e =>
          obtain ⟨hlt, herr, hfault⟩ := hspec
          refine ⟨hfault, .inl ⟨readError e, ?_, rfl, rfl⟩⟩
          have hlen : (buf.contents ++ rest r).length < prefixLen := by
            rw [List.length_append, FillBuf.contents_length]
            exact hlt
          rw [parseOne, scan]
          by_cases hnil : buf.contents ++ rest r = []
          · rw [if_pos hnil, Scan.verdict, herr, endOfBytes]
          · rw [if_neg hnil, if_pos hlen, Scan.verdict, herr, endOfBytes]
      | full buf' =>
          obtain ⟨hfull, hbytes, hfault, hmove⟩ := hspec
          have hlen : buf'.contents.length = prefixLen := by
            rw [FillBuf.contents_length, hfull]
          have htotal : ¬ (buf'.contents ++ rest r').length < prefixLen := by
            rw [List.length_append]
            omega
          have hne : buf'.contents ++ rest r' ≠ [] := by
            intro hnil
            rw [hnil] at htotal
            exact htotal (by decide)
          dsimp only
          rw [parseOne, ← hbytes, scan, if_neg hne, if_neg htotal, List.take_left' hlen,
            List.drop_left' hlen, buf'.bytes_of_full hfull]
          cases hp : parsePrefix buf'.contents with
          | mk compressed len =>
              dsimp only
              by_cases hbig : len > cfg.maxMessageSize
              · rw [if_pos hbig, if_pos hbig]
                exact ⟨hfault, .inl ⟨_, rfl, rfl, rfl⟩⟩
              · rw [if_neg hbig, if_neg hbig]
                have hpayload := pollPayload_spec cfg r' compressed len (.zeroed len)
                rw [FillBuf.contents_zeroed, List.nil_append, hfault] at hpayload
                exact hpayload.of_later hfault hmove

theorem pollReadMessage_spec (cfg : ReadConfig T) (r : ρ) (state : ReadState) :
    ReadSpec cfg r (state.resume cfg (fault r) (rest r)) (pollReadMessage cfg r state) := by
  cases state with
  | done => exact ⟨rfl, rfl, rfl, Nat.le_refl _⟩
  | readingPrefix buf => exact pollPrefix_spec cfg r buf
  | readingPayload compressed len payload => exact pollPayload_spec cfg r compressed len payload

end TrilliumGrpc
