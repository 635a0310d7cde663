import TrilliumGrpc.Frame.Refinement

/-! # Frames written and read back

Where a frame's payload is shorter than 2^32 bytes its length field is exact, and
the reader finds the frame and the bytes after it again.
-/

namespace TrilliumGrpc

open Async Bytes ByteSource

theorem parsePrefix_frame (flag : UInt8) (payload rest : List UInt8) :
    parsePrefix ((frame flag payload ++ rest).take prefixLen) =
      (flag != 0, payload.length % 2 ^ 32) := by
  have hword : (UInt32.ofNat payload.length).toNat = payload.length % 2 ^ 32 := UInt32.toNat_ofNat'
  have hexact := congrArg UInt32.toNat (fromBeBytes_toBeBytes (UInt32.ofNat payload.length))
  rw [hword] at hexact
  simp only [frame, toBeBytes, hword, prefixLen, List.cons_append, List.nil_append,
    List.take_succ_cons, List.take_zero, parsePrefix, List.getD_cons_zero, List.getD_cons_succ,
    hexact]

theorem scan_frame_mod (flag : UInt8) (payload : List UInt8) (maxMessageSize : Nat)
    (rest : List UInt8) : scan maxMessageSize (frame flag payload ++ rest) =
      if payload.length % 2 ^ 32 > maxMessageSize then .oversized (payload.length % 2 ^ 32)
      else scanPayload (flag != 0) (payload.length % 2 ^ 32) (payload ++ rest) := by
  have hne : frame flag payload ++ rest ≠ [] := by simp [frame]
  have htotal : (frame flag payload ++ rest).length = prefixLen + payload.length + rest.length := by
    rw [List.length_append, frame_length]
  have hdrop : (frame flag payload ++ rest).drop prefixLen = payload ++ rest := rfl
  rw [scan, if_neg hne, if_neg (by omega), parsePrefix_frame, hdrop]

theorem scan_frame_append (flag : UInt8) {payload : List UInt8} (hlen : payload.length < 2 ^ 32)
    (maxMessageSize : Nat) (rest : List UInt8) :
    scan maxMessageSize (frame flag payload ++ rest) =
      if payload.length > maxMessageSize then .oversized payload.length
      else .frame (flag != 0) payload rest := by
  have hpayload : scanPayload (flag != 0) payload.length (payload ++ rest) =
      .frame (flag != 0) payload rest := by
    rw [scanPayload, if_neg (by rw [List.length_append]; omega), List.take_left' rfl,
      List.drop_left' rfl]
  rw [scan_frame_mod, Nat.mod_eq_of_lt hlen, hpayload]

/-- Where and how framing ends: behind the last complete frame. -/
def stopsAt (maxMessageSize : Nat) (bytes : List UInt8) : Scan :=
  match _h : scan maxMessageSize bytes with
  | .frame _ _ rest => stopsAt maxMessageSize rest
  | stop => stop
termination_by bytes.length
decreasing_by
  have hlen := scan_frame_length _h
  simp only [prefixLen] at hlen
  omega

theorem stopsAt_flatten {fs : List (List UInt8)} (maxMessageSize : Nat)
    (h : ∀ f ∈ fs, ∃ flag payload, f = frame flag payload ∧ payload.length < 2 ^ 32) :
    stopsAt maxMessageSize fs.flatten = .boundary ∨
      ∃ len, stopsAt maxMessageSize fs.flatten = .oversized len := by
  induction fs with
  | nil =>
      refine .inl ?_
      rw [stopsAt]
      rfl
  | cons f fs ih =>
      obtain ⟨flag, payload, rfl, hlen⟩ := h f List.mem_cons_self
      have hscan := scan_frame_append flag hlen maxMessageSize fs.flatten
      rw [List.flatten_cons, stopsAt]
      by_cases hbig : payload.length > maxMessageSize
      · rw [if_pos hbig] at hscan
        rw [hscan]
        exact .inr ⟨payload.length, rfl⟩
      · rw [if_neg hbig] at hscan
        rw [hscan]
        exact ih (fun g hg => h g (List.mem_cons_of_mem _ hg))

variable {ρ T : Type} [CodecCrates]

theorem parseOne_frame (cfg : ReadConfig T) (fault : Option String) (flag : UInt8)
    {payload : List UInt8} (hlen : payload.length < 2 ^ 32)
    (hmax : payload.length ≤ cfg.maxMessageSize) (rest : List UInt8) :
    parseOne cfg fault (frame flag payload ++ rest) =
      .item (cfg.deframe (flag != 0) payload) rest := by
  rw [parseOne, scan_frame_append flag hlen, if_neg (by omega), Scan.verdict]

/-- The bytes of `frame` are those of one message under the reader's
configuration, and neither its raw nor its encoded form is over the cap. -/
structure Carries (cfg : ReadConfig T) (encode : T → Except Status (List UInt8)) (m : T)
    (bytes : List UInt8) : Prop where
  written : encodeFrame encode m cfg.encoding = .ok bytes
  decodes : ∀ {raw}, encode m = .ok raw → cfg.decode raw = .ok m
  raw_le : ∀ {raw}, encode m = .ok raw → raw.length ≤ cfg.maxMessageSize
  wire_le : bytes.length ≤ prefixLen + cfg.maxMessageSize

theorem exists_carried {cfg : ReadConfig T} {encode : T → Except Status (List UInt8)}
    {messages : List T}
    (hsent : ∀ m ∈ messages, ∃ bytes, encodeFrame encode m cfg.encoding = .ok bytes ∧
      bytes.length ≤ prefixLen + cfg.maxMessageSize)
    (hraw : ∀ m ∈ messages, ∀ raw, encode m = .ok raw → raw.length ≤ cfg.maxMessageSize)
    (hdecode : ∀ m ∈ messages, ∀ raw, encode m = .ok raw → cfg.decode raw = .ok m) :
    ∃ sent : List (T × List UInt8), sent.map Prod.fst = messages ∧
      ∀ x ∈ sent, Carries cfg encode x.1 x.2 := by
  choose! frameOf hframe hle using hsent
  refine ⟨messages.map (fun m => (m, frameOf m)), ?_, ?_⟩
  · rw [List.map_map]
    exact List.map_id messages
  · intro x hx
    obtain ⟨m, hm, rfl⟩ := List.mem_map.mp hx
    exact ⟨hframe m hm, fun h => hdecode m hm _ h, fun h => hraw m hm _ h, hle m hm⟩

variable [LawfulCrates]

/-- What the writer framed is one frame that the reader turns into the message. -/
theorem Carries.deframe {cfg : ReadConfig T} {encode : T → Except Status (List UInt8)} {m : T}
    {bytes : List UInt8} (h : Carries cfg encode m bytes) (hcap : cfg.maxMessageSize < 2 ^ 32) :
    ∃ flag payload, bytes = frame flag payload ∧ payload.length < 2 ^ 32 ∧
      payload.length ≤ cfg.maxMessageSize ∧ cfg.deframe (flag != 0) payload = .ok m := by
  have hwritten := h.written
  unfold encodeFrame at hwritten
  cases hraw : encode m with
  | error status => simp [hraw, bind, Except.bind] at hwritten
  | ok raw =>
      have hle := h.raw_le hraw
      have hdec := h.decodes hraw
      simp only [hraw, bind, Except.bind] at hwritten
      obtain ⟨flag, payload, hpayload, rfl⟩ := encodePayload_ok hwritten
      have hwire := h.wire_le
      rw [frame_length] at hwire
      refine ⟨flag, payload, rfl, by omega, by omega, ?_⟩
      by_cases henc : cfg.encoding = .identity
      · rw [henc, framePayload, Except.ok.injEq, Prod.mk.injEq] at hpayload
        obtain ⟨rfl, rfl⟩ := hpayload
        rw [ReadConfig.deframe, if_neg (by decide), hdec]
      · rw [framePayload_of_ne henc] at hpayload
        cases hcomp : cfg.encoding.compress raw with
        | error status => simp [hcomp, Except.map] at hpayload
        | ok out =>
            simp only [hcomp, Except.map, Except.ok.injEq, Prod.mk.injEq] at hpayload
            obtain ⟨rfl, rfl⟩ := hpayload
            rw [ReadConfig.deframe, if_pos (by decide), if_neg henc,
              Encoding.decompress_compress hcomp hle (by omega)]
            exact hdec

/-- The concatenated frames of a list of messages are parsed to these messages
and then the end. -/
theorem parse_frames {cfg : ReadConfig T} {encode : T → Except Status (List UInt8)}
    {sent : List (T × List UInt8)} (hcap : cfg.maxMessageSize < 2 ^ 32)
    (h : ∀ s ∈ sent, Carries cfg encode s.1 s.2) (tail : List UInt8) (fault : Option String) :
    parse cfg fault ((sent.map Prod.snd).flatten ++ tail) =
      sent.map (fun s => some (.ok s.1)) ++ parse cfg fault tail := by
  induction sent with
  | nil => rfl
  | cons s sent ih =>
      obtain ⟨flag, payload, hbytes, hlen, hmax, hok⟩ :=
        (h s List.mem_cons_self).deframe hcap
      rw [List.map_cons, List.flatten_cons, List.append_assoc, hbytes, parse_eq_follow,
        parseOne_frame cfg fault flag hlen hmax, hok, Parsed.follow,
        ih (fun t ht => h t (List.mem_cons_of_mem _ ht))]
      rfl

/-! ## A source of frames, read frame by frame -/

def wire (sent : List (T × List UInt8)) : List UInt8 := (sent.map Prod.snd).flatten

omit [CodecCrates] [LawfulCrates] in
@[simp] theorem wire_cons (x : T × List UInt8) (sent : List (T × List UInt8)) :
    wire (x :: sent) = x.2 ++ wire sent := rfl

/-- The source has the frames of `left` still to give, one of them perhaps begun,
and then ends. -/
structure Holding [ByteSource ρ] (cfg : ReadConfig T) (left : List (T × List UInt8))
    (s : ρ × ReadState) : Prop where
  ends : fault s.1 = none
  ahead_eq : ahead cfg s = parseOne cfg none (wire left)
  spent : s.2 = .done → rest s.1 = []

section

variable [ByteSource ρ] {cfg : ReadConfig T} {encode : T → Except Status (List UInt8)}

omit [LawfulCrates] in
theorem Holding.new {left : List (T × List UInt8)} {r : ρ} (hend : fault r = none)
    (hrest : rest r = wire left) : Holding cfg left (r, .new) where
  ends := hend
  ahead_eq := by rw [ahead, ReadState.resume_new, hend, hrest]
  spent h := by simp [ReadState.new] at h

omit [LawfulCrates] in
theorem Holding.ended {s : ρ × ReadState} (hend : fault s.1 = none) (hrest : rest s.1 = [])
    (hdone : s.2 = .done) : Holding cfg [] s where
  ends := hend
  ahead_eq := by
    rw [ahead, hdone]
    rfl
  spent _ := hrest

omit [LawfulCrates] in
theorem parseOne_eq_eof {bytes : List UInt8} (h : parseOne cfg none bytes = .eof) :
    bytes = [] := by
  unfold parseOne scan at h
  split at h
  · assumption
  · split at h
    · simp [Scan.verdict, endOfBytes] at h
    · dsimp only at h
      split at h
      · simp [Scan.verdict] at h
      · unfold scanPayload at h
        split at h <;> simp [Scan.verdict, endOfBytes] at h

omit [LawfulCrates] in
theorem Holding.rest_of_eof {left : List (T × List UInt8)} {s : ρ × ReadState}
    (h : Holding cfg left s) (heof : ahead cfg s = .eof) : rest s.1 = [] := by
  obtain ⟨r, state⟩ := s
  have hend := h.ends
  cases state with
  | done => exact h.spent rfl
  | readingPrefix buf =>
      simp only [ahead, ReadState.resume, hend] at heof
      exact (List.append_eq_nil_iff.mp (parseOne_eq_eof heof)).2
  | readingPayload compressed len payload =>
      simp only [ahead, ReadState.resume, hend, scanPayload] at heof
      split at heof <;> simp [Scan.verdict, endOfBytes] at heof

theorem parseOne_wire (hcap : cfg.maxMessageSize < 2 ^ 32) {left : List (T × List UInt8)}
    (h : ∀ x ∈ left, Carries cfg encode x.1 x.2) :
    (left = [] ∧ parseOne cfg none (wire left) = .eof) ∨
      ∃ x left', left = x :: left' ∧
        parseOne cfg none (wire left) = .item (.ok x.1) (wire left') := by
  cases left with
  | nil => exact .inl ⟨rfl, rfl⟩
  | cons x left =>
      obtain ⟨flag, payload, hbytes, hlen, hmax, hok⟩ := (h x List.mem_cons_self).deframe hcap
      refine .inr ⟨x, left, rfl, ?_⟩
      rw [wire_cons, hbytes, parseOne_frame cfg none flag hlen hmax, hok]

/-- What one poll takes from the frames of `left`. -/
def HoldingStep (cfg : ReadConfig T) (left : List (T × List UInt8)) (s : ρ × ReadState) :
    Poll (Option (Except Status T)) × (ρ × ReadState) → Prop
  | (.pending, s') => Holding cfg left s' ∧ Advanced s'.1 s.1
  | (.ready none, s') => left = [] ∧ fault s'.1 = none ∧ rest s'.1 = [] ∧ s'.2 = .done
  | (.ready (some message), s') => ∃ x left', left = x :: left' ∧ message = .ok x.1 ∧
      fault s'.1 = none ∧ rest s'.1 = wire left' ∧ s'.2 = .new

/-- One poll gives the first of `left` or nothing, takes no byte of the others, and
ends when there is none. -/
theorem Holding.step (hcap : cfg.maxMessageSize < 2 ^ 32) {left : List (T × List UInt8)}
    (hleft : ∀ x ∈ left, Carries cfg encode x.1 x.2) {s : ρ × ReadState}
    (h : Holding cfg left s) : HoldingStep cfg left s (readPoll cfg s) := by
  have hnext := parseOne_wire hcap hleft
  rw [← h.ahead_eq] at hnext
  cases hp : readPoll cfg s with
  | mk answer s' =>
      cases answer with
      | pending =>
          obtain ⟨hview, hlive, hadv⟩ := readPoll_pending hp
          simp only [Prod.mk.injEq] at hview
          exact ⟨⟨hview.1.trans h.ends, hview.2.trans h.ahead_eq, fun hdone => absurd hdone hlive⟩,
            hadv⟩
      | ready item =>
          cases item with
          | none =>
              obtain ⟨heof, hdone, hfault, hle⟩ := readPoll_none hp
              rcases hnext with ⟨hnil, _⟩ | ⟨x, left', _, hitem⟩
              · have hspent := h.rest_of_eof heof
                rw [hspent, List.length_nil] at hle
                exact ⟨hnil, hfault.trans h.ends, List.length_eq_zero_iff.mp (Nat.le_zero.mp hle),
                  hdone⟩
              · rw [heof] at hitem
                simp at hitem
          | some message =>
              obtain ⟨hfault, hcases⟩ := readPoll_some hp
              rcases hnext with ⟨_, heof⟩ | ⟨x, left', hleft', hitem⟩
              · rcases hcases with ⟨_, hfail, _⟩ | ⟨hahead, _⟩
                · simp [heof] at hfail
                · simp [heof] at hahead
              · rcases hcases with ⟨_, hfail, _⟩ | ⟨hahead, hstate⟩
                · simp [hitem] at hfail
                · rw [hitem, Parsed.item.injEq] at hahead
                  exact ⟨x, left', hleft', hahead.1.symm, hfault.trans h.ends, hahead.2.symm,
                    hstate⟩

end

end TrilliumGrpc
