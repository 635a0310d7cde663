import TrilliumGrpc.Frame.RoundTrip

/-! # Bodies of one frame

What it takes for a body to be read as one message and then the end.
-/

namespace TrilliumGrpc

open Async Bytes ByteSource

theorem exists_frame_of_prefix {bytes payload : List UInt8} (hfive : prefixLen ≤ bytes.length)
    (hlen : payload.length = (parsePrefix (bytes.take prefixLen)).2) :
    ∃ flag : UInt8, (flag != 0) = (parsePrefix (bytes.take prefixLen)).1 ∧
      payload.length < 2 ^ 32 ∧ bytes.take prefixLen ++ payload = frame flag payload := by
  obtain ⟨flag, b0, b1, b2, b3, rest, rfl⟩ :
      ∃ flag b0 b1 b2 b3 rest, bytes = flag :: b0 :: b1 :: b2 :: b3 :: rest := by
    rcases bytes with _ | ⟨flag, _ | ⟨b0, _ | ⟨b1, _ | ⟨b2, _ | ⟨b3, rest⟩⟩⟩⟩⟩
    case cons.cons.cons.cons.cons => exact ⟨flag, b0, b1, b2, b3, rest, rfl⟩
    all_goals simp [prefixLen] at hfive
  have hvalue : payload.length = (fromBeBytes b0 b1 b2 b3).toNat := hlen
  have hword : UInt32.ofNat payload.length = fromBeBytes b0 b1 b2 b3 := by
    rw [hvalue, UInt32.ofNat_toNat]
  refine ⟨flag, rfl, ?_, ?_⟩
  · rw [hvalue]
    exact UInt32.toNat_lt _
  · rw [frame, hword, toBeBytes_fromBeBytes]
    rfl

theorem scan_eq_frame_iff {max : Nat} {bytes payload rest : List UInt8} {compressed : Bool} :
    scan max bytes = .frame compressed payload rest ↔ ∃ flag : UInt8, (flag != 0) = compressed ∧
      payload.length < 2 ^ 32 ∧ payload.length ≤ max ∧ bytes = frame flag payload ++ rest := by
  constructor
  · intro h
    rw [scan] at h
    split at h
    · cases h
    · split at h
      · cases h
      · rename_i hfive
        dsimp only at h
        split at h
        · cases h
        · rename_i hmax
          rw [scanPayload] at h
          split at h
          · cases h
          · rename_i hpayload
            rw [Scan.frame.injEq] at h
            obtain ⟨rfl, rfl, rfl⟩ := h
            have hlen : ((bytes.drop prefixLen).take
                (parsePrefix (bytes.take prefixLen)).2).length =
                  (parsePrefix (bytes.take prefixLen)).2 := by
              rw [List.length_take]
              omega
            obtain ⟨flag, hflag, hword, hframe⟩ :=
              exists_frame_of_prefix (Nat.le_of_not_lt hfive) hlen
            refine ⟨flag, hflag, hword, by omega, ?_⟩
            rw [← hframe, List.append_assoc, List.take_append_drop, List.take_append_drop]
  · rintro ⟨flag, rfl, hword, hmax, rfl⟩
    rw [scan_frame_append flag hword, if_neg (by omega)]

variable {T : Type} [CodecCrates]

/-- One complete frame within the cap, whose payload comes to `message`, and a clean end. -/
def SingleFrame (cfg : ReadConfig T) (fault : Option String) (bytes : List UInt8) (message : T) :
    Prop :=
  fault = none ∧ ∃ flag payload, bytes = frame flag payload ∧ payload.length < 2 ^ 32 ∧
    payload.length ≤ cfg.maxMessageSize ∧ cfg.deframe (flag != 0) payload = .ok message

theorem parseOne_eq_eof_iff {cfg : ReadConfig T} {fault : Option String} {bytes : List UInt8} :
    parseOne cfg fault bytes = .eof ↔ fault = none ∧ bytes = [] := by
  rw [parseOne]
  constructor
  · intro h
    cases hscan : scan cfg.maxMessageSize bytes with
    | boundary =>
        rw [hscan] at h
        cases fault with
        | none =>
            refine ⟨rfl, ?_⟩
            by_contra hne
            rw [scan, if_neg hne] at hscan
            split at hscan
            · cases hscan
            · dsimp only at hscan
              split at hscan
              · cases hscan
              · rw [scanPayload] at hscan
                split at hscan <;> cases hscan
        | some e => cases h
    | shortPrefix => rw [hscan] at h; cases fault <;> cases h
    | oversized len => rw [hscan] at h; cases h
    | shortPayload => rw [hscan] at h; cases fault <;> cases h
    | frame compressed payload rest => rw [hscan] at h; cases h
  · rintro ⟨rfl, rfl⟩
    rfl

theorem parseOne_eq_item_iff {cfg : ReadConfig T} {fault : Option String}
    {bytes rest : List UInt8} {message : Except Status T} :
    parseOne cfg fault bytes = .item message rest ↔ ∃ flag payload,
      bytes = frame flag payload ++ rest ∧ payload.length < 2 ^ 32 ∧
        payload.length ≤ cfg.maxMessageSize ∧ cfg.deframe (flag != 0) payload = message := by
  constructor
  · intro h
    rw [parseOne] at h
    cases hscan : scan cfg.maxMessageSize bytes with
    | frame compressed payload rest' =>
        rw [hscan, Scan.verdict, Parsed.item.injEq] at h
        obtain ⟨rfl, rfl⟩ := h
        obtain ⟨flag, rfl, hword, hmax, hbytes⟩ := scan_eq_frame_iff.mp hscan
        exact ⟨flag, payload, hbytes, hword, hmax, rfl⟩
    | boundary => rw [hscan] at h; cases fault <;> cases h
    | shortPrefix => rw [hscan] at h; cases fault <;> cases h
    | oversized len => rw [hscan] at h; cases h
    | shortPayload => rw [hscan] at h; cases fault <;> cases h
  · rintro ⟨flag, payload, rfl, hword, hmax, rfl⟩
    exact parseOne_frame cfg fault flag hword hmax rest

/-- A body of one frame, and only such a body, is read as its message and then the end. -/
theorem parse_eq_single_iff {cfg : ReadConfig T} {fault : Option String} {bytes : List UInt8}
    {message : T} :
    parse cfg fault bytes = [some (.ok message), none] ↔ SingleFrame cfg fault bytes message := by
  rw [parse_eq_follow]
  constructor
  · intro h
    cases hone : parseOne cfg fault bytes with
    | eof => rw [hone] at h; cases h
    | failed status => rw [hone] at h; cases h
    | item first rest =>
        rw [hone] at h
        cases first with
        | error status => cases h
        | ok first =>
            simp only [Parsed.follow, List.cons.injEq, Option.some.injEq, Except.ok.injEq] at h
            obtain ⟨rfl, hend⟩ := h
            rw [parse_eq_follow] at hend
            have heof : parseOne cfg fault rest = .eof := by
              rcases hrest : parseOne cfg fault rest with _ | status | ⟨status | second, later⟩
              · rfl
              · rw [hrest] at hend; cases hend
              · rw [hrest] at hend; cases hend
              · rw [hrest] at hend; cases hend
            obtain ⟨hfault, rfl⟩ := parseOne_eq_eof_iff.mp heof
            obtain ⟨flag, payload, hbytes, hparts⟩ := parseOne_eq_item_iff.mp hone
            rw [List.append_nil] at hbytes
            exact ⟨hfault, flag, payload, hbytes, hparts⟩
  · rintro ⟨rfl, flag, payload, rfl, hword, hmax, hmessage⟩
    have hone : parseOne cfg none (frame flag payload) = .item (.ok message) [] :=
      parseOne_eq_item_iff.mpr ⟨flag, payload, (List.append_nil _).symm, hword, hmax, hmessage⟩
    rw [hone, Parsed.follow, parse_eq_follow]
    rfl

end TrilliumGrpc
