import TrilliumGrpc.Frame.RoundTrip

/-! # Payloads of any length

`encode_payload` takes every payload, but the length field has 32 bits. The reader
gives back a list of payloads exactly when each of them is shorter than 2^32 bytes.
-/

namespace TrilliumGrpc

open Async ByteSource

section

variable [CodecCrates]

theorem encodePayload_identity (payload : List UInt8) :
    encodePayload payload .identity = .ok (frame 0 payload) := rfl

theorem frames_eq {payloads frames : List (List UInt8)}
    (h : List.Forall₂ (fun p f => encodePayload p .identity = .ok f) payloads frames) :
    frames.flatten = payloads.flatMap (frame 0) := by
  induction h with
  | nil => rfl
  | cons hframe _ ih =>
      rw [encodePayload_identity, Except.ok.injEq] at hframe
      rw [List.flatten_cons, List.flatMap_cons, ih, hframe]

theorem parseOne_frame_mod {cfg : ReadConfig (List UInt8)} (fault : Option String)
    {payload : List UInt8} (hmax : payload.length ≤ cfg.maxMessageSize) (rest : List UInt8) :
    parseOne cfg fault (frame 0 payload ++ rest) =
      .item (cfg.decode (payload.take (payload.length % 2 ^ 32)))
        (payload.drop (payload.length % 2 ^ 32) ++ rest) := by
  have hle : payload.length % 2 ^ 32 ≤ payload.length := Nat.mod_le _ _
  have htotal : (payload ++ rest).length = payload.length + rest.length := List.length_append
  rw [parseOne, scan_frame_mod, if_neg (by omega), scanPayload, if_neg (by omega), Scan.verdict,
    List.take_append_of_le_length hle, List.drop_append_of_le_length hle]
  rfl

/-- The parser gives the payloads and then the end exactly when every length fits. -/
theorem parse_payloads_iff {max : Nat} {payloads : List (List UInt8)}
    (hmax : ∀ p ∈ payloads, p.length ≤ max) :
    parse ⟨.ok, .identity, max⟩ none (payloads.flatMap (frame 0)) =
        payloads.map (fun p => some (.ok p)) ++ [none] ↔
      ∀ p ∈ payloads, p.length < 2 ^ 32 := by
  induction payloads with
  | nil =>
      rw [parse_eq_follow]
      exact ⟨fun _ => by simp, fun _ => rfl⟩
  | cons p payloads ih =>
      have hrest := ih (fun q hq => hmax q (List.mem_cons_of_mem p hq))
      have hp : p.length ≤ max := hmax p List.mem_cons_self
      rw [List.flatMap_cons, parse_eq_follow, parseOne_frame_mod none hp, Parsed.follow,
        List.map_cons, List.cons_append, List.cons.injEq, List.forall_mem_cons]
      by_cases hlen : p.length < 2 ^ 32
      · rw [Nat.mod_eq_of_lt hlen, List.take_length, List.drop_length, List.nil_append, hrest]
        exact ⟨fun h => ⟨hlen, h.2⟩, fun h => ⟨rfl, h.2⟩⟩
      · -- what the reader takes for the payload is shorter
        refine ⟨fun h => ?_, fun h => absurd h.1 hlen⟩
        have htake : p.take (p.length % 2 ^ 32) = p := by simpa using h.1
        have hshort : p.length % 2 ^ 32 < 2 ^ 32 := Nat.mod_lt _ (by decide)
        have hcut := congrArg List.length htake
        rw [List.length_take] at hcut
        omega

/-! ## Read as a stream -/

variable {ρ : Type} [ByteSource ρ]

/-- A `MessageStream` that hands over the payloads as they are. -/
def payloadStream (r : ρ) (max : Nat) : MessageStream (List UInt8) ρ :=
  (MessageStream.new r .ok).withMaxMessageSize max

theorem items_payloadStream (r : ρ) (max n : Nat) :
    items MessageStream.pollNext isErr n (payloadStream r max) =
      items (readPoll ⟨.ok, .identity, max⟩) isErr n (r, .new) := by
  have hstep : ∀ s : MessageStream (List UInt8) ρ, s.config = ⟨.ok, .identity, max⟩ →
      readPoll ⟨.ok, .identity, max⟩ (s.reader, s.state) =
        (s.pollNext.1, (s.pollNext.2.reader, s.pollNext.2.state)) ∧
      s.pollNext.2.config = ⟨.ok, .identity, max⟩ := by
    intro s hs
    rw [← hs]
    exact ⟨rfl, rfl⟩
  exact items_comap (fun s : MessageStream (List UInt8) ρ => (s.reader, s.state))
    (fun s => s.config = ⟨.ok, .identity, max⟩) hstep n rfl

def ReadsBack (stream : MessageStream (List UInt8) ρ) (payloads : List (List UInt8)) : Prop :=
  (∀ n, items MessageStream.pollNext isErr n stream <+:
      payloads.map (fun p => some (.ok p)) ++ [none]) ∧
    ∃ N, ∀ n ≥ N, items MessageStream.pollNext isErr n stream =
      payloads.map (fun p => some (.ok p)) ++ [none]

/-- Exactly the lists whose payloads are all shorter than 2^32 bytes are read back from
their frames, whatever the chunks. -/
theorem payloads_read_back_iff {payloads frames : List (List UInt8)}
    (hframes : List.Forall₂ (fun p f => encodePayload p .identity = .ok f) payloads frames)
    {max : Nat} (hmax : ∀ p ∈ payloads, p.length ≤ max) {r : ρ} (hend : fault r = none)
    (hrest : rest r = frames.flatten) :
    ReadsBack (payloadStream r max) payloads ↔ ∀ p ∈ payloads, p.length < 2 ^ 32 := by
  have hyields := readPoll_yields (ρ := ρ) (T := List UInt8) ⟨.ok, .identity, max⟩
  have hstart := follow_ahead_new (ρ := ρ) (T := List UInt8) ⟨.ok, .identity, max⟩ r
  have hparse : parse ⟨.ok, .identity, max⟩ (fault r) (rest r) =
      parse ⟨.ok, .identity, max⟩ none (payloads.flatMap (frame 0)) := by
    rw [hend, hrest, frames_eq hframes]
  rw [← parse_payloads_iff hmax, ReadsBack, ← hparse]
  simp only [items_payloadStream]
  constructor
  · intro h
    obtain ⟨N, hall⟩ := hyields.items_eventually hstart
    obtain ⟨M, hexpected⟩ := h.2
    rw [← hall (N + M) (Nat.le_add_right N M), hexpected (N + M) (Nat.le_add_left M N)]
  · intro h
    rw [← h]
    exact ⟨fun n => hyields.items_prefix n hstart, hyields.items_eventually hstart⟩

theorem overlong_read_as_empty {payload : List UInt8} (hlen : payload.length = 2 ^ 32) {r : ρ}
    (hend : fault r = none) (hrest : rest r = frame 0 payload) :
    ∃ n later, items MessageStream.pollNext isErr n (payloadStream r (2 ^ 32)) =
      some (.ok []) :: later := by
  have hyields := readPoll_yields (ρ := ρ) (T := List UInt8) ⟨.ok, .identity, 2 ^ 32⟩
  have hstart := follow_ahead_new (ρ := ρ) (T := List UInt8) ⟨.ok, .identity, 2 ^ 32⟩ r
  have hnone : payload.length % 2 ^ 32 = 0 := by
    rw [hlen]
    exact Nat.mod_self _
  have hone : parseOne ⟨.ok, .identity, 2 ^ 32⟩ none (frame 0 payload) =
      .item (.ok []) (payload.drop 0 ++ []) := by
    rw [← List.append_nil (frame 0 payload), parseOne_frame_mod none (Nat.le_of_eq hlen), hnone,
      List.take_zero]
  have hparse : parse ⟨.ok, .identity, 2 ^ 32⟩ (fault r) (rest r) =
      some (.ok []) :: parse ⟨.ok, .identity, 2 ^ 32⟩ none (payload.drop 0 ++ []) := by
    rw [hend, hrest, parse_eq_follow, hone, Parsed.follow]
  obtain ⟨N, hall⟩ := hyields.items_eventually hstart
  exact ⟨N, _, (items_payloadStream r _ N).trans ((hall N (Nat.le_refl N)).trans hparse)⟩

end

theorem short_payloads_read_back : letI := storedCrates
    ReadsBack (payloadStream (⟨[0, 0, 0, 0, 1, 7, 0, 0, 0, 0, 0], [], none⟩ : Script) 9)
      [[7], []] := by
  let _ := storedCrates
  have hframes : List.Forall₂ (fun p f => encodePayload p .identity = .ok f) [[7], []]
      [[0, 0, 0, 0, 1, 7], [0, 0, 0, 0, 0]] := .cons rfl (.cons rfl .nil)
  exact (payloads_read_back_iff hframes (by decide) rfl rfl).mpr (by decide)

/-- The length field of 2^32 zero bytes is zero. -/
theorem four_gigabytes_read_as_empty : letI := storedCrates
    ∃ n later, items MessageStream.pollNext isErr n (payloadStream
      (⟨frame 0 (List.replicate (2 ^ 32) 0), [], none⟩ : Script) (2 ^ 32)) =
        some (.ok []) :: later := by
  let _ := storedCrates
  exact overlong_read_as_empty List.length_replicate rfl rfl

end TrilliumGrpc
