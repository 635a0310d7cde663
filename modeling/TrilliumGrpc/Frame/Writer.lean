import TrilliumGrpc.Encoding

/-! # Writing frames

`src/frame/writer.rs`: a flag byte, the payload length as a 32-bit big-endian
word, the payload.
-/

namespace TrilliumGrpc

open Bytes

def prefixLen : Nat := 5

/-- The length field is `payload.len() as u32`. -/
def frame (flag : UInt8) (payload : List UInt8) : List UInt8 :=
  flag :: (toBeBytes (UInt32.ofNat payload.length) ++ payload)

@[simp] theorem frame_length (flag : UInt8) (payload : List UInt8) :
    (frame flag payload).length = prefixLen + payload.length := by
  simp only [frame, List.length_cons, List.length_append, toBeBytes_length, prefixLen]
  omega

variable [CodecCrates]

def framePayload (payload : List UInt8) : Encoding → Except Status (UInt8 × List UInt8)
  | .identity => .ok (0, payload)
  | encoding => (encoding.compress payload).map (fun out => (1, out))

def encodePayload (payload : List UInt8) (encoding : Encoding) : Except Status (List UInt8) :=
  (framePayload payload encoding).map (fun out => frame out.1 out.2)

def encodeFrame {T : Type} (encode : T → Except Status (List UInt8)) (value : T)
    (encoding : Encoding) : Except Status (List UInt8) := do
  encodePayload (← encode value) encoding

theorem framePayload_of_ne {encoding : Encoding} (h : encoding ≠ .identity)
    (payload : List UInt8) :
    framePayload payload encoding = (encoding.compress payload).map (fun out => (1, out)) := by
  cases encoding with
  | identity => exact absurd rfl h
  | gzip => rfl
  | deflate => rfl
  | zstd => rfl

theorem encodePayload_ok {payload out : List UInt8} {encoding : Encoding}
    (h : encodePayload payload encoding = .ok out) :
    ∃ flag body, framePayload payload encoding = .ok (flag, body) ∧ out = frame flag body := by
  unfold encodePayload at h
  cases hp : framePayload payload encoding with
  | error e => simp [hp, Except.map] at h
  | ok result =>
      simp only [hp, Except.map, Except.ok.injEq] at h
      exact ⟨result.1, result.2, rfl, h.symm⟩

theorem encodeFrame_ok {T : Type} {encode : T → Except Status (List UInt8)} {value : T}
    {encoding : Encoding} {out : List UInt8} (h : encodeFrame encode value encoding = .ok out) :
    ∃ flag body, out = frame flag body := by
  unfold encodeFrame at h
  cases hraw : encode value with
  | error status => simp [hraw, bind, Except.bind] at h
  | ok raw =>
      simp only [hraw, bind, Except.bind] at h
      obtain ⟨flag, body, _, hout⟩ := encodePayload_ok h
      exact ⟨flag, body, hout⟩

end TrilliumGrpc
