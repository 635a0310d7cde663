import TrilliumGrpc.Async.Drain
import TrilliumGrpc.Frame.RoundTrip

/-! # Response bodies

`src/server/body.rs`. A `OneShotBody` is known when the handler returns. In a `StreamBody`
each item of the user's stream becomes a frame when the transport asks for more, and how
the stream ended becomes the trailers; with nothing cutting it the body is a source of
fixed bytes.
-/

namespace TrilliumGrpc

open Async

variable {σ H Resp : Type}

structure OneShotBody (H : Type) where
  bytes : List UInt8
  pos : Nat
  trailers : Option H

namespace OneShotBody

def new (bytes : List UInt8) (trailers : H) : OneShotBody H := ⟨bytes, 0, some trailers⟩

def pollRead (b : OneShotBody H) (len : Nat) :
    Poll (Except String (Chunk len)) × OneShotBody H :=
  let remaining := b.bytes.drop b.pos
  let n := min remaining.length len
  (.ready (.ok ⟨remaining.take n, by simp [n]⟩), { b with pos := b.pos + n })

theorem pollRead_append (b : OneShotBody H) (len : Nat) :
    (b.bytes.drop b.pos).take (min (b.bytes.drop b.pos).length len) ++
      (b.pollRead len).2.bytes.drop (b.pollRead len).2.pos = b.bytes.drop b.pos := by
  simp only [pollRead]
  rw [← List.drop_drop, List.take_append_drop]

instance : ByteSource (OneShotBody H) where
  pollRead := OneShotBody.pollRead
  rest b := b.bytes.drop b.pos
  fault _ := none
  stall _ := 0
  fault_pollRead _ _ := rfl
  pending_spec h := by cases h
  chunk_spec {b len chunk b'} hlen h := by
    have happend := b.pollRead_append len
    cases h
    refine ⟨happend.symm, fun hnil => ⟨?_, rfl⟩⟩
    have hzero := congrArg List.length hnil
    rw [List.length_take, List.length_nil] at hzero
    exact List.length_eq_zero_iff.mp (by omega)
  error_spec h := by cases h

end OneShotBody

structure StreamBody (σ H Resp : Type) where
  stream : σ
  encode : Resp → Except Status (List UInt8)
  encoding : Encoding
  baseTrailers : H
  /-- A cancellation signal is attached. -/
  cancel : Bool
  pending : List UInt8
  pos : Nat
  status : Option Status
  finished : Bool

namespace StreamBody

def new (stream : σ) (encode : Resp → Except Status (List UInt8)) (encoding : Encoding)
    (baseTrailers : H) (cancel : Bool) : StreamBody σ H Resp :=
  ⟨stream, encode, encoding, baseTrailers, cancel, [], 0, none, false⟩

def copy (b : StreamBody σ H Resp) (len : Nat) : Chunk len × StreamBody σ H Resp :=
  let n := min (b.pending.length - b.pos) len
  (⟨(b.pending.drop b.pos).take n, by simp [n]⟩, { b with pos := b.pos + n })

def finish (b : StreamBody σ H Resp) (status : Status) (len : Nat) :
    Chunk len × StreamBody σ H Resp :=
  (⟨[], Nat.zero_le len⟩, { b with finished := true, status := some status })

variable [AsyncStream σ (Except Status Resp)] [CodecCrates]

/-- `cut` is what the signal resolves to when this read polls it, if it does. -/
def pollRead (b : StreamBody σ H Resp) (cut : Option Status) (len : Nat) :
    Poll (Except String (Chunk len)) × StreamBody σ H Resp :=
  let answer := fun out : Chunk len × StreamBody σ H Resp => (Poll.ready (.ok out.1), out.2)
  if b.pos < b.pending.length then answer (b.copy len)
  else if b.finished then answer (⟨[], Nat.zero_le len⟩, b)
  else
    match if b.cancel then cut else none with
    | some status => answer (b.finish status len)
    | none =>
        match AsyncStream.pollNext b.stream with
        | (.pending, stream) => (.pending, { b with stream })
        | (.ready none, stream) => answer ({ b with stream }.finish (b.status.getD .ok) len)
        | (.ready (some (.error status)), stream) => answer ({ b with stream }.finish status len)
        | (.ready (some (.ok resp)), stream) =>
            match encodeFrame b.encode resp b.encoding with
            | .error status => answer ({ b with stream }.finish status len)
            -- a frame has its prefix at least, so the loop goes on by copying from it
            | .ok frame => answer ({ b with stream, pending := frame, pos := 0 }.copy len)

omit [AsyncStream σ (Except Status Resp)] [CodecCrates] in
/-- `trailers` merges the final status onto what the handler set. -/
def trailers [HeaderMap H] [Base64] (b : StreamBody σ H Resp) : H :=
  (b.status.getD .ok).writeInto b.baseTrailers

end StreamBody

/-! ## What a body hands out -/

variable [CodecCrates]

/-- The frames of a stream's items up to the first that has none, and the status that
the stream ends with. -/
def framed (encode : Resp → Except Status (List UInt8)) (encoding : Encoding) :
    List (Except Status Resp) → List UInt8 × Status
  | [] => ([], .ok)
  | .error status :: _ => ([], status)
  | .ok resp :: items =>
      match encodeFrame encode resp encoding with
      | .error status => ([], status)
      | .ok frame => (frame ++ (framed encode encoding items).1, (framed encode encoding items).2)

theorem framed_append {encode : Resp → Except Status (List UInt8)} {encoding : Encoding}
    {sent : List (Resp × List UInt8)}
    (hsent : ∀ x ∈ sent, encodeFrame encode x.1 encoding = .ok x.2)
    (items : List (Except Status Resp)) :
    framed encode encoding (sent.map (fun x => .ok x.1) ++ items) =
      (wire sent ++ (framed encode encoding items).1, (framed encode encoding items).2) := by
  induction sent with
  | nil => rfl
  | cons x sent ih =>
      rw [List.map_cons, List.cons_append, framed, hsent x List.mem_cons_self,
        ih (fun y hy => hsent y (List.mem_cons_of_mem _ hy))]
      simp

/-- A body that nothing cuts. -/
structure Uncut (σ H Resp : Type) where
  body : StreamBody σ H Resp

namespace Uncut

variable [ItemSource σ (Except Status Resp)]

def remaining (u : Uncut σ H Resp) : List UInt8 :=
  u.body.pending.drop u.body.pos ++
    if u.body.finished then []
    else (framed u.body.encode u.body.encoding (ItemSource.items u.body.stream)).1

def ending (u : Uncut σ H Resp) : Status :=
  if u.body.finished then u.body.status.getD .ok
  else (framed u.body.encode u.body.encoding (ItemSource.items u.body.stream)).2

def pollRead (u : Uncut σ H Resp) (len : Nat) :
    Poll (Except String (Chunk len)) × Uncut σ H Resp :=
  let (answer, body) := u.body.pollRead none len
  (answer, ⟨body⟩)

def Unset (u : Uncut σ H Resp) : Prop := u.body.finished = false → u.body.status = none

structure Kept (u u' : Uncut σ H Resp) : Prop where
  unset : u.Unset → u'.Unset
  ending : u.Unset → u'.ending = u.ending
  baseTrailers : u'.body.baseTrailers = u.body.baseTrailers

/-- What one read of a body does: it stalls with the stream, or hands out what is
first, and the end when there is nothing. -/
def ReadSpec {len : Nat} (u : Uncut σ H Resp) :
    Poll (Except String (Chunk len)) × Uncut σ H Resp → Prop
  | (.pending, u') => Kept u u' ∧ u'.remaining = u.remaining ∧
      ItemSource.delay u'.body.stream < ItemSource.delay u.body.stream
  | (.ready (.ok chunk), u') => Kept u u' ∧ u.remaining = chunk.1 ++ u'.remaining ∧
      (0 < len → chunk.1 = [] → u.remaining = [] ∧ u'.body.finished = true)
  | (.ready (.error _), _) => False

omit [ItemSource σ (Except Status Resp)] [CodecCrates] in
theorem copy_append (b : StreamBody σ H Resp) (len : Nat) :
    (b.copy len).1.1 ++ b.pending.drop (b.copy len).2.pos = b.pending.drop b.pos := by
  simp only [StreamBody.copy]
  rw [← List.drop_drop, List.take_append_drop]

omit [ItemSource σ (Except Status Resp)] [CodecCrates] in
theorem copy_ne_nil {b : StreamBody σ H Resp} {len : Nat} (hlen : 0 < len)
    (hpos : b.pos < b.pending.length) : (b.copy len).1.1 ≠ [] := by
  simp only [StreamBody.copy]
  intro hnil
  have hzero := congrArg List.length hnil
  simp only [List.length_take, List.length_drop, List.length_nil] at hzero
  omega

theorem readSpec_finish {b : StreamBody σ H Resp} {stream : σ} {status : Status} {len : Nat}
    (hdrop : b.pending.drop b.pos = []) (hfin : b.finished = false)
    (hbytes : (framed b.encode b.encoding (ItemSource.items b.stream)).1 = [])
    (hstatus : b.status = none →
      (framed b.encode b.encoding (ItemSource.items b.stream)).2 = status) :
    ReadSpec (⟨b⟩ : Uncut σ H Resp)
      (.ready (.ok ({ b with stream }.finish status len).1),
        ⟨({ b with stream }.finish status len).2⟩) := by
  have hrest : remaining (⟨b⟩ : Uncut σ H Resp) = [] := by
    simp [remaining, hdrop, hfin, hbytes]
  refine ⟨⟨fun _ hfalse => by simp [StreamBody.finish] at hfalse, fun hunset => ?_, rfl⟩, ?_,
    fun _ _ => ⟨hrest, rfl⟩⟩
  · simp [ending, StreamBody.finish, hfin, hstatus (hunset hfin)]
  · rw [hrest]
    simp [remaining, StreamBody.finish, hdrop]

/-- The first part of the frame of the next message. -/
theorem readSpec_copy {b : StreamBody σ H Resp} {stream : σ} {resp : Resp} {frame : List UInt8}
    {len : Nat} (hdrop : b.pending.drop b.pos = []) (hfin : b.finished = false)
    (hitems : ItemSource.items b.stream = .ok resp :: ItemSource.items stream)
    (hframe : encodeFrame b.encode resp b.encoding = .ok frame) :
    ReadSpec (⟨b⟩ : Uncut σ H Resp)
      (.ready (.ok ({ b with stream, pending := frame, pos := 0 }.copy len).1),
        ⟨({ b with stream, pending := frame, pos := 0 }.copy len).2⟩) := by
  have hpos : 0 < frame.length := by
    obtain ⟨flag, payload, rfl⟩ := encodeFrame_ok hframe
    rw [frame_length, prefixLen]
    omega
  have hcopy := copy_append { b with stream, pending := frame, pos := 0 } len
  refine ⟨⟨fun h => h, fun _ => ?_, rfl⟩, ?_,
    fun hlen hnil => absurd hnil (copy_ne_nil hlen hpos)⟩
  · simp [ending, StreamBody.copy, hfin, hitems, framed, hframe]
  · have hwhole : remaining (⟨b⟩ : Uncut σ H Resp) =
        frame ++ (framed b.encode b.encoding (ItemSource.items stream)).1 := by
      simp [remaining, hdrop, hfin, hitems, framed, hframe]
    rw [hwhole]
    simp only [List.drop_zero] at hcopy
    calc frame ++ (framed b.encode b.encoding (ItemSource.items stream)).1
        = _ ++ (framed b.encode b.encoding (ItemSource.items stream)).1 := by rw [← hcopy]
      _ = _ := by
          rw [List.append_assoc]
          simp [remaining, StreamBody.copy, hfin]

theorem pollRead_spec (u : Uncut σ H Resp) (len : Nat) : ReadSpec u (u.pollRead len) := by
  obtain ⟨b⟩ := u
  unfold pollRead StreamBody.pollRead
  dsimp only
  by_cases hpos : b.pos < b.pending.length
  · rw [if_pos hpos]
    refine ⟨⟨fun h => h, fun _ => rfl, rfl⟩, ?_,
      fun hlen hnil => absurd hnil (copy_ne_nil hlen hpos)⟩
    simp only [remaining]
    rw [← copy_append b len, List.append_assoc]
    rfl
  · rw [if_neg hpos]
    have hdrop : b.pending.drop b.pos = [] := List.drop_of_length_le (Nat.le_of_not_lt hpos)
    by_cases hfin : b.finished = true
    · rw [if_pos hfin]
      refine ⟨⟨fun h => h, fun _ => rfl, rfl⟩, rfl, fun _ _ => ⟨?_, hfin⟩⟩
      simp [remaining, hdrop, hfin]
    · rw [if_neg hfin, ite_self]
      have hfin : b.finished = false := by simpa using hfin
      cases hnext : AsyncStream.pollNext b.stream with
      | mk answer stream =>
          match answer with
          | .pending =>
              obtain ⟨hitems, hdelay⟩ := ItemSource.pending_spec hnext
              refine ⟨⟨fun h => h, fun _ => ?_, rfl⟩, ?_, hdelay⟩
              · simp only [ending, hitems]
              · simp only [remaining, hitems]
          | .ready none =>
              have hitems := ItemSource.end_spec hnext
              refine readSpec_finish hdrop hfin ?_ (fun hnone => ?_)
              · simp [hitems, framed]
              · simp [hitems, framed, hnone]
          | .ready (some (.error status)) =>
              have hitems := ItemSource.item_spec hnext
              refine readSpec_finish hdrop hfin ?_ (fun _ => ?_)
              · simp [hitems, framed]
              · simp [hitems, framed]
          | .ready (some (.ok resp)) =>
              have hitems := ItemSource.item_spec hnext
              dsimp only
              cases hframe : encodeFrame b.encode resp b.encoding with
              | error status =>
                  refine readSpec_finish hdrop hfin ?_ (fun _ => ?_)
                  · simp [hitems, framed, hframe]
                  · simp [hitems, framed, hframe]
              | ok frame => exact readSpec_copy hdrop hfin hitems hframe

instance : ByteSource (Uncut σ H Resp) where
  pollRead := Uncut.pollRead
  rest := remaining
  fault _ := none
  stall u := ItemSource.delay u.body.stream
  fault_pollRead _ _ := rfl
  pending_spec {u len u'} h := by
    have hspec := u.pollRead_spec len
    rw [h] at hspec
    exact hspec.2
  chunk_spec {u len chunk u'} hlen h := by
    have hspec := u.pollRead_spec len
    rw [h] at hspec
    exact ⟨hspec.2.1, fun hnil => ⟨(hspec.2.2 hlen hnil).1, rfl⟩⟩
  error_spec {u len e u'} h := by
    have hspec := u.pollRead_spec len
    rw [h] at hspec
    exact hspec.elim

/-- What stays the same while a body is read. -/
structure Same (baseTrailers : H) (status : Status) (u : Uncut σ H Resp) : Prop where
  unset : u.Unset
  ending_eq : u.ending = status
  base_eq : u.body.baseTrailers = baseTrailers

theorem Same.pollRead {baseTrailers : H} {status : Status} {u : Uncut σ H Resp} {len : Nat}
    (h : u.Same baseTrailers status) : (u.pollRead len).2.Same baseTrailers status := by
  have hkept : ∀ {u' : Uncut σ H Resp}, Kept u u' → u'.Same baseTrailers status := fun hk =>
    ⟨hk.unset h.unset, (hk.ending h.unset).trans h.ending_eq, hk.baseTrailers.trans h.base_eq⟩
  have hspec := u.pollRead_spec len
  cases hp : u.pollRead len with
  | mk answer u' =>
      rw [hp] at hspec
      match answer with
      | .pending => exact hkept hspec.1
      | .ready (.ok _) => exact hkept hspec.1
      | .ready (.error _) => exact hspec.elim

theorem drain_new [HeaderMap H] [Base64] (stream : σ) (encode : Resp → Except Status (List UInt8))
    (encoding : Encoding) (baseTrailers : H) (cancel : Bool) {lens : Nat → Nat}
    (hlens : ∀ k, 0 < lens k) (n : Nat) {last : Uncut σ H Resp}
    (h : (drain n lens (⟨.new stream encode encoding baseTrailers cancel⟩ : Uncut σ H Resp)).2 =
      some last) :
    (drain n lens (⟨.new stream encode encoding baseTrailers cancel⟩ : Uncut σ H Resp)).1 =
        (framed encode encoding (ItemSource.items stream)).1 ∧
      last.body.trailers =
        (framed encode encoding (ItemSource.items stream)).2.writeInto baseTrailers := by
  have hnew : Same baseTrailers (framed encode encoding (ItemSource.items stream)).2
      (⟨.new stream encode encoding baseTrailers cancel⟩ : Uncut σ H Resp) :=
    ⟨fun _ => rfl, rfl, rfl⟩
  refine ⟨drain_eq n hlens h, ?_⟩
  obtain ⟨u, len, hu, hlen, chunk, hnil, hp⟩ := drain_last (fun _ hr => hr.pollRead) n hlens hnew h
  have hspec := u.pollRead_spec len
  have hlast : (u.pollRead len).2.Same baseTrailers _ := hu.pollRead
  change u.pollRead len = _ at hp
  rw [hp] at hspec hlast
  have hend := hlast.ending_eq
  rw [ending, if_pos (hspec.2.2 hlen hnil).2] at hend
  rw [StreamBody.trailers, hend, hlast.base_eq]

end Uncut

end TrilliumGrpc
