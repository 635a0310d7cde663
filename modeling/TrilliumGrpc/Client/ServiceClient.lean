import TrilliumGrpc.Client.Deadline
import TrilliumGrpc.EndToEnd.Unary

/-! # Service clients

`src/client/service_client.rs`. A service client keeps its options in the default headers
of the connection client that it wraps, and every call it makes takes them from there.
-/

namespace TrilliumGrpc

open Async HeaderMap Time

variable {ρ ρ' ω H Req Resp : Type} [HeaderMap H]

/-- `set_outbound_compression`, on the client's default headers. -/
def setOutboundCompression [Removable H] (defaultHeaders : H) (encoding : Encoding) : H :=
  if encoding = .identity then Removable.remove defaultHeaders "grpc-encoding"
  else insert defaultHeaders "grpc-encoding" (.ofString encoding.asGrpcEncoding)

def outboundCompression [Features] (defaultHeaders : H) : Encoding :=
  ((getStr defaultHeaders "grpc-encoding").bind Encoding.fromGrpcEncoding).getD .identity

/-- One call of a setter, by reference or in a chain. -/
inductive ServiceOption where
  | outboundCompression (encoding : Encoding)
  | defaultTimeout (d : Duration)

def ServiceOption.set [Removable H] (defaultHeaders : H) : ServiceOption → H
  | outboundCompression encoding => setOutboundCompression defaultHeaders encoding
  | defaultTimeout d => setDefaultTimeout defaultHeaders d

def ServiceOption.Named [Features] : ServiceOption → Prop
  | outboundCompression encoding => encoding ∈ Encoding.all
  | defaultTimeout _ => True

/-! ## Settings -/

/-- What the options are for: two settings, of which the last is in force. -/
structure Settings where
  compression : Encoding
  timeout : Option Duration

namespace Settings

def set (s : Settings) : ServiceOption → Settings
  | .outboundCompression encoding => { s with compression := encoding }
  | .defaultTimeout d => { s with timeout := if d = .zero then none else some d }

def encodingValues (s : Settings) : List HeaderValue :=
  if s.compression = .identity then [] else [.ofString s.compression.asGrpcEncoding]

def timeoutValues (s : Settings) : List HeaderValue :=
  s.timeout.toList.map fun d => .ofString (formatGrpcTimeout d)

def timeoutNanos (s : Settings) : Option Nat :=
  s.timeout.map fun d => timeoutScale.round d.asNanos

end Settings

/-- The default headers hold these settings, and no others of the two. -/
structure Holds [Features] (defaultHeaders : H) (s : Settings) : Prop where
  named : s.compression ∈ Encoding.all
  encoding : values defaultHeaders "grpc-encoding" = s.encodingValues
  timeout : values defaultHeaders "grpc-timeout" = s.timeoutValues

section

variable [Features]

theorem Holds.fresh {defaultHeaders : H} (hencoding : values defaultHeaders "grpc-encoding" = [])
    (htimeout : values defaultHeaders "grpc-timeout" = []) :
    Holds defaultHeaders ⟨.identity, none⟩ := by
  refine ⟨?_, hencoding, htimeout⟩
  simp [Encoding.all]

theorem Holds.outboundCompression {defaultHeaders : H} {s : Settings}
    (h : Holds defaultHeaders s) : outboundCompression defaultHeaders = s.compression := by
  have hvalues := h.encoding
  rw [TrilliumGrpc.outboundCompression]
  rw [Settings.encodingValues] at hvalues
  split at hvalues
  · rename_i hidentity
    rw [getStr_of_nil hvalues, hidentity]
    rfl
  · rw [getStr_of_singleton hvalues, HeaderValue.asStr_ofString, Option.bind_some,
      Encoding.fromGrpcEncoding_asGrpcEncoding h.named]
    rfl

theorem Holds.defaultTimeout {defaultHeaders : H} {s : Settings} (h : Holds defaultHeaders s) :
    (defaultTimeout defaultHeaders).map Duration.asNanos = s.timeoutNanos := by
  have hvalues := h.timeout
  rw [TrilliumGrpc.defaultTimeout]
  rw [Settings.timeoutValues] at hvalues
  unfold Settings.timeoutNanos
  cases hd : s.timeout with
  | none =>
      simp only [hd, Option.toList_none, List.map_nil] at hvalues
      rw [getStr_of_nil hvalues, Option.bind_none, Option.map_none, Option.map_none]
  | some d =>
      simp only [hd, Option.toList_some, List.map_cons, List.map_nil] at hvalues
      obtain ⟨sent, hparse, hround⟩ := parse_format d
      rw [getStr_of_singleton hvalues, HeaderValue.asStr_ofString, Option.bind_some, hparse,
        Option.map_some, Option.map_some, hround]

end

section

variable [Removable H]

theorem ServiceOption.values_set (defaultHeaders : H) (option : ServiceOption) {name : String}
    (hencoding : ¬ SameName name "grpc-encoding") (htimeout : ¬ SameName name "grpc-timeout") :
    values (option.set defaultHeaders) name = values defaultHeaders name := by
  cases option with
  | outboundCompression encoding =>
      rw [set, setOutboundCompression]
      split
      · rw [Removable.values_remove, if_neg hencoding]
      · exact values_insert_other _ _ hencoding
  | defaultTimeout d =>
      rw [set, setDefaultTimeout]
      split
      · rw [Removable.values_remove, if_neg htimeout]
      · exact values_insert_other _ _ htimeout

theorem Holds.set [Features] {defaultHeaders : H} {s : Settings} (h : Holds defaultHeaders s)
    {option : ServiceOption} (hnamed : option.Named) :
    Holds (option.set defaultHeaders) (s.set option) := by
  have hother : ¬ SameName "grpc-timeout" "grpc-encoding" := by decide
  have hother' : ¬ SameName "grpc-encoding" "grpc-timeout" := by decide
  cases option with
  | outboundCompression encoding =>
      refine ⟨hnamed, ?_, ?_⟩
      · change values (setOutboundCompression defaultHeaders encoding) "grpc-encoding" =
          if encoding = .identity then [] else [.ofString encoding.asGrpcEncoding]
        rw [setOutboundCompression]
        split
        · rw [Removable.values_remove, if_pos (SameName.refl _)]
        · exact values_insert_self _ _ _
      · simp only [ServiceOption.set, setOutboundCompression]
        split
        · rw [Removable.values_remove, if_neg hother]
          exact h.timeout
        · rw [values_insert_other _ _ hother]
          exact h.timeout
  | defaultTimeout d =>
      refine ⟨h.named, ?_, ?_⟩
      · simp only [ServiceOption.set, setDefaultTimeout]
        split
        · rw [Removable.values_remove, if_neg hother']
          exact h.encoding
        · rw [values_insert_other _ _ hother']
          exact h.encoding
      · by_cases hzero : d = .zero
        · simp only [ServiceOption.set, setDefaultTimeout, Settings.set, if_pos hzero]
          rw [Removable.values_remove, if_pos (SameName.refl _)]
          rfl
        · simp only [ServiceOption.set, setDefaultTimeout, Settings.set, if_neg hzero]
          exact values_insert_self _ _ _

theorem Holds.run [Features] {defaultHeaders : H} {s : Settings} (h : Holds defaultHeaders s)
    {options : List ServiceOption} (hnamed : ∀ option ∈ options, option.Named) :
    Holds (options.foldl ServiceOption.set defaultHeaders) (options.foldl Settings.set s) := by
  induction options generalizing defaultHeaders s with
  | nil => exact h
  | cons option options ih =>
      exact ih (h.set (hnamed option List.mem_cons_self))
        fun later hlater => hnamed later (List.mem_cons_of_mem _ hlater)

theorem ServiceOption.values_run (defaultHeaders : H) (options : List ServiceOption)
    {name : String} (hencoding : ¬ SameName name "grpc-encoding")
    (htimeout : ¬ SameName name "grpc-timeout") :
    values (options.foldl ServiceOption.set defaultHeaders) name = values defaultHeaders name := by
  induction options generalizing defaultHeaders with
  | nil => rfl
  | cons option options ih =>
      rw [List.foldl_cons, ih, option.values_set _ hencoding htimeout]

end

end TrilliumGrpc
