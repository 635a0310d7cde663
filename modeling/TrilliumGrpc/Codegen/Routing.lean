import TrilliumGrpc.Codegen.ProtoNames
import TrilliumGrpc.Data.Time

/-! # Routing between generated code

The path that a generated client of `src/codegen/src/lib.rs` puts together for a
method, and the `Handler` of a generated server that takes it apart. The URL type
is a parameter.
-/

namespace TrilliumGrpc.Codegen

open Time

/-- What the calls of the `url` crate do to a path: a word of letters, digits, `_` and
`.` is no dot segment and is not escaped, and a relative reference of this kind
replaces what is behind the last slash. -/
class UrlPaths where
  /-- `Url::set_path`, and `Url::path` after it. -/
  setPath : String → String
  /-- The path of a relative reference that is resolved against a path. -/
  join : String → String → String
  setPath_word : ∀ {s}, isWord isDottedChar s = true →
    setPath ("/" ++ s ++ "/") = "/" ++ s ++ "/"
  join_word : ∀ {base s}, base.toList.getLast? = some '/' → isWord isDottedChar s = true →
    join base s = base ++ s

/-! ## The client -/

/-- `str::trim_end_matches('/')`. -/
def trimEndSlashes (s : String) : String := String.ofList (s.toList.rdropWhile (fun c => c = '/'))

/-- The path of the base URL, if there is one, as the service's client has it. -/
def withServicePrefix [UrlPaths] (base : Option String) (path : String) : MayPanic String :=
  match base with
  | none => .error ⟨"trillium_client::Client must have a base url set"⟩
  | some base => .ok (UrlPaths.setPath (trimEndSlashes base ++ "/" ++ path ++ "/"))

def requestPath [UrlPaths] (base : Option String) (service : Service) (m : Method) :
    MayPanic String :=
  (withServicePrefix base (servicePath service)).map (fun base => UrlPaths.join base m.protoName)

/-! ## The server -/

inductive HttpMethod where
  | post
  | other (name : String)
deriving DecidableEq, Repr

/-- The variant of the dispatch enum for the rest of a path. -/
def dispatchVariant (service : Service) (method : List Char) : Option String :=
  (service.methods.map Method.protoName).find? (fun v => ("/" ++ v).toList = method)

/-- The arm of `run` that takes a variant. -/
def runArm (service : Service) (dispatch : String) : Option Method :=
  service.methods.find? (fun m => m.protoName = dispatch)

/-- `run` up to its last `match`: the method it goes on with, or none if it hands the
conn back. -/
def run (service : Service) (method : HttpMethod) (path : String) : Option Method :=
  match path.toList.dropPrefix? ("/" ++ servicePath service).toList with
  | none => none
  | some rest =>
      if method ≠ .post then none
      else
        match dispatchVariant service rest with
        | none => none
        | some dispatch => runArm service dispatch

/-! ## Legal services -/

/-- What a schema promises of one service. -/
structure Service.Legal (service : Service) : Prop where
  package : IsPackage service.package
  name : isIdentifier service.protoName = true
  methods : ∀ m ∈ service.methods, isIdentifier m.protoName = true
  distinct : (service.methods.map Method.protoName).Nodup

theorem slash_not_mem {s : String} (h : isWord isDottedChar s = true) : '/' ∉ s.toList := by
  intro hslash
  exact absurd (mem_dottedWord h '/' hslash) (by decide)

theorem requestPath_eq [UrlPaths] {service : Service} (hlegal : service.Legal) {m : Method}
    (hm : m ∈ service.methods) {base : String} (hbase : ∀ c ∈ base.toList, c = '/') :
    requestPath (some base) service m =
      .ok ("/" ++ servicePath service ++ "/" ++ m.protoName) := by
  have hword := isWord_servicePath hlegal.package hlegal.name
  have htrim : trimEndSlashes base = "" := by
    have hnil : base.toList.rdropWhile (fun c => c = '/') = [] := by
      rw [List.rdropWhile_eq_nil_iff]
      simpa using hbase
    rw [trimEndSlashes, hnil, String.ofList_nil]
  have hset : UrlPaths.setPath (trimEndSlashes base ++ "/" ++ servicePath service ++ "/") =
      "/" ++ servicePath service ++ "/" := by
    rw [htrim, String.empty_append, UrlPaths.setPath_word hword]
  have hlast : ("/" ++ servicePath service ++ "/").toList.getLast? = some '/' := by
    rw [String.toList_append]
    exact List.getLast?_concat
  rw [requestPath, withServicePrefix, Except.map, hset,
    UrlPaths.join_word hlast (isDotted_identifier (hlegal.methods m hm))]

theorem append_slash_inj {a a' b b' : List Char} (ha : '/' ∉ a) (ha' : '/' ∉ a')
    (h : a ++ '/' :: b = a' ++ '/' :: b') : a = a' ∧ b = b' := by
  induction a generalizing a' with
  | nil =>
      cases a' with
      | nil => exact ⟨rfl, (List.cons.inj h).2⟩
      | cons c' a' => exact absurd (List.mem_cons.mpr (.inl (List.cons.inj h).1)) ha'
  | cons c a ih =>
      cases a' with
      | nil => exact absurd (List.mem_cons.mpr (.inl (List.cons.inj h).1.symm)) ha
      | cons c' a' =>
          obtain ⟨hhead, htail⟩ := List.cons.inj h
          have hrest := ih (fun hmem => ha (List.mem_cons_of_mem c hmem))
            (fun hmem => ha' (List.mem_cons_of_mem c' hmem)) htail
          exact ⟨by rw [hhead, hrest.1], hrest.2⟩

theorem strip_servicePath {service other : Service} (hservice : service.Legal)
    (hother : other.Legal) {m m' : Method}
    (h : ("/" ++ servicePath service ++ "/" ++ m.protoName).toList.dropPrefix?
      ("/" ++ servicePath other).toList = some ("/" ++ m'.protoName).toList) :
    servicePath other = servicePath service ∧ m'.protoName = m.protoName := by
  obtain ⟨front, hsplit, hfront⟩ := List.dropPrefix?_eq_some_iff.mp h
  rw [eq_of_beq hfront] at hsplit
  have hparts : (servicePath service).toList ++ '/' :: m.protoName.toList =
      (servicePath other).toList ++ '/' :: m'.protoName.toList := by
    simpa using hsplit
  obtain ⟨hpath, hname⟩ := append_slash_inj
    (slash_not_mem (isWord_servicePath hservice.package hservice.name))
    (slash_not_mem (isWord_servicePath hother.package hother.name)) hparts
  exact ⟨(String.toList_inj.mp hpath).symm, (String.toList_inj.mp hname).symm⟩

theorem dispatchVariant_eq {service : Service} {m : Method} (hm : m ∈ service.methods) :
    dispatchVariant service ("/" ++ m.protoName).toList = some m.protoName := by
  have hsome : (dispatchVariant service ("/" ++ m.protoName).toList).isSome := by
    rw [dispatchVariant, List.find?_isSome]
    exact ⟨m.protoName, List.mem_map_of_mem hm, by simp⟩
  obtain ⟨v, hv⟩ := Option.isSome_iff_exists.mp hsome
  have hmatch := List.find?_some hv
  have heq : v = m.protoName := by
    have hchars : ("/" ++ v).toList = ("/" ++ m.protoName).toList := of_decide_eq_true hmatch
    simpa [String.toList_inj] using hchars
  rw [hv, heq]

theorem runArm_eq {service : Service} (hlegal : service.Legal) {m : Method}
    (hm : m ∈ service.methods) : runArm service m.protoName = some m := by
  have hsome : (runArm service m.protoName).isSome := by
    rw [runArm, List.find?_isSome]
    exact ⟨m, hm, by simp⟩
  obtain ⟨m', hm'⟩ := Option.isSome_iff_exists.mp hsome
  have hmatch := List.find?_some hm'
  have hname : m'.protoName = m.protoName := of_decide_eq_true hmatch
  rw [hm', List.inj_on_of_nodup_map hlegal.distinct (List.mem_of_find?_eq_some hm') hm hname]

theorem rest_of_run {service : Service} {path : String} {m : Method}
    (h : run service .post path = some m) : ∃ m' ∈ service.methods,
      path.toList.dropPrefix? ("/" ++ servicePath service).toList =
        some ("/" ++ m'.protoName).toList := by
  unfold run at h
  split at h
  · cases h
  · rename_i rest hrest
    rw [if_neg (by simp)] at h
    split at h
    · cases h
    · rename_i dispatch hdispatch
      obtain ⟨m', hmem, hname⟩ := List.mem_map.mp (List.mem_of_find?_eq_some hdispatch)
      have hmatch := List.find?_some hdispatch
      have hchars : ("/" ++ dispatch).toList = rest := of_decide_eq_true hmatch
      exact ⟨m', hmem, by rw [hrest, hname, hchars]⟩

theorem run_own {service : Service} (hlegal : service.Legal) {m : Method}
    (hm : m ∈ service.methods) :
    run service .post ("/" ++ servicePath service ++ "/" ++ m.protoName) = some m := by
  have hstrip : ("/" ++ servicePath service ++ "/" ++ m.protoName).toList.dropPrefix?
      ("/" ++ servicePath service).toList = some ("/" ++ m.protoName).toList := by
    rw [String.append_assoc, String.toList_append]
    exact List.dropPrefix?_append_of_beq _ (beq_self_eq_true _)
  simp only [run, hstrip, ne_eq, not_true_eq_false, if_false, dispatchVariant_eq hm]
  exact runArm_eq hlegal hm

/-- A call reaches its own method at its own server, and is handed back by every other. -/
theorem call_routed [UrlPaths] {services : List Service} (hlegal : ∀ s ∈ services, s.Legal)
    (hnames : (services.map servicePath).Nodup) {base : String}
    (hbase : ∀ c ∈ base.toList, c = '/') {service : Service} (hservice : service ∈ services)
    {m : Method} (hm : m ∈ service.methods) :
    ∃ path, requestPath (some base) service m = .ok path ∧ run service .post path = some m ∧
      ∀ other ∈ services, other ≠ service → run other .post path = none := by
  refine ⟨_, requestPath_eq (hlegal service hservice) hm hbase,
    run_own (hlegal service hservice) hm, ?_⟩
  intro other hother hne
  cases hrun : run other .post ("/" ++ servicePath service ++ "/" ++ m.protoName) with
  | none => rfl
  | some reached =>
      obtain ⟨m', _, hstrip⟩ := rest_of_run hrun
      have hpath := (strip_servicePath (hlegal service hservice) (hlegal other hother) hstrip).1
      exact absurd (List.inj_on_of_nodup_map hnames hother hservice hpath) hne

/-- A path is kept as it is, and a name goes behind its last slash. -/
@[reducible] def plainUrls : UrlPaths where
  setPath path := path
  join base name := String.ofList (base.toList.rdropWhile (fun c => c ≠ '/')) ++ name
  setPath_word _ := rfl
  join_word {base s} hlast _ := by
    obtain ⟨front, hfront⟩ : ∃ front, base.toList = front ++ ['/'] := by
      rw [List.getLast?_eq_some_iff] at hlast
      exact hlast
    have hkept : base.toList.rdropWhile (fun c => c ≠ '/') = base.toList := by
      rw [hfront, List.rdropWhile_concat_neg _ _ _ (by simp)]
    rw [hkept, String.ofList_toList]

def plainService (package name : String) (methods : List String) : Service :=
  ⟨name, name, package, methods.map (fun m => ⟨m, m, "Request", "Reply", false, false⟩)⟩

theorem plainService_legal {package name : String} {methods : List String}
    (hpackage : IsPackage package) (hname : isIdentifier name = true)
    (hmethods : ∀ m ∈ methods, isIdentifier m = true) (hdistinct : methods.Nodup) :
    (plainService package name methods).Legal where
  package := hpackage
  name := hname
  methods m hm := by
    obtain ⟨method, hmem, rfl⟩ := List.mem_map.mp hm
    exact hmethods method hmem
  distinct := by
    have hnames : (plainService package name methods).methods.map Method.protoName = methods := by
      simp [plainService, Function.comp_def]
    rw [hnames]
    exact hdistinct

/-- Two services, and two methods, of which one begins with the name of the other. -/
theorem call_routed_of_nested_names :
    letI := plainUrls
    ∃ path, requestPath (some "//") (plainService "a" "Foo" ["Get", "GetAll"])
        ⟨"Get", "Get", "Request", "Reply", false, false⟩ = .ok path ∧
      run (plainService "a" "Foo" ["Get", "GetAll"]) .post path =
        some ⟨"Get", "Get", "Request", "Reply", false, false⟩ ∧
      ∀ other ∈ [plainService "a" "Foo" ["Get", "GetAll"], plainService "a" "FooBar" ["Get"]],
        other ≠ plainService "a" "Foo" ["Get", "GetAll"] → run other .post path = none := by
  let _ := plainUrls
  have hpackage : IsPackage "a" := ⟨["a"], by decide, by decide⟩
  have hlegal : ∀ s ∈ [plainService "a" "Foo" ["Get", "GetAll"], plainService "a" "FooBar" ["Get"]],
      s.Legal := by
    intro s hs
    rcases List.mem_cons.mp hs with rfl | hs
    · exact plainService_legal hpackage (by decide) (by decide) (by decide)
    · rw [List.mem_singleton.mp hs]
      exact plainService_legal hpackage (by decide) (by decide) (by decide)
  exact call_routed hlegal (by decide) (by simp) (by decide) (by decide)

end TrilliumGrpc.Codegen
