import TrilliumGrpc.Codegen.Render

/-! # The service generator

`TrilliumServiceGenerator` of `src/codegen/src/lib.rs` and the calls that prost-build
makes to it. What the `use` block of a package imports is accumulated in the generator,
which all packages share and every finalised package resets.
-/

namespace TrilliumGrpc.Codegen

/-! ## Imports -/

/-- Which names the generated code references. -/
structure Needs where
  streamClient : Bool
  streamServer : Bool
  grpcConn : Bool
  bidi : Bool
  unaryConn : Bool
  streamingConn : Bool
  bidiConn : Bool
deriving DecidableEq, Repr

def Needs.none : Needs := ⟨false, false, false, false, false, false, false⟩

def Needs.addMethod (needs : Needs) (m : Method) : Needs :=
  let needs :=
    match m.clientStreaming, m.serverStreaming with
    | false, false => { needs with unaryConn := true }
    | true, false => { needs with unaryConn := true, streamClient := true }
    | false, true => { needs with streamingConn := true, streamServer := true }
    | true, true => { needs with bidi := true, bidiConn := true }
  { needs with grpcConn := true }

/-- The block in front of a module: the handler types and `Arc` if there is a server
side, and the items of this crate. -/
structure UseBlock where
  trillium : Option (List Item)
  grpc : List Item
deriving DecidableEq, Repr

/-- `dedup`: of equal neighbours the first stays. -/
def dedup : List Item → List Item
  | [] => []
  | [i] => [i]
  | i :: j :: is => if i = j then dedup (j :: is) else i :: dedup (j :: is)

def renderImports (needs : Needs) (client server : Bool) : UseBlock :=
  let grpcItems :=
    [Item.prostCrate] ++ (if client || server then [Item.prost] else []) ++
      (if server then
        [Item.server, Item.status, Item.prepareGrpcConn] ++
          (if needs.grpcConn then [Item.grpcServerConn] else []) ++
          (if needs.bidi then [Item.bidiResponder] else []) ++
          (if needs.streamServer then [Item.stream] else [])
      else []) ++
      (if client then
        [Item.serviceClient, Item.client] ++
          (if needs.unaryConn then [Item.unaryConn] else []) ++
          (if needs.streamingConn then [Item.streamingConn] else []) ++
          (if needs.bidiConn then [Item.bidiConn] else []) ++
          (if needs.streamClient then [Item.stream] else [])
      else [])
  { trillium :=
      if server then
        some ([.conn, .handler, .method] ++ (if needs.bidi then [.upgrade] else []))
      else none
    grpc := dedup (grpcItems.insertionSort (fun i j => i.path ≤ j.path)) }

namespace UseBlock

def items (block : UseBlock) : List Item :=
  (match block.trillium with
  | some items => .arc :: items
  | none => []) ++ block.grpc

end UseBlock

theorem mem_dedup (i : Item) (items : List Item) : i ∈ dedup items ↔ i ∈ items := by
  fun_induction dedup items with
  | case1 => rfl
  | case2 j => rfl
  | case3 j is ih => simp [ih]
  | case4 j k is hne ih => simp [ih]

def Base (client server : Bool) : Item → Prop
  | .prostCrate => True
  | .prost => client ∨ server
  | .server => server
  | .status => server
  | i => Always client server i

def Needs.Imports (needs : Needs) (client server : Bool) : Item → Prop
  | .upgrade => server ∧ needs.bidi
  | .grpcServerConn => server ∧ needs.grpcConn
  | .bidiResponder => server ∧ needs.bidi
  | .stream => (client ∧ needs.streamClient) ∨ (server ∧ needs.streamServer)
  | .unaryConn => client ∧ needs.unaryConn
  | .streamingConn => client ∧ needs.streamingConn
  | .bidiConn => client ∧ needs.bidiConn
  | i => Base client server i

theorem mem_renderImports (needs : Needs) (client server : Bool) (i : Item) :
    i ∈ (renderImports needs client server).items ↔ needs.Imports client server i := by
  simp only [UseBlock.items, renderImports, List.mem_append, mem_dedup, List.mem_insertionSort,
    List.mem_ite_nil_right, List.mem_cons, List.not_mem_nil, or_false]
  cases server with
  | false => cases i <;> simp [Needs.Imports, Base, Always]
  | true => cases i <;> simp [Needs.Imports, Base, Always, or_comm]

theorem imports_none (client server : Bool) (i : Item) :
    Needs.none.Imports client server i ↔ Base client server i := by
  cases i <;> simp [Needs.Imports, Needs.none, Base, Always]

theorem addMethod_eq (needs : Needs) (m : Method) : needs.addMethod m =
    { streamClient := needs.streamClient || m.isClientStreaming
      streamServer := needs.streamServer || m.isServerStreaming
      grpcConn := true
      bidi := needs.bidi || m.isBidi
      unaryConn := needs.unaryConn || !m.serverStreaming
      streamingConn := needs.streamingConn || m.isServerStreaming
      bidiConn := needs.bidiConn || m.isBidi } := by
  obtain ⟨_, _, _, _, cs, ss⟩ := m
  cases cs <;> cases ss <;>
    simp [Needs.addMethod, Method.isBidi, Method.isClientStreaming, Method.isServerStreaming]

theorem imports_addMethod (needs : Needs) (m : Method) (client server : Bool) (i : Item) :
    (needs.addMethod m).Imports client server i ↔
      needs.Imports client server i ∨ m.Mentions client server i := by
  rw [addMethod_eq]
  cases i <;> simp [Needs.Imports, Base, Always, Method.Mentions, and_or_left]
  case grpcServerConn =>
    intro hserver _
    exact hserver
  case stream => exact or_or_or_comm

theorem imports_foldl (methods : List Method) (needs : Needs) (client server : Bool) (i : Item) :
    (methods.foldl Needs.addMethod needs).Imports client server i ↔
      needs.Imports client server i ∨ ∃ m ∈ methods, m.Mentions client server i := by
  induction methods generalizing needs with
  | nil => simp
  | cons m methods ih =>
      rw [List.foldl_cons, ih, imports_addMethod, or_assoc]
      simp

/-! ## The generator's calls -/

/-- What a module holds, in front-to-back order. -/
inductive Piece where
  | use (block : UseBlock)
  | code (tokens : List Token)
deriving DecidableEq, Repr

structure Generator where
  client : Bool
  server : Bool
  servicesInPackage : Nat
  needs : Needs
deriving DecidableEq, Repr

namespace Generator

def new (client server : Bool) : Generator := ⟨client, server, 0, .none⟩

def generate (g : Generator) (service : Service) (buf : List Piece) : Generator × List Piece :=
  ({ g with
      servicesInPackage := g.servicesInPackage + 1
      needs := service.methods.foldl Needs.addMethod g.needs },
    buf ++ [.code (renderService g.client g.server service)])

def finalizePackage (g : Generator) (buf : List Piece) : Generator × List Piece :=
  ({ g with servicesInPackage := 0, needs := .none },
    if g.servicesInPackage > 0 then .use (renderImports g.needs g.client g.server) :: buf else buf)

end Generator

inductive Callback where
  | generate (service : Service)
  | finalizePackage (package : String)
deriving DecidableEq, Repr

/-- The generator and the module of each package. -/
structure Output where
  generator : Generator
  modules : String → List Piece

namespace Output

def step (o : Output) : Callback → Output
  | .generate service =>
      let (generator, buf) := o.generator.generate service (o.modules service.package)
      ⟨generator, Function.update o.modules service.package buf⟩
  | .finalizePackage package =>
      let (generator, buf) := o.generator.finalizePackage (o.modules package)
      ⟨generator, Function.update o.modules package buf⟩

def run (client server : Bool) (calls : List Callback) : Output :=
  calls.foldl step ⟨.new client server, fun _ => []⟩

end Output

/-! ## What a run accumulates -/

def sinceFinalize (calls : List Callback) : List Service :=
  calls.foldl (fun services call =>
    match call with
    | .generate service => services ++ [service]
    | .finalizePackage _ => []) []

def methodsOf (services : List Service) : List Method := services.flatMap Service.methods

def servicesOf (package : String) (calls : List Callback) : List Service :=
  calls.filterMap (fun call =>
    match call with
    | .generate service => if service.package = package then some service else none
    | .finalizePackage _ => none)

/-- A module that is not finalised yet holds the code of its services. -/
structure Accumulated (client server : Bool) (calls : List Callback) (o : Output) : Prop where
  client_eq : o.generator.client = client
  server_eq : o.generator.server = server
  count : o.generator.servicesInPackage = (sinceFinalize calls).length
  needs : o.generator.needs = (methodsOf (sinceFinalize calls)).foldl Needs.addMethod .none
  modules : ∀ package, .finalizePackage package ∉ calls → o.modules package =
    (servicesOf package calls).map (fun service => .code (renderService client server service))

theorem Accumulated.generate {client server : Bool} {calls : List Callback} {o : Output}
    (h : Accumulated client server calls o) (service : Service) :
    Accumulated client server (calls ++ [.generate service]) (o.step (.generate service)) := by
  have hsince : sinceFinalize (calls ++ [.generate service]) =
      sinceFinalize calls ++ [service] := by
    simp [sinceFinalize, List.foldl_append]
  refine ⟨h.client_eq, h.server_eq, ?_, ?_, fun package hnot => ?_⟩
  · rw [hsince, List.length_append, ← h.count]
    rfl
  · rw [hsince, methodsOf, List.flatMap_append, List.foldl_append, ← methodsOf, ← h.needs]
    simp [Output.step, Generator.generate]
  · have hprev := h.modules package (fun hmem => hnot (List.mem_append_left _ hmem))
    rw [servicesOf, List.filterMap_append, List.map_append, ← servicesOf, ← hprev]
    by_cases hp : service.package = package
    · subst hp
      simp [Output.step, Generator.generate, h.client_eq, h.server_eq]
    · simp [Output.step, Generator.generate, hp, Function.update_of_ne (Ne.symm hp)]

theorem Accumulated.finalizePackage {client server : Bool} {calls : List Callback} {o : Output}
    (h : Accumulated client server calls o) (p : String) :
    Accumulated client server (calls ++ [.finalizePackage p]) (o.step (.finalizePackage p)) := by
  have hsince : sinceFinalize (calls ++ [.finalizePackage p]) = [] := by
    simp [sinceFinalize, List.foldl_append]
  refine ⟨h.client_eq, h.server_eq, ?_, ?_, fun package hnot => ?_⟩
  · rw [hsince]
    rfl
  · rw [hsince]
    rfl
  · have hprev := h.modules package (fun hmem => hnot (List.mem_append_left _ hmem))
    have hp : package ≠ p := by
      rintro rfl
      exact hnot (by simp)
    rw [servicesOf, List.filterMap_append, List.map_append, ← servicesOf, ← hprev]
    simp [Output.step, Generator.finalizePackage, Function.update_of_ne hp]

theorem run_accumulated (client server : Bool) (calls : List Callback) :
    Accumulated client server calls (Output.run client server calls) := by
  induction calls using List.reverseRecOn with
  | nil => exact ⟨rfl, rfl, rfl, rfl, fun _ _ => rfl⟩
  | append_singleton calls call ih =>
      rw [Output.run, List.foldl_append]
      cases call with
      | generate service => exact ih.generate service
      | finalizePackage p => exact ih.finalizePackage p

/-- A package that is not called for any more keeps its module. -/
theorem foldl_step_modules (calls : List Callback) (o : Output) {package : String}
    (hfinal : .finalizePackage package ∉ calls) (hservices : servicesOf package calls = []) :
    (calls.foldl Output.step o).modules package = o.modules package := by
  induction calls generalizing o with
  | nil => rfl
  | cons call calls ih =>
      obtain ⟨hne, hfinal⟩ := not_or.mp (fun h => hfinal (List.mem_cons.mpr h))
      have hrest : servicesOf package calls = [] := by
        rw [servicesOf, List.filterMap_cons] at hservices
        split at hservices
        · exact hservices
        · simp at hservices
      rw [List.foldl_cons, ih _ hfinal hrest]
      cases call with
      | generate service =>
          have hp : package ≠ service.package := by
            rintro rfl
            simp [servicesOf] at hservices
          simp [Output.step, Function.update_of_ne hp]
      | finalizePackage p =>
          have hp : package ≠ p := fun heq => hne (by rw [heq])
          simp [Output.step, Function.update_of_ne hp]

/-! ## The imports of every package -/

/-- As prost-build calls: each package with a service is finalised once, and after all
of its services. -/
def Ordered (calls : List Callback) : Prop :=
  ∀ service, .generate service ∈ calls → ∃ pre post,
    calls = pre ++ .finalizePackage service.package :: post ∧
      .finalizePackage service.package ∉ pre ∧ .finalizePackage service.package ∉ post ∧
      servicesOf service.package post = []

/-- The module has a `use` block with every name that its own code mentions. -/
def Imported (pieces : List Piece) : Prop :=
  ∃ block, .use block ∈ pieces ∧ ∀ tokens, .code tokens ∈ pieces →
    ∀ i, .item i ∈ tokens → i ∈ block.items

def Method.UsesStream (client server : Bool) (m : Method) : Prop :=
  (client ∧ m.isClientStreaming) ∨ (server ∧ m.isServerStreaming)

/-- For every kind of method that matters to the emitted sides: if `own` has one, so
has `window`. -/
structure Covers (client server : Bool) (window own : List Method) : Prop where
  any : server → own ≠ [] → window ≠ []
  single : client → (∃ m ∈ own, m.serverStreaming = false) →
    ∃ w ∈ window, w.serverStreaming = false
  streaming : client → (∃ m ∈ own, m.isServerStreaming) → ∃ w ∈ window, w.isServerStreaming
  bidi : client ∨ server → (∃ m ∈ own, m.isBidi) → ∃ w ∈ window, w.isBidi
  stream : (∃ m ∈ own, m.UsesStream client server) → ∃ w ∈ window, w.UsesStream client server

theorem Covers.mentions {client server : Bool} {window own : List Method}
    (h : Covers client server window own) {m : Method} (hm : m ∈ own) (i : Item)
    (hi : m.Mentions client server i) :
    Base client server i ∨ ∃ w ∈ window, w.Mentions client server i := by
  cases i with
  | status => exact .inl hi
  | prost => exact .inl hi
  | grpcServerConn =>
      obtain ⟨w, hw⟩ := List.exists_mem_of_ne_nil window (h.any hi (List.ne_nil_of_mem hm))
      exact .inr ⟨w, hw, hi⟩
  | stream => exact .inr (h.stream ⟨m, hm, hi⟩)
  | bidiResponder =>
      obtain ⟨w, hw, hbidi⟩ := h.bidi (.inr hi.1) ⟨m, hm, hi.2⟩
      exact .inr ⟨w, hw, hi.1, hbidi⟩
  | upgrade =>
      obtain ⟨w, hw, hbidi⟩ := h.bidi (.inr hi.1) ⟨m, hm, hi.2⟩
      exact .inr ⟨w, hw, hi.1, hbidi⟩
  | unaryConn =>
      obtain ⟨w, hw, hsingle⟩ := h.single hi.1 ⟨m, hm, hi.2⟩
      exact .inr ⟨w, hw, hi.1, hsingle⟩
  | streamingConn =>
      obtain ⟨w, hw, hstreaming⟩ := h.streaming hi.1 ⟨m, hm, hi.2⟩
      exact .inr ⟨w, hw, hi.1, hstreaming⟩
  | bidiConn =>
      obtain ⟨w, hw, hbidi⟩ := h.bidi (.inl hi.1) ⟨m, hm, hi.2⟩
      exact .inr ⟨w, hw, hi.1, hbidi⟩
  | _ => exact hi.elim

/-- The kinds of methods covered are the names covered. -/
theorem covers_iff (client server : Bool) (window own : List Method) :
    Covers client server window own ↔ ∀ m ∈ own, ∀ i, m.Mentions client server i →
      Base client server i ∨ ∃ w ∈ window, w.Mentions client server i := by
  refine ⟨fun h m hm i => h.mentions hm i, fun h => ⟨?_, ?_, ?_, ?_, ?_⟩⟩
  · intro hserver hown
    obtain ⟨m, hm⟩ := List.exists_mem_of_ne_nil own hown
    rcases h m hm .grpcServerConn hserver with hbase | ⟨w, hw, _⟩
    · exact hbase.elim
    · exact List.ne_nil_of_mem hw
  · rintro hclient ⟨m, hm, hsingle⟩
    rcases h m hm .unaryConn ⟨hclient, hsingle⟩ with hbase | ⟨w, hw, hmentions⟩
    · exact hbase.elim
    · exact ⟨w, hw, hmentions.2⟩
  · rintro hclient ⟨m, hm, hstreaming⟩
    rcases h m hm .streamingConn ⟨hclient, hstreaming⟩ with hbase | ⟨w, hw, hmentions⟩
    · exact hbase.elim
    · exact ⟨w, hw, hmentions.2⟩
  · rintro (hclient | hserver) ⟨m, hm, hbidi⟩
    · rcases h m hm .bidiConn ⟨hclient, hbidi⟩ with hbase | ⟨w, hw, hmentions⟩
      · exact hbase.elim
      · exact ⟨w, hw, hmentions.2⟩
    · rcases h m hm .bidiResponder ⟨hserver, hbidi⟩ with hbase | ⟨w, hw, hmentions⟩
      · exact hbase.elim
      · exact ⟨w, hw, hmentions.2⟩
  · rintro ⟨m, hm, hstream⟩
    rcases h m hm .stream hstream with hbase | ⟨w, hw, hmentions⟩
    · exact hbase.elim
    · exact ⟨w, hw, hmentions⟩

theorem always_base {client server : Bool} {i : Item} (h : Always client server i) :
    Base client server i := by
  cases i <;> first | exact h | exact h.elim

theorem module_finalized (client server : Bool) {pre post : List Callback} {package : String}
    (hpre : .finalizePackage package ∉ pre) (hpost : .finalizePackage package ∉ post)
    (hlast : servicesOf package post = []) :
    (Output.run client server (pre ++ .finalizePackage package :: post)).modules package =
      (if sinceFinalize pre = [] then []
        else [.use (renderImports ((methodsOf (sinceFinalize pre)).foldl Needs.addMethod .none)
          client server)]) ++
      (servicesOf package pre).map (fun service => .code (renderService client server service)) := by
  obtain ⟨hclient, hserver, hcount, hneeds, hmodules⟩ := run_accumulated client server pre
  rw [Output.run, List.foldl_append, List.foldl_cons, foldl_step_modules post _ hpost hlast]
  rw [← Output.run, Output.step, Generator.finalizePackage]
  simp only [Function.update_self, hclient, hserver, hcount, hneeds, hmodules package hpre]
  cases sinceFinalize pre <;> simp

/-- The module is fine exactly when some service was generated since the last package
was finalised, and these have every kind of method the package has. -/
theorem module_imported_iff (client server : Bool) {pre post : List Callback} {package : String}
    (hpre : .finalizePackage package ∉ pre) (hpost : .finalizePackage package ∉ post)
    (hlast : servicesOf package post = []) :
    Imported ((Output.run client server
        (pre ++ .finalizePackage package :: post)).modules package) ↔
      sinceFinalize pre ≠ [] ∧ Covers client server (methodsOf (sinceFinalize pre))
        (methodsOf (servicesOf package pre)) := by
  rw [module_finalized client server hpre hpost hlast, covers_iff]
  by_cases hsince : sinceFinalize pre = []
  · simp [hsince, Imported]
  · rw [if_neg hsince]
    simp only [Imported, List.cons_append, List.nil_append, List.mem_cons, Piece.use.injEq,
      List.mem_map, reduceCtorEq, and_false, exists_false, or_false, exists_eq_left, false_or,
      forall_exists_index, and_imp, Piece.code.injEq, forall_apply_eq_imp_iff₂,
      item_mem_renderService, mem_renderImports, imports_foldl, imports_none, methodsOf,
      List.mem_flatMap]
    constructor
    · intro h
      refine ⟨hsince, fun m service hservice hm i hi => ?_⟩
      exact h service hservice i (.inr ⟨m, hm, hi⟩)
    · rintro ⟨_, h⟩ service hservice i (halways | ⟨m, hm, hi⟩)
      · exact .inl (always_base halways)
      · exact h m service hservice hm i hi

/-- The services generated between a package's own call of `finalize_package` and the
one before it. -/
def windowOf (package : String) (calls : List Callback) : List Service :=
  sinceFinalize (calls.takeWhile (fun call => call ≠ .finalizePackage package))

theorem takeWhile_finalize {package : String} {pre post : List Callback}
    (hpre : .finalizePackage package ∉ pre) :
    (pre ++ .finalizePackage package :: post).takeWhile
      (fun call => call ≠ .finalizePackage package) = pre := by
  rw [List.takeWhile_append_of_pos]
  · simp
  · intro call hcall
    simpa using fun heq : call = .finalizePackage package => hpre (heq ▸ hcall)

theorem servicesOf_append (package : String) (calls calls' : List Callback) :
    servicesOf package (calls ++ calls') =
      servicesOf package calls ++ servicesOf package calls' :=
  List.filterMap_append

theorem window_finalized {calls pre post : List Callback} {package : String}
    (hcalls : calls = pre ++ .finalizePackage package :: post)
    (hpre : .finalizePackage package ∉ pre) (hlast : servicesOf package post = []) :
    windowOf package calls = sinceFinalize pre ∧
      servicesOf package calls = servicesOf package pre := by
  subst hcalls
  refine ⟨by rw [windowOf, takeWhile_finalize hpre], ?_⟩
  rw [servicesOf_append]
  simpa [servicesOf] using hlast

/-- Every package with a service gets its imports exactly when for each of them a
service was generated since the finalisation before its own, and the services
generated since then have every kind of method that the package has. -/
theorem packages_imported_iff (client server : Bool) (calls : List Callback)
    (hordered : Ordered calls) :
    (∀ service, .generate service ∈ calls →
        Imported ((Output.run client server calls).modules service.package)) ↔
      ∀ service, .generate service ∈ calls → windowOf service.package calls ≠ [] ∧
        Covers client server (methodsOf (windowOf service.package calls))
          (methodsOf (servicesOf service.package calls)) := by
  refine forall₂_congr (fun service hservice => ?_)
  obtain ⟨pre, post, hcalls, hpre, hpost, hlast⟩ := hordered service hservice
  obtain ⟨hwindow, hservices⟩ := window_finalized hcalls hpre hlast
  rw [hwindow, hservices, hcalls]
  exact module_imported_iff client server hpre hpost hlast

/-! ## Several packages -/

theorem later_package_not_imported (client server : Bool) (services : List Service)
    (first : List String) (package p : String) (later : List String)
    (hnodup : (first ++ p :: package :: later).Nodup) :
    ¬ Imported ((Output.run client server (services.map .generate ++
      (first ++ p :: package :: later).map .finalizePackage)).modules package) := by
  have hcalls : services.map .generate ++
      (first ++ p :: package :: later).map Callback.finalizePackage =
      (services.map .generate ++ (first ++ [p]).map .finalizePackage) ++
        .finalizePackage package :: later.map .finalizePackage := by
    simp
  have hne : package ≠ p ∧ package ∉ first ∧ package ∉ later := by
    grind
  rw [hcalls, module_imported_iff client server (by simp [hne]) (by simp [hne])]
  · rintro ⟨hsome, _⟩
    simp [sinceFinalize, List.foldl_append] at hsome
  · rw [servicesOf, List.filterMap_eq_nil_iff]
    rintro call hcall
    obtain ⟨q, _, rfl⟩ := List.mem_map.mp hcall
    rfl

def echoService (package : String) : Service :=
  ⟨"Echo", "Echo", package, [⟨"echo", "Echo", "Msg", "Msg", false, false⟩]⟩

/-- Two packages, each finalised before the services of the next come. -/
def packageByPackage : List Callback :=
  [.generate (echoService "a"), .finalizePackage "a", .generate (echoService "b"),
    .finalizePackage "b"]

theorem mem_packageByPackage {service : Service} (h : .generate service ∈ packageByPackage) :
    service = echoService "a" ∨ service = echoService "b" := by
  simpa [packageByPackage] using h

theorem packageByPackage_ordered : Ordered packageByPackage := by
  intro service hservice
  rcases mem_packageByPackage hservice with rfl | rfl
  · exact ⟨[.generate (echoService "a")], [.generate (echoService "b"), .finalizePackage "b"],
      rfl, by decide, by decide, rfl⟩
  · exact ⟨[.generate (echoService "a"), .finalizePackage "a", .generate (echoService "b")], [],
      rfl, by decide, by decide, rfl⟩

theorem each_package_imported :
    Imported ((Output.run true true packageByPackage).modules "a") ∧
      Imported ((Output.run true true packageByPackage).modules "b") := by
  have hall := (packages_imported_iff true true packageByPackage packageByPackage_ordered).mpr
    fun service hservice => by
      rcases mem_packageByPackage hservice with rfl | rfl
      · refine ⟨by decide, ?_⟩
        exact ⟨fun _ => id, fun _ => id, fun _ => id, fun _ => id, id⟩
      · refine ⟨by decide, ?_⟩
        exact ⟨fun _ => id, fun _ => id, fun _ => id, fun _ => id, id⟩
  exact ⟨hall (echoService "a") (by decide), hall (echoService "b") (by decide)⟩

def twoPackages : List Callback :=
  [.generate (echoService "a"), .generate (echoService "b"), .finalizePackage "a",
    .finalizePackage "b"]

theorem second_package_not_imported :
    Ordered twoPackages ∧ ¬ Imported ((Output.run true true twoPackages).modules "b") := by
  refine ⟨fun service hservice => ?_, ?_⟩
  · simp only [twoPackages, List.mem_cons, Callback.generate.injEq, reduceCtorEq, List.not_mem_nil,
      or_false] at hservice
    rcases hservice with rfl | rfl
    · exact ⟨[.generate (echoService "a"), .generate (echoService "b")], [.finalizePackage "b"],
        rfl, by decide, by decide, rfl⟩
    · exact ⟨[.generate (echoService "a"), .generate (echoService "b"), .finalizePackage "a"], [],
        rfl, by decide, by decide, rfl⟩
  · exact later_package_not_imported true true [echoService "a", echoService "b"] [] "b" "a" []
      (by decide)

end TrilliumGrpc.Codegen
