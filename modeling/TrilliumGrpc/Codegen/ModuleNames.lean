import TrilliumGrpc.Codegen.Generator

/-! # The names of a generated module

What a module's `use` block brings into its scope, and what the templates of
`src/codegen/src/lib.rs` define there next to the types prost puts into it.
-/

namespace TrilliumGrpc.Codegen

/-! ## Names of a module -/

def Item.localName : Item → String
  | .arc => "Arc"
  | .client => "Client"
  | i => i.path

/-- The tokens behind which the name of a new item of the module stands. -/
def definesItem (s : String) : Bool :=
  ["pub trait", "pub struct",
    "#[allow(clippy::enum_variant_names)] #[derive(Debug, Clone, Copy)] enum"].contains s

def definedNames : List Token → List String
  | .lit s :: .user name :: rest =>
      if definesItem s then name :: definedNames rest else definedNames rest
  | _ :: rest => definedNames rest
  | [] => []

def Piece.names : Piece → List String
  | .use block => block.items.map Item.localName
  | .code tokens => definedNames tokens

/-- The names of a module in which prost has put `types`. -/
def moduleNames (types : List String) (pieces : List Piece) : List String :=
  types ++ pieces.flatMap Piece.names

theorem definedNames_lit_user (s name : String) (rest : List Token) :
    definedNames (.lit s :: .user name :: rest) =
      if definesItem s then name :: definedNames rest else definedNames rest := rfl

def definesNothing (tokens : List Token) : Bool :=
  tokens.all (fun token =>
    match token with
    | .lit s => !definesItem s
    | _ => true)

theorem definedNames_of_nothing {tokens : List Token} (h : definesNothing tokens = true) :
    definedNames tokens = [] := by
  fun_induction definedNames tokens with
  | case1 s name rest hs ih => simp [definesNothing, hs] at h
  | case2 s name rest hs ih =>
      simp only [definesNothing, List.all_cons, Bool.and_eq_true] at h
      exact ih h.2.2
  | case3 token rest _ ih =>
      simp only [definesNothing, List.all_cons, Bool.and_eq_true] at h
      exact ih h.2
  | case4 => rfl

theorem definesNothing_append (xs ys : List Token) :
    definesNothing (xs ++ ys) = (definesNothing xs && definesNothing ys) := List.all_append

theorem definesNothing_flatMap {α : Type} {f : α → List Token}
    (h : ∀ a, definesNothing (f a) = true) (l : List α) :
    definesNothing (l.flatMap f) = true := by
  induction l with
  | nil => rfl
  | cons a rest ih => rw [List.flatMap_cons, definesNothing_append, h a, ih, Bool.and_self]

theorem definedNames_cons_of_not_item {token : Token}
    (h : ∀ s, token = .lit s → definesItem s = false) (rest : List Token) :
    definedNames (token :: rest) = definedNames rest := by
  cases token with
  | item i => rfl
  | user name => rfl
  | lit s =>
      match rest with
      | .user name :: rest => rw [definedNames_lit_user, if_neg (by simp [h s rfl])]; rfl
      | .lit _ :: _ | .item _ :: _ | [] => rfl

def EndsWhole (tokens : List Token) : Prop :=
  ∀ s, tokens.getLast? = some (.lit s) → definesItem s = false

theorem EndsWhole.of_cons {token : Token} {rest : List Token} (h : EndsWhole (token :: rest)) :
    EndsWhole rest := by
  intro s hlast
  refine h s ?_
  rw [List.getLast?_cons, hlast]
  rfl

/-- No name is missed where a part ends that does not break off before one. -/
theorem definedNames_append {xs : List Token} (h : EndsWhole xs) (ys : List Token) :
    definedNames (xs ++ ys) = definedNames xs ++ definedNames ys := by
  fun_induction definedNames xs with
  | case1 s name rest hs ih =>
      rw [List.cons_append, List.cons_append, definedNames_lit_user, if_pos hs,
        ih h.of_cons.of_cons, List.cons_append]
  | case2 s name rest hs ih =>
      rw [List.cons_append, List.cons_append, definedNames_lit_user, if_neg hs,
        ih h.of_cons.of_cons]
  | case3 token rest hother ih =>
      cases rest with
      | nil =>
          refine (definedNames_cons_of_not_item ?_ ys).trans rfl
          rintro s rfl
          exact h s rfl
      | cons next rest =>
          have hskip : definedNames (token :: next :: rest ++ ys) =
              definedNames (next :: rest ++ ys) := by
            cases token with
            | lit s =>
                cases next with
                | user name => exact absurd rfl (hother s name rest rfl)
                | lit s' => rfl
                | item i => rfl
            | item i => rfl
            | user name => rfl
          rw [hskip, ih h.of_cons]
  | case4 => rfl

theorem definedNames_append_nothing {xs ys : List Token} (hxs : EndsWhole xs)
    (hys : definesNothing ys = true) : definedNames (xs ++ ys) = definedNames xs := by
  rw [definedNames_append hxs, definedNames_of_nothing hys, List.append_nil]

/-! ## What the templates define -/

theorem renderTraitMethod_nothing (m : Method) : definesNothing (renderTraitMethod m) = true := by
  obtain ⟨_, _, _, _, cs, ss⟩ := m
  cases cs <;> cases ss <;> rfl

theorem renderRunArm_nothing (dispatch : String) (m : Method) :
    definesNothing (renderRunArm dispatch m) = true := by
  obtain ⟨_, _, _, _, cs, ss⟩ := m
  cases cs <;> cases ss <;> rfl

theorem renderClientMethod_nothing (m : Method) :
    definesNothing (renderClientMethod m) = true := by
  obtain ⟨_, _, _, _, cs, ss⟩ := m
  cases cs <;> cases ss <;> rfl

theorem upgradeImpl_nothing (service : Service) : definesNothing (upgradeImpl service) = true := by
  unfold upgradeImpl
  split <;> rfl

theorem definedNames_renderTrait (service : Service) :
    definedNames (renderTrait service) = [service.name] := by
  simp only [renderTrait, List.append_assoc]
  refine (definedNames_append_nothing ?_ ?_).trans rfl
  · rintro s ⟨⟩
    rfl
  · rw [definesNothing_append, definesNothing_flatMap renderTraitMethod_nothing]
    rfl

theorem definedNames_renderServer (service : Service) :
    definedNames (renderServer service) = [serverName service, dispatchName service] := by
  simp only [renderServer, List.append_assoc]
  refine (definedNames_append_nothing ?_ ?_).trans rfl
  · rintro s ⟨⟩
    rfl
  · have hvariants := definesNothing_flatMap
      (f := fun m : Method => [.user m.protoName, .lit ","]) (fun _ => rfl) service.methods
    have harms := definesNothing_flatMap (f := fun m : Method =>
      [.user ("/" ++ m.protoName), .lit "=>", .user (dispatchName service), .lit "::",
        .user m.protoName, .lit ","]) (fun _ => rfl) service.methods
    have hrun := definesNothing_flatMap (renderRunArm_nothing (dispatchName service))
      service.methods
    simp only [definesNothing_append, hvariants, harms, hrun, upgradeImpl_nothing]
    rfl

theorem definedNames_renderClient (service : Service) :
    definedNames (renderClient service) = [clientName service] := by
  simp only [renderClient, List.append_assoc]
  refine (definedNames_append_nothing ?_ ?_).trans rfl
  · rintro s ⟨⟩
    rfl
  · rw [definesNothing_append, definesNothing_flatMap renderClientMethod_nothing]
    rfl

def serviceNames (client server : Bool) (service : Service) : List String :=
  (if server then [service.name, serverName service, dispatchName service] else []) ++
    (if client then [clientName service] else [])

theorem definedNames_renderService (client server : Bool) (service : Service) :
    definedNames (renderService client server service) = serviceNames client server service := by
  have htrait : EndsWhole (renderTrait service) := by
    intro s hlast
    rw [renderTrait, List.getLast?_concat] at hlast
    cases hlast
    rfl
  have hserver : EndsWhole (renderTrait service ++ renderServer service) := by
    intro s hlast
    rw [renderServer, ← List.append_assoc, List.getLast?_concat] at hlast
    cases hlast
    rfl
  cases server with
  | false =>
      cases client with
      | false => rfl
      | true => exact definedNames_renderClient service
  | true =>
      have hboth : definedNames (renderTrait service ++ renderServer service) =
          [service.name, serverName service, dispatchName service] := by
        rw [definedNames_append htrait, definedNames_renderTrait, definedNames_renderServer]
        rfl
      cases client with
      | false =>
          simp only [renderService, serviceNames, if_true, Bool.false_eq_true, if_false,
            List.append_nil]
          exact hboth
      | true =>
          simp only [renderService, serviceNames, if_true]
          rw [definedNames_append hserver, hboth, definedNames_renderClient]

/-! ## The imported names are distinct -/

def Item.all : List Item :=
  [.arc, .conn, .handler, .method, .upgrade, .prostCrate, .prost, .server, .status,
    .prepareGrpcConn, .grpcServerConn, .bidiResponder, .stream, .serviceClient, .client,
    .unaryConn, .streamingConn, .bidiConn]

theorem Item.mem_all (i : Item) : i ∈ Item.all := by
  cases i <;> decide

theorem Item.path_inj {i j : Item} (h : i.path = j.path) : i = j :=
  List.inj_on_of_nodup_map (by decide : (Item.all.map Item.path).Nodup) i.mem_all j.mem_all h

theorem Item.localName_inj {i j : Item} (h : i.localName = j.localName) : i = j :=
  List.inj_on_of_nodup_map (by decide : (Item.all.map Item.localName).Nodup) i.mem_all j.mem_all h

theorem nodup_dedup {items : List Item} (h : items.Pairwise (fun i j => i.path ≤ j.path)) :
    (dedup items).Nodup := by
  fun_induction dedup items with
  | case1 => exact List.nodup_nil
  | case2 i => exact List.nodup_singleton i
  | case3 i is ih => exact ih h.of_cons
  | case4 i j is hne ih =>
      refine List.nodup_cons.mpr ⟨?_, ih h.of_cons⟩
      rw [mem_dedup]
      intro hmem
      have hfirst := List.rel_of_pairwise_cons h (List.mem_cons_self (a := j) (l := is))
      rcases List.mem_cons.mp hmem with heq | hlater
      · exact hne heq
      · have hback := List.rel_of_pairwise_cons h.of_cons hlater
        exact hne (Item.path_inj (le_antisymm hfirst hback))

theorem nodup_items (needs : Needs) (client server : Bool) :
    (renderImports needs client server).items.Nodup := by
  have hgrpc : (renderImports needs client server).grpc.Nodup :=
    nodup_dedup (List.pairwise_insertionSort _ _)
  have hapart : ∀ i ∈ (renderImports needs client server).grpc,
      i ∉ [Item.arc, .conn, .handler, .method, .upgrade] := by
    intro i hi
    simp only [renderImports, mem_dedup, List.mem_insertionSort, List.mem_append,
      List.mem_ite_nil_right, List.mem_cons, List.not_mem_nil, or_false] at hi
    cases i <;> simp at hi ⊢
  cases server with
  | false => exact hgrpc
  | true =>
      have hfront : ([Item.arc, .conn, .handler, .method] ++
          if needs.bidi then [Item.upgrade] else []).Nodup := by
        cases needs.bidi <;> decide
      refine List.nodup_append.mpr ⟨hfront, hgrpc, ?_⟩
      rintro i hi j hj rfl
      have hmem : i ∈ [Item.arc, .conn, .handler, .method] ++
        if needs.bidi then [Item.upgrade] else [] := hi
      refine hapart i hj ?_
      cases hbidi : needs.bidi with
      | false =>
          rw [hbidi] at hmem
          exact List.mem_append_left [Item.upgrade] hmem
      | true =>
          rw [hbidi] at hmem
          exact hmem

/-! ## Suffixes -/

theorem suffix_of_localName {name k : String} {i : Item} (h : name ++ k = i.localName) :
    k.toList <:+ i.localName.toList := by
  rw [← h, String.toList_append]
  exact List.suffix_append _ _

theorem serverName_eq_localName {service : Service} {i : Item}
    (h : serverName service = i.localName) : i = .server ∧ service.name = "" := by
  have hi : i = .server := by
    have hsuffix := suffix_of_localName h
    revert hsuffix
    cases i <;> decide
  subst hi
  refine ⟨rfl, ?_⟩
  have hchars : service.name ++ "Server" = "" ++ "Server" := h
  exact String.append_left_inj "Server" |>.mp hchars

theorem dispatchName_ne_localName (service : Service) (i : Item) :
    dispatchName service ≠ i.localName := by
  intro h
  have hsuffix := suffix_of_localName h
  revert hsuffix
  cases i <;> decide

theorem clientName_eq_localName {service : Service} {i : Item}
    (h : clientName service = i.localName) :
    (i = .client ∧ service.name = "") ∨ (i = .serviceClient ∧ service.name = "Service") := by
  have hi : i = .client ∨ i = .serviceClient := by
    have hsuffix := suffix_of_localName h
    revert hsuffix
    cases i <;> decide
  rcases hi with rfl | rfl
  · have hchars : service.name ++ "Client" = "" ++ "Client" := h
    exact .inl ⟨rfl, String.append_left_inj "Client" |>.mp hchars⟩
  · have hchars : service.name ++ "Client" = "Service" ++ "Client" := h
    exact .inr ⟨rfl, String.append_left_inj "Client" |>.mp hchars⟩

theorem append_ne_append {k k' : String} (hk : k.toList ≠ []) (hk' : k'.toList ≠ [])
    (hlast : k.toList.getLast? ≠ k'.toList.getLast?) (name name' : String) :
    name ++ k ≠ name' ++ k' := by
  intro h
  have hchars := congrArg (fun s => s.toList.getLast?) h
  simp only [String.toList_append, List.getLast?_append_of_ne_nil _ hk,
    List.getLast?_append_of_ne_nil _ hk'] at hchars
  exact hlast hchars

/-- The suffixes of what a service's server, and its client, define. -/
def suffixes (client : Bool) : List String :=
  ["Server", "Dispatch"] ++ if client then ["Client"] else []

theorem suffixes_ne_empty {client : Bool} {k : String} (hk : k ∈ suffixes client) : k ≠ "" := by
  revert hk
  cases client <;> simp [suffixes] <;> rintro (rfl | rfl | rfl) <;> decide

theorem ne_append_suffix {client : Bool} {k : String} (hk : k ∈ suffixes client) (name : String) :
    name ≠ name ++ k := by
  intro h
  have hempty : name ++ "" = name ++ k := by rw [String.append_empty, ← h]
  exact suffixes_ne_empty hk ((String.append_right_inj name).mp hempty).symm

theorem server_ne_dispatch (s t : Service) : serverName s ≠ dispatchName t :=
  append_ne_append (by decide) (by decide) (by decide) s.name t.name

theorem server_ne_client (s t : Service) : serverName s ≠ clientName t :=
  append_ne_append (by decide) (by decide) (by decide) s.name t.name

theorem dispatch_ne_client (s t : Service) : dispatchName s ≠ clientName t :=
  append_ne_append (by decide) (by decide) (by decide) s.name t.name

def Apart (client server : Bool) (s t : Service) : Prop :=
  server = true → ∀ k ∈ suffixes client, t.name ≠ s.name ++ k ∧ s.name ≠ t.name ++ k

theorem nodup_serviceNames (client server : Bool) (s : Service) :
    (serviceNames client server s).Nodup := by
  have hserver := ne_append_suffix (by decide : "Server" ∈ suffixes true) s.name
  have hdispatch := ne_append_suffix (by decide : "Dispatch" ∈ suffixes true) s.name
  have hclient := ne_append_suffix (by decide : "Client" ∈ suffixes true) s.name
  have hsd := server_ne_dispatch s s
  have hsc := server_ne_client s s
  have hdc := dispatch_ne_client s s
  simp only [serverName, dispatchName, clientName] at hsd hsc hdc
  cases client <;> cases server <;>
    simp [serviceNames, serverName, dispatchName, clientName, hserver, hdispatch, hclient, hsd,
      hsc, hdc]

theorem disjoint_serviceNames_iff (client server : Bool) (s t : Service) :
    List.Disjoint (serviceNames client server s) (serviceNames client server t) ↔
      (client = true ∨ server = true → s.name ≠ t.name) ∧ Apart client server s t := by
  have hsd := server_ne_dispatch s t
  have hds := server_ne_dispatch t s
  have hsc := server_ne_client s t
  have hcs := server_ne_client t s
  have hdc := dispatch_ne_client s t
  have hcd := dispatch_ne_client t s
  simp only [serverName, dispatchName, clientName] at hsd hds hsc hcs hdc hcd
  cases client <;> cases server <;>
    simp [serviceNames, Apart, suffixes, List.Disjoint, serverName, dispatchName, clientName,
      String.append_left_inj, hsd, hsc, hdc, Ne.symm hds, Ne.symm hcs, Ne.symm hcd]
  · grind
  · grind

/-! ## Modules without a clash -/

/-- What has to hold of the names that prost gives types and services: none is used twice
or imported, and none is another one's with a suffix. -/
structure NamesFree (client server : Bool) (types : List String) (services : List Service)
    (imported : Item → Prop) : Prop where
  typesNodup : types.Nodup
  servicesNodup : client = true ∨ server = true → (services.map Service.name).Nodup
  typeImported : ∀ i, imported i → i.localName ∉ types
  traitImported : server = true → ∀ i, imported i → ∀ s ∈ services, s.name ≠ i.localName
  typeOfService : ∀ s ∈ services, ∀ name ∈ serviceNames client server s, name ∉ types
  apart : ∀ s ∈ services, ∀ t ∈ services, Apart client server s t
  serverImported : server = true → imported .server → ∀ s ∈ services, s.name ≠ ""
  clientImported : client = true → imported .client → ∀ s ∈ services, s.name ≠ ""
  serviceClientImported : client = true → imported .serviceClient →
    ∀ s ∈ services, s.name ≠ "Service"

theorem apart_self (client server : Bool) (s : Service) : Apart client server s s :=
  fun _ _ hk => ⟨ne_append_suffix hk s.name, ne_append_suffix hk s.name⟩

instance (client server : Bool) : Std.Symm (Apart client server) :=
  ⟨fun _ _ h hserver k hk => ⟨(h hserver k hk).2, (h hserver k hk).1⟩⟩

/-- The names of several services. -/
theorem nodup_services_iff (client server : Bool) (services : List Service) :
    (services.flatMap (serviceNames client server)).Nodup ↔
      (client = true ∨ server = true → (services.map Service.name).Nodup) ∧
        ∀ s ∈ services, ∀ t ∈ services, Apart client server s t := by
  have hpairs : services.Pairwise (Function.onFun List.Disjoint (serviceNames client server)) ↔
      services.Pairwise (fun s t => client = true ∨ server = true → s.name ≠ t.name) ∧
        services.Pairwise (Apart client server) := by
    rw [← List.pairwise_and_iff]
    exact List.Pairwise.iff (disjoint_serviceNames_iff client server)
  have hnames : services.Pairwise (fun s t => client = true ∨ server = true → s.name ≠ t.name) ↔
      (client = true ∨ server = true → (services.map Service.name).Nodup) := by
    rw [List.Nodup, List.pairwise_map]
    by_cases hside : client = true ∨ server = true
    · simp only [hside, true_imp_iff]
    · simp only [hside, false_imp_iff, iff_true]
      exact List.pairwise_of_forall (fun _ _ => trivial)
  have hapart : services.Pairwise (Apart client server) ↔
      ∀ s ∈ services, ∀ t ∈ services, Apart client server s t := by
    constructor
    · intro h s hs t ht
      exact h.forall_of_forall (fun s _ => apart_self client server s) hs ht
    · intro h
      exact List.pairwise_of_forall_mem_list h
  rw [List.nodup_flatMap, hpairs, hnames, hapart]
  exact and_iff_right (fun s _ => nodup_serviceNames client server s)

/-- No service's name is imported under another item's. -/
theorem serviceNames_imported_iff (client server : Bool) (imported : Item → Prop) (s : Service) :
    (∀ i, imported i → i.localName ∉ serviceNames client server s) ↔
      (server = true → ∀ i, imported i → s.name ≠ i.localName) ∧
        (server = true → imported .server → s.name ≠ "") ∧
        (client = true → imported .client → s.name ≠ "") ∧
        (client = true → imported .serviceClient → s.name ≠ "Service") := by
  constructor
  · intro h
    refine ⟨?_, ?_, ?_, ?_⟩
    · rintro rfl i hi heq
      exact h i hi (by simp [serviceNames, heq])
    · rintro rfl hi hempty
      exact h .server hi (by simp [serviceNames, serverName, hempty, Item.localName, Item.path])
    · rintro rfl hi hempty
      exact h .client hi (by simp [serviceNames, clientName, hempty, Item.localName])
    · rintro rfl hi hservice
      exact h .serviceClient hi
        (by simp [serviceNames, clientName, hservice, Item.localName, Item.path])
  · rintro ⟨htrait, hserver, hclient, hserviceClient⟩ i hi hmem
    simp only [serviceNames, List.mem_append, List.mem_ite_nil_right, List.mem_cons,
      List.not_mem_nil, or_false] at hmem
    rcases hmem with ⟨hside, heq | heq | heq⟩ | ⟨hside, heq⟩
    · exact htrait hside i hi heq.symm
    · obtain ⟨rfl, hempty⟩ := serverName_eq_localName heq.symm
      exact hserver hside hi hempty
    · exact dispatchName_ne_localName s i heq.symm
    · rcases clientName_eq_localName heq.symm with ⟨rfl, hempty⟩ | ⟨rfl, hservice⟩
      · exact hclient hside hi hempty
      · exact hserviceClient hside hi hservice

/-- The names of one module, by where they come from. -/
theorem nodup_names_iff (client server : Bool) (types : List String) (services : List Service)
    {items : List Item} (hitems : items.Nodup) :
    (types ++ (items.map Item.localName ++
        services.flatMap (serviceNames client server))).Nodup ↔
      NamesFree client server types services (fun i => i ∈ items) := by
  have hlocal : (items.map Item.localName).Nodup := hitems.map (fun _ _ => Item.localName_inj)
  have himported : (∀ a ∈ items.map Item.localName,
      ∀ b ∈ services.flatMap (serviceNames client server), a ≠ b) ↔
      ∀ s ∈ services, ∀ i ∈ items, i.localName ∉ serviceNames client server s := by
    simp only [List.mem_map, List.mem_flatMap]
    grind
  have htypes : (∀ a ∈ types, ∀ b ∈ items.map Item.localName ++
      services.flatMap (serviceNames client server), a ≠ b) ↔
      (∀ i ∈ items, i.localName ∉ types) ∧
        ∀ s ∈ services, ∀ name ∈ serviceNames client server s, name ∉ types := by
    simp only [List.mem_append, List.mem_map, List.mem_flatMap]
    grind
  rw [List.nodup_append, List.nodup_append, nodup_services_iff, himported, htypes]
  simp only [serviceNames_imported_iff]
  constructor
  · rintro ⟨hnodup, ⟨_, ⟨hservices, hapart⟩, himp⟩, htypeImported, htypeOfService⟩
    exact
      { typesNodup := hnodup
        servicesNodup := hservices
        typeImported := htypeImported
        traitImported := fun hside i hi s hs => (himp s hs).1 hside i hi
        typeOfService := htypeOfService
        apart := hapart
        serverImported := fun hside hi s hs => (himp s hs).2.1 hside hi
        clientImported := fun hside hi s hs => (himp s hs).2.2.1 hside hi
        serviceClientImported := fun hside hi s hs => (himp s hs).2.2.2 hside hi }
  · intro h
    refine ⟨h.typesNodup, ⟨hlocal, ⟨h.servicesNodup, h.apart⟩, ?_⟩, h.typeImported,
      h.typeOfService⟩
    intro s hs
    exact ⟨fun hside i hi => h.traitImported hside i hi s hs,
      fun hside hi => h.serverImported hside hi s hs,
      fun hside hi => h.clientImported hside hi s hs,
      fun hside hi => h.serviceClientImported hside hi s hs⟩

/-! ## The modules of a run -/

/-- What the `use` block of a package's module imports: the names every block has, and
those of the methods it was accumulated from. A package without services has none. -/
def ImportedInto (client server : Bool) (package : String) (calls : List Callback) (i : Item) :
    Prop :=
  servicesOf package calls ≠ [] ∧ windowOf package calls ≠ [] ∧
    (Base client server i ∨ ∃ m ∈ methodsOf (windowOf package calls), m.Mentions client server i)

/-- As prost-build calls: in order, and only packages with a service are finalised. -/
structure CalledByProst (calls : List Callback) : Prop where
  ordered : Ordered calls
  served : ∀ package, .finalizePackage package ∈ calls → servicesOf package calls ≠ []

/-- The module of a package, its imports as a list. -/
theorem module_names {calls : List Callback} (hcalled : CalledByProst calls)
    (client server : Bool) (types : List String) (package : String) :
    ∃ items : List Item, items.Nodup ∧
      (∀ i, i ∈ items ↔ ImportedInto client server package calls i) ∧
      moduleNames types ((Output.run client server calls).modules package) =
        types ++ (items.map Item.localName ++
          (servicesOf package calls).flatMap (serviceNames client server)) := by
  by_cases hnone : servicesOf package calls = []
  · have hfinal : .finalizePackage package ∉ calls := fun hmem => hcalled.served package hmem hnone
    refine ⟨[], List.nodup_nil, fun i => ?_, ?_⟩
    · simp [ImportedInto, hnone]
    · rw [moduleNames, Output.run, foldl_step_modules calls _ hfinal hnone, hnone]
      rfl
  · obtain ⟨service, hservice⟩ := List.exists_mem_of_ne_nil _ hnone
    obtain ⟨call, hcall, hgenerate⟩ := List.mem_filterMap.mp hservice
    obtain ⟨rfl, rfl⟩ : call = .generate service ∧ service.package = package := by
      cases call with
      | finalizePackage p => cases hgenerate
      | generate s =>
          simp only [Option.ite_none_right_eq_some, Option.some.injEq] at hgenerate
          exact ⟨by rw [hgenerate.2], by rw [← hgenerate.2]; exact hgenerate.1⟩
    obtain ⟨pre, post, hcalls, hpre, hpost, hlast⟩ := hcalled.ordered service hcall
    obtain ⟨hwindow, hservices⟩ := window_finalized hcalls hpre hlast
    have hcode : ((servicesOf service.package pre).map (fun s =>
        Piece.code (renderService client server s))).flatMap Piece.names =
          (servicesOf service.package pre).flatMap (serviceNames client server) := by
      rw [List.flatMap_map]
      exact List.flatMap_congr (fun s _ => definedNames_renderService client server s)
    have hmodule := module_finalized client server hpre hpost hlast
    rw [← hcalls] at hmodule
    by_cases hsince : sinceFinalize pre = []
    · refine ⟨[], List.nodup_nil, fun i => ?_, ?_⟩
      · simp [ImportedInto, hwindow, hsince]
      · rw [moduleNames, hmodule, if_pos hsince, List.nil_append, hcode, hservices]
        rfl
    · refine ⟨_, nodup_items ((methodsOf (sinceFinalize pre)).foldl Needs.addMethod .none) client
        server, fun i => ?_, ?_⟩
      · rw [mem_renderImports, imports_foldl, imports_none, ImportedInto, hwindow]
        exact (and_iff_right hnone).trans (and_iff_right hsince) |>.symm
      · rw [moduleNames, hmodule, if_neg hsince, List.flatMap_append, hcode, hservices,
          List.flatMap_cons, List.flatMap_nil, List.append_nil]
        rfl

/-- The names of a package's module are distinct exactly when those that prost gives its
types and services are free. -/
theorem module_names_distinct_iff {calls : List Callback} (hcalled : CalledByProst calls)
    (client server : Bool) (types : List String) (package : String) :
    (moduleNames types ((Output.run client server calls).modules package)).Nodup ↔
      NamesFree client server types (servicesOf package calls)
        (ImportedInto client server package calls) := by
  obtain ⟨items, hitems, hmem, hnames⟩ := module_names hcalled client server types package
  have himported : (fun i => i ∈ items) = ImportedInto client server package calls :=
    funext (fun i => propext (hmem i))
  rw [hnames, nodup_names_iff client server types _ hitems, himported]

def onePackage : List Callback := [.generate (echoService "a"), .finalizePackage "a"]

theorem mem_onePackage {service : Service} (h : .generate service ∈ onePackage) :
    service = echoService "a" := by
  simpa [onePackage] using h

theorem onePackage_ordered : Ordered onePackage := by
  intro service hservice
  rw [mem_onePackage hservice]
  exact ⟨[.generate (echoService "a")], [], rfl, by decide, by decide, rfl⟩

theorem onePackage_called : CalledByProst onePackage := by
  refine ⟨onePackage_ordered, ?_⟩
  intro package hpackage
  obtain rfl : package = "a" := by
    simpa [onePackage] using hpackage
  decide

theorem echo_names_distinct :
    (moduleNames ["Msg"] ((Output.run true true onePackage).modules "a")).Nodup := by
  refine (module_names_distinct_iff onePackage_called true true ["Msg"] "a").mpr ?_
  have hservices : servicesOf "a" onePackage = [echoService "a"] := rfl
  rw [hservices]
  refine ⟨by decide, fun _ => by decide, fun i _ => ?_, ?_, by decide, ?_, ?_, ?_, ?_⟩
  · cases i <;> decide
  · intro _ i _ s hs
    rw [List.mem_singleton.mp hs]
    cases i <;> decide
  · intro s hs t ht
    rw [List.mem_singleton.mp hs, List.mem_singleton.mp ht]
    exact apart_self true true _
  · exact fun _ _ => by decide
  · exact fun _ _ => by decide
  · exact fun _ _ => by decide

/-- A message named as the status that a server side imports. -/
theorem status_message_clashes :
    ¬ (moduleNames ["Msg", "Status"] ((Output.run true true onePackage).modules "a")).Nodup := by
  decide +kernel

end TrilliumGrpc.Codegen
