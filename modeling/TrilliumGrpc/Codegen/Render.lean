import Mathlib

/-! # Generated code

`src/codegen/src/lib.rs`: the templates of a service's trait, server and client. A
template is a list of tokens, in which the names that its module has to import stand
apart from the other literal tokens and from what the service fills in.
-/

namespace TrilliumGrpc.Codegen

/-- The names a `use` block can bring in. -/
inductive Item where
  | arc
  | conn
  | handler
  | method
  | upgrade
  | prostCrate
  | prost
  | server
  | status
  | prepareGrpcConn
  | grpcServerConn
  | bidiResponder
  | stream
  | serviceClient
  | client
  | unaryConn
  | streamingConn
  | bidiConn
deriving DecidableEq, Repr

/-- How the `use` block writes a name; the code has its last segment. -/
def Item.path : Item → String
  | .arc => "std::sync::Arc"
  | .conn => "Conn"
  | .handler => "Handler"
  | .method => "Method"
  | .upgrade => "Upgrade"
  | .prostCrate => "prost"
  | .prost => "Prost"
  | .server => "Server"
  | .status => "Status"
  | .prepareGrpcConn => "prepare_grpc_conn"
  | .grpcServerConn => "GrpcServerConn"
  | .bidiResponder => "BidiResponder"
  | .stream => "Stream"
  | .serviceClient => "ServiceClient"
  | .client => "trillium_client::Client"
  | .unaryConn => "UnaryConn"
  | .streamingConn => "StreamingConn"
  | .bidiConn => "BidiConn"

inductive Token where
  /-- A name from outside the module. -/
  | item (i : Item)
  /-- Other tokens of the template; full paths need no import. -/
  | lit (s : String)
  /-- A name, type or string literal of the service. -/
  | user (s : String)
deriving DecidableEq, Repr

structure Method where
  name : String
  protoName : String
  inputType : String
  outputType : String
  clientStreaming : Bool
  serverStreaming : Bool
deriving DecidableEq, Repr

structure Service where
  name : String
  protoName : String
  package : String
  methods : List Method
deriving DecidableEq, Repr

def Method.isBidi (m : Method) : Bool := m.clientStreaming && m.serverStreaming

def Method.isServerStreaming (m : Method) : Bool := !m.clientStreaming && m.serverStreaming

def Method.isClientStreaming (m : Method) : Bool := m.clientStreaming && !m.serverStreaming

/-! ## The trait -/

open Token

def renderTraitMethod (m : Method) : List Token :=
  match m.clientStreaming, m.serverStreaming with
  | false, false =>
      [lit "fn", user m.name, lit "(&self, conn: &mut", item .grpcServerConn, lit ", request:",
        user m.inputType, lit ") -> impl Future<Output = Result<", user m.outputType, lit ",",
        item .status, lit ">> + Send;"]
  | false, true =>
      [lit "fn", user m.name, lit "(&self, conn: &mut", item .grpcServerConn, lit ", request:",
        user m.inputType, lit ") -> impl Future<Output = Result<impl", item .stream,
        lit "<Item = Result<", user m.outputType, lit ",", item .status,
        lit ">> + Send + use<Self>,", item .status, lit ",>,> + Send;"]
  | true, false =>
      [lit "fn", user m.name, lit "(&self, conn: &mut", item .grpcServerConn,
        lit ",) -> impl Future<Output = Result<", user m.outputType, lit ",", item .status,
        lit ">> + Send;"]
  | true, true =>
      [lit "fn", user m.name, lit "(&self, conn: &mut", item .grpcServerConn,
        lit ",) -> impl Future<Output = Result<impl", item .bidiResponder, lit "<",
        user m.inputType, lit ",", user m.outputType, lit "> + use<Self>,", item .status,
        lit ",>,> + Send;"]

def renderTrait (service : Service) : List Token :=
  [lit "pub trait", user service.name, lit ": Send + Sync + 'static \x7b"] ++
    service.methods.flatMap renderTraitMethod ++ [lit "\x7d"]

/-! ## The server -/

def servicePath (service : Service) : String :=
  if service.package = "" then service.protoName
  else service.package ++ "." ++ service.protoName

def serverName (service : Service) : String := service.name ++ "Server"

def dispatchName (service : Service) : String := service.name ++ "Dispatch"

def renderRunArm (dispatch : String) (m : Method) : List Token :=
  [user dispatch, lit "::", user m.protoName, lit "=> \x7b"] ++
    (match m.clientStreaming, m.serverStreaming with
    | false, false =>
        [item .prost, lit "::unary(conn, async move |grpc, req| inner.", user m.name,
          lit "(grpc, req).await).await"]
    | false, true =>
        [item .prost, lit "::server_streaming(conn, async move |grpc, req| inner.", user m.name,
          lit "(grpc, req).await).await"]
    | true, false =>
        [item .prost, lit "::client_streaming(conn, async move |grpc| inner.", user m.name,
          lit "(grpc).await).await"]
    | true, true =>
        [item .prost, lit "::bidi::<", user m.inputType, lit ",", user m.outputType,
          lit ", _>(conn, async move |grpc| inner.", user m.name, lit "(grpc).await,).await"]) ++
    [lit "\x7d"]

def hasBidi (service : Service) : Bool :=
  service.methods.any (fun m => m.clientStreaming && m.serverStreaming)

/-- Only for a service with a bidi method. -/
def upgradeImpl (service : Service) : List Token :=
  if hasBidi service then
    [lit "fn has_upgrade(&self, upgrade: &", item .upgrade,
      lit ") -> bool \x7b trillium_grpc::has_bidi_upgrade(upgrade) \x7d",
      lit "async fn upgrade(&self, upgrade:", item .upgrade,
      lit ") \x7b trillium_grpc::drive_bidi_upgrade(upgrade).await; \x7d"]
  else []

def renderServer (service : Service) : List Token :=
  [lit "pub struct", user (serverName service), lit "<T>(", item .arc, lit "<T>);",
    lit "impl<T>", user (serverName service), lit "<T> \x7b pub fn new(inner: T) -> Self \x7b Self(",
    item .arc, lit "::new(inner)) \x7d \x7d",
    lit "#[allow(clippy::enum_variant_names)] #[derive(Debug, Clone, Copy)] enum",
    user (dispatchName service), lit "\x7b"] ++
    service.methods.flatMap (fun m => [user m.protoName, lit ","]) ++
    [lit "\x7d impl<T:", user service.name, lit ">", item .handler, lit "for",
      user (serverName service), lit "<T> \x7b async fn run(&self, conn:", item .conn, lit ") ->",
      item .conn, lit "\x7b const PREFIX: &str =", user ("/" ++ servicePath service),
      lit "; let Some(method) = conn.path().strip_prefix(PREFIX) else \x7b return conn; \x7d;",
      lit "if conn.method() !=", item .method, lit "::Post \x7b return conn; \x7d",
      lit "let dispatch = match method \x7b"] ++
    service.methods.flatMap (fun m =>
      [user ("/" ++ m.protoName), lit "=>", user (dispatchName service), lit "::",
        user m.protoName, lit ","]) ++
    [lit "_ => return conn, \x7d; let conn = match", item .prepareGrpcConn,
      lit "(conn, \"proto\") \x7b Ok(c) => c, Err(c) => return c, \x7d;",
      lit "let inner =", item .arc, lit "::clone(&self.0); match dispatch \x7b"] ++
    service.methods.flatMap (renderRunArm (dispatchName service)) ++
    [lit "\x7d \x7d"] ++ upgradeImpl service ++ [lit "\x7d"]

/-! ## The client -/

def clientName (service : Service) : String := service.name ++ "Client"

def renderClientMethod (m : Method) : List Token :=
  match m.clientStreaming, m.serverStreaming with
  | false, false =>
      [lit "pub fn", user m.name, lit "(&self, request:", user m.inputType, lit ") ->",
        item .unaryConn, lit "<", user m.inputType, lit ",", user m.outputType, lit "> \x7b",
        item .unaryConn, lit "::unary::<", item .prost, lit ">(&self.0,", user m.protoName,
        lit ", request) \x7d"]
  | true, false =>
      [lit "pub fn", user m.name, lit "(&self, requests: impl", item .stream, lit "<Item =",
        user m.inputType, lit "> + Send + 'static,) ->", item .unaryConn, lit "<",
        user m.inputType, lit ",", user m.outputType, lit "> \x7b", item .unaryConn,
        lit "::client_streaming::<", item .prost, lit ">(&self.0,", user m.protoName,
        lit ", requests) \x7d"]
  | false, true =>
      [lit "pub fn", user m.name, lit "(&self, request:", user m.inputType, lit ") ->",
        item .streamingConn, lit "<", user m.inputType, lit ",", user m.outputType, lit "> \x7b",
        item .streamingConn, lit "::server_streaming::<", item .prost, lit ">(&self.0,",
        user m.protoName, lit ", request) \x7d"]
  | true, true =>
      [lit "pub fn", user m.name, lit "(&self) ->", item .bidiConn, lit "<", user m.inputType,
        lit ",", user m.outputType, lit "> \x7b", item .bidiConn, lit "::bidi::<", item .prost,
        lit ">(&self.0,", user m.protoName, lit ") \x7d"]

def renderClient (service : Service) : List Token :=
  [lit "pub struct", user (clientName service), lit "(", item .client, lit "); impl From<",
    item .client, lit "> for", user (clientName service), lit "\x7b fn from(client:", item .client,
    lit ") -> Self \x7b Self(trillium_grpc::with_service_prefix(client,",
    user (servicePath service), lit ")) \x7d \x7d impl", item .serviceClient, lit "for",
    user (clientName service), lit "\x7b fn client(&self) -> &", item .client,
    lit "\x7b &self.0 \x7d fn client_mut(&mut self) -> &mut", item .client,
    lit "\x7b &mut self.0 \x7d \x7d impl", user (clientName service), lit "\x7b"] ++
    service.methods.flatMap renderClientMethod ++ [lit "\x7d"]

def renderService (client server : Bool) (service : Service) : List Token :=
  (if server then renderTrait service ++ renderServer service else []) ++
    (if client then renderClient service else [])

/-! ## The names a service's code mentions -/

theorem item_mem_renderTraitMethod (m : Method) (i : Item) :
    item i ∈ renderTraitMethod m ↔ i = .grpcServerConn ∨ i = .status ∨
      (m.isServerStreaming ∧ i = .stream) ∨ (m.isBidi ∧ i = .bidiResponder) := by
  obtain ⟨_, _, _, _, cs, ss⟩ := m
  cases cs <;> cases ss <;>
    simp [renderTraitMethod, Method.isServerStreaming, Method.isBidi] <;> tauto

theorem item_mem_renderRunArm (dispatch : String) (m : Method) (i : Item) :
    item i ∈ renderRunArm dispatch m ↔ i = .prost := by
  obtain ⟨_, _, _, _, cs, ss⟩ := m
  cases cs <;> cases ss <;> simp [renderRunArm]

theorem item_mem_renderClientMethod (m : Method) (i : Item) :
    item i ∈ renderClientMethod m ↔ i = .prost ∨ (m.serverStreaming = false ∧ i = .unaryConn) ∨
      (m.isClientStreaming ∧ i = .stream) ∨ (m.isServerStreaming ∧ i = .streamingConn) ∨
      (m.isBidi ∧ i = .bidiConn) := by
  obtain ⟨_, _, _, _, cs, ss⟩ := m
  cases cs <;> cases ss <;>
    simp [renderClientMethod, Method.isServerStreaming, Method.isClientStreaming,
      Method.isBidi] <;> tauto

theorem hasBidi_iff (service : Service) :
    hasBidi service = true ↔ ∃ m ∈ service.methods, m.isBidi := by
  simp [hasBidi, Method.isBidi]

theorem item_mem_upgradeImpl (service : Service) (i : Item) :
    item i ∈ upgradeImpl service ↔ (∃ m ∈ service.methods, m.isBidi) ∧ i = .upgrade := by
  rw [← hasBidi_iff, upgradeImpl]
  cases hasBidi service <;> simp

def Method.Mentions (client server : Bool) (m : Method) : Item → Prop
  | .grpcServerConn => server
  | .status => server
  | .prost => client ∨ server
  | .stream => (client ∧ m.isClientStreaming) ∨ (server ∧ m.isServerStreaming)
  | .bidiResponder => server ∧ m.isBidi
  | .upgrade => server ∧ m.isBidi
  | .unaryConn => client ∧ m.serverStreaming = false
  | .streamingConn => client ∧ m.isServerStreaming
  | .bidiConn => client ∧ m.isBidi
  | _ => False

/-- The names that the emitted sides mention whatever the methods. -/
def Always (client server : Bool) : Item → Prop
  | .arc => server
  | .conn => server
  | .handler => server
  | .method => server
  | .prepareGrpcConn => server
  | .client => client
  | .serviceClient => client
  | _ => False

theorem item_mem_renderTrait (service : Service) (i : Item) :
    item i ∈ renderTrait service ↔ ∃ m ∈ service.methods, i = .grpcServerConn ∨ i = .status ∨
      (m.isServerStreaming ∧ i = .stream) ∨ (m.isBidi ∧ i = .bidiResponder) := by
  simp [renderTrait, item_mem_renderTraitMethod]

theorem item_mem_renderServer (service : Service) (i : Item) :
    item i ∈ renderServer service ↔ Always false true i ∨
      ∃ m ∈ service.methods, i = .prost ∨ (m.isBidi ∧ i = .upgrade) := by
  have hupgrade := item_mem_upgradeImpl service i
  have harms : (∃ m ∈ service.methods, i = .prost) ∨ ((∃ m ∈ service.methods, m.isBidi) ∧
      i = .upgrade) ↔ ∃ m ∈ service.methods, i = .prost ∨ (m.isBidi ∧ i = .upgrade) := by
    grind
  rw [← harms, ← hupgrade]
  simp only [renderServer, List.mem_append, List.mem_flatMap, List.mem_cons, List.not_mem_nil,
    item_mem_renderRunArm, reduceCtorEq, Token.item.injEq, false_or, or_false, and_false,
    exists_false]
  cases i <;> simp [Always]

theorem item_mem_renderClient (service : Service) (i : Item) :
    item i ∈ renderClient service ↔ Always true false i ∨
      ∃ m ∈ service.methods, i = .prost ∨ (m.serverStreaming = false ∧ i = .unaryConn) ∨
        (m.isClientStreaming ∧ i = .stream) ∨ (m.isServerStreaming ∧ i = .streamingConn) ∨
        (m.isBidi ∧ i = .bidiConn) := by
  simp only [renderClient, List.mem_append, List.mem_flatMap, List.mem_cons, List.not_mem_nil,
    item_mem_renderClientMethod, reduceCtorEq, Token.item.injEq, false_or, or_false]
  cases i <;> simp [Always]

theorem item_mem_renderService (client server : Bool) (service : Service) (i : Item) :
    item i ∈ renderService client server service ↔
      Always client server i ∨ ∃ m ∈ service.methods, m.Mentions client server i := by
  simp only [renderService, List.mem_append, List.mem_ite_nil_right, item_mem_renderTrait,
    item_mem_renderServer, item_mem_renderClient]
  cases i <;> simp [Always, Method.Mentions] <;> grind

end TrilliumGrpc.Codegen
