import TxPkgAux.Framework.Dialog

/-!
# `BeastLiteClient`

`BeastRequestContext` of `pkg/http/Http/Impl/Beast/BeastLiteClient.cpp`: a URL is parsed by ada,
its host resolved, the first endpoint that answers connected to, and a GET request written, over
TLS for `https:`. What asio, OpenSSL and Beast do is the environment (`Net`), which answers every
step that is seen outside the process (`WireEvent`).

ada is a parameter, `Parse`. `UrlAggregator` has the components that identify a resource.
`ssl` is the build flag `HTTP_CLIENT_WITH_SSL`.
-/

namespace TX.Http

/-- `ada::url_aggregator`: what its getters return. -/
structure UrlAggregator where
  getProtocol : String
  getHostname : String
  getPort : String
  getPathname : String
  getSearch : String
deriving DecidableEq

/-- `ada::parse<ada::url_aggregator>`. -/
abbrev Parse := String → Option UrlAggregator

def TlsUrlProtocol : String := "https:"

def BasicHttpVersion : ℕ := 11

def DefaultRequestService : String := "80"

inductive ErrorCode where
  | invalidArgument
  | protocolNotSupported
  | protocolError
  /-- An error that asio, OpenSSL or Beast reports. -/
  | asio (value : ℕ)

structure SystemError where
  code : ErrorCode
  what : String

/-- `ILiteClient::Response`. -/
structure Response where
  statusCode : ℕ
  body : String

/-- `http::request<http::string_body>`, without a body. -/
structure Request where
  method : String
  target : String
  version : ℕ
  host : String
  userAgent : String

/-- `http::response<http::string_body>`, with what is left in the buffer after it. -/
structure ParsedResponse where
  resultInt : ℕ
  reason : String
  body : String
  buffer : String

/-- What is asked of the network; `κ` are its endpoints. -/
inductive WireEvent (κ : Type) where
  | resolve (hostname service : String)
  | connect (endpoint : κ)
  /-- `SSL_set_tlsext_host_name`. -/
  | serverName (hostname : String)
  | handshake
  | write (tls : Bool) (request : Request)
  | read (tls : Bool)

/-- The answers of the network, by all that was asked so far. -/
structure Net (κ : Type) where
  resolve : List (WireEvent κ) → Except ErrorCode (List κ)
  connect : List (WireEvent κ) → Option ErrorCode
  serverName : List (WireEvent κ) → Bool
  handshake : List (WireEvent κ) → Option ErrorCode
  write : List (WireEvent κ) → Option ErrorCode
  read : List (WireEvent κ) → Option ErrorCode × ParsedResponse

abbrev Coro (κ : Type) := Dialog (WireEvent κ) SystemError

namespace BeastRequestContext

variable {κ : Type}

/-- `url_service` of `DnsResolve`. -/
def urlService (u : UrlAggregator) : String :=
  if u.getPort ≠ "" then u.getPort
  else if u.getProtocol ≠ "" then
    let chars := u.getProtocol.toList
    String.ofList (chars.take (chars.length - 1))
  else DefaultRequestService

def dnsResolve (net : Net κ) (u : UrlAggregator) : Coro κ (Except ErrorCode (List κ)) :=
  .ask (.resolve u.getHostname (urlService u)) net.resolve

/-- The loop of `TcpConnect`, which leaves the last error. -/
def tcpConnectAny (net : Net κ) : Option ErrorCode → List κ → Coro κ (Option ErrorCode)
  | ec, [] => pure ec
  | _, endpoint :: endpoints => do
    match ← .ask (.connect endpoint) net.connect with
    | none => pure none
    | some ec => tcpConnectAny net (some ec) endpoints

def tcpConnect (net : Net κ) (dnsResults : List κ) : Coro κ (Option ErrorCode) :=
  tcpConnectAny net none dnsResults

def sslConnect (net : Net κ) (u : UrlAggregator) : Coro κ (Option SystemError) := do
  if ← .ask (.serverName u.getHostname) net.serverName then
    match ← .ask .handshake net.handshake with
    | some ec => pure (some ⟨ec, "TLS handshake failed '" ++ u.getHostname ++ ":" ++ u.getPort ++ "'"⟩)
    | none => pure none
  else pure (some ⟨.protocolError, "SNI setup failed '" ++ u.getHostname ++ "'"⟩)

/-- The request of `MakeHttpRequest`. -/
def request (u : UrlAggregator) : Request where
  method := "GET"
  target := u.getPathname
  version := BasicHttpVersion
  host := u.getHostname
  userAgent := "Test/1.0"

def makeHttpRequest (net : Net κ) (u : UrlAggregator) (tls : Bool) : Coro κ Response := do
  match ← .ask (.write tls (request u)) net.write with
  | some ec =>
    .fail ⟨ec, "Failed to send HTTP request: '" ++ u.getHostname ++ "' " ++ (request u).method ++ " " ++
      (request u).target⟩
  | none =>
    let (ec, response) ← .ask (.read tls) net.read
    match ec with
    | some ec =>
      .fail ⟨ec, "Failed to receive HTTP response: " ++ toString response.resultInt ++ " (" ++
        response.reason ++ ")"⟩
    | none => pure ⟨response.resultInt, if response.body ≠ "" then response.body else response.buffer⟩

/-- `GetAsyncImpl` of a URL that `UrlParse` accepted. -/
def getParsed (ssl : Bool) (net : Net κ) (u : UrlAggregator) : Coro κ Response := do
  match ← dnsResolve net u with
  | .error ec => .fail ⟨ec, "DNS resolve failed: '" ++ u.getHostname ++ "'"⟩
  | .ok dnsResults =>
    match ← tcpConnect net dnsResults with
    | some ec => .fail ⟨ec, "TCP connect failed: '" ++ u.getHostname ++ "'"⟩
    | none =>
      if u.getProtocol = TlsUrlProtocol then
        if ssl then
          match ← sslConnect net u with
          | some error => .fail error
          | none => makeHttpRequest net u true
        else .fail ⟨.protocolNotSupported, "TLS requested but HTTP client is built without SSL support"⟩
      else makeHttpRequest net u false

def getAsyncImpl (parse : Parse) (ssl : Bool) (net : Net κ) (url : String) : Coro κ Response :=
  match parse url with
  | none => .fail ⟨.invalidArgument, "URL parse failed: " ++ url⟩
  | some u => getParsed ssl net u

end BeastRequestContext

end TX.Http
