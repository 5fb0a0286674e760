import TxPkgAux.Impl.Http.BeastLiteClient
import Mathlib.Tactic.Tauto

/-!
# What of a URL goes on the wire

Whatever the network answers, a request that is issued is that of the URL's components
(`issues_wire`), and two URLs whose requests are equal are handled alike (`alike_of_wire`). So
the requests of two URLs differ exactly if the URLs differ in a component that is used
(`requests_differ_iff`): the search is not, and the protocol only where there is no port, and
for TLS.
-/

namespace TX.Http

/-- The components of a URL as the URL standard serializes them: a scheme that starts with a
letter, and a port in decimal or none. -/
structure UrlAggregator.Documented (u : UrlAggregator) : Prop where
  protocol : ∃ scheme, u.getProtocol = scheme ++ ":" ∧ ∃ c, scheme.toList.head? = some c ∧ c.isAlpha
  port : ∀ c ∈ u.getPort.toList, c.isDigit

/-- How a request goes on the wire. -/
@[ext]
structure WireRequest where
  tls : Bool
  hostname : String
  service : String
  target : String

/-- The two URLs differ in a component that the client uses. -/
def KeptApart (u u' : UrlAggregator) : Prop :=
  u.getHostname ≠ u'.getHostname ∨ u.getPort ≠ u'.getPort ∨ u.getPathname ≠ u'.getPathname ∨
    u.getProtocol ≠ u'.getProtocol ∧
      (u.getPort = "" ∨ u.getProtocol = TlsUrlProtocol ∨ u'.getProtocol = TlsUrlProtocol)

/-- The network answers: the host has an endpoint that takes connections, and TLS is set up. -/
structure Net.Answers {κ : Type} (net : Net κ) : Prop where
  resolve : ∀ said, ∃ endpoint endpoints, net.resolve said = .ok (endpoint :: endpoints)
  connect : ∀ said, net.connect said = none
  serverName : ∀ said, net.serverName said = true
  handshake : ∀ said, net.handshake said = none

namespace BeastRequestContext

variable {κ : Type} {parse : Parse} {ssl tls : Bool} {net net' : Net κ} {url url' : String}
  {u u' : UrlAggregator} {w w' : WireRequest} {P : WireEvent κ → Prop}

/-- The request `w` is issued for the URL: its host and service were resolved, and it was written. -/
def Issues (parse : Parse) (ssl : Bool) (net : Net κ) (url : String) (w : WireRequest) : Prop :=
  .resolve w.hostname w.service ∈ (getAsyncImpl parse ssl net url []).2 ∧
    ∃ request, .write w.tls request ∈ (getAsyncImpl parse ssl net url []).2 ∧ request.target = w.target

/-- The request of a URL. -/
def wire (u : UrlAggregator) : WireRequest where
  tls := u.getProtocol = TlsUrlProtocol
  hostname := u.getHostname
  service := urlService u
  target := u.getPathname

/-! ## What is asked of the network -/

/-- What is resolved and written for a URL. -/
def OfUrl (u : UrlAggregator) : WireEvent κ → Prop
  | .resolve hostname service => hostname = u.getHostname ∧ service = urlService u
  | .serverName hostname => hostname = u.getHostname
  | .write tls r => tls = (wire u).tls ∧ r = request u
  | _ => True

theorem says_tcpConnectAny (hP : ∀ endpoint, P (.connect endpoint)) (endpoints : List κ) :
    ∀ ec, Dialog.Says P (tcpConnectAny net ec endpoints) := by
  induction endpoints with
  | nil => exact fun ec => Dialog.says_pure ec
  | cons endpoint endpoints ih =>
    intro ec
    refine (Dialog.says_ask (hP endpoint) _).bind fun answer => ?_
    cases answer with
    | none => exact Dialog.says_pure none
    | some ec => exact ih (some ec)

theorem says_sslConnect : Dialog.Says (OfUrl u) (sslConnect net u) := by
  have hname : OfUrl u (.serverName u.getHostname : WireEvent κ) := rfl
  refine (Dialog.says_ask hname _).bind fun accepted => ?_
  cases accepted with
  | false => exact Dialog.says_pure _
  | true =>
    refine (Dialog.says_ask trivial _).bind fun answer => ?_
    cases answer <;> exact Dialog.says_pure _

theorem says_makeHttpRequest (htls : tls = (wire u).tls) :
    Dialog.Says (OfUrl u) (makeHttpRequest net u tls) := by
  refine (Dialog.says_ask ⟨htls, rfl⟩ _).bind fun sent => ?_
  cases sent with
  | some ec => exact Dialog.says_fail _
  | none =>
    refine (Dialog.says_ask trivial _).bind fun received => ?_
    obtain ⟨ec, response⟩ := received
    cases ec with
    | some ec => exact Dialog.says_fail _
    | none => exact Dialog.says_pure _

theorem says_getParsed : Dialog.Says (OfUrl u) (getParsed ssl net u) := by
  refine (Dialog.says_ask ⟨rfl, rfl⟩ _).bind fun results => ?_
  cases results with
  | error ec => exact Dialog.says_fail _
  | ok results =>
    refine (says_tcpConnectAny (fun _ => trivial) results none).bind fun connected => ?_
    cases connected with
    | some ec => exact Dialog.says_fail _
    | none =>
      dsimp only
      split
      · rename_i hp
        split
        · refine says_sslConnect.bind fun handshaken => ?_
          cases handshaken with
          | some error => exact Dialog.says_fail _
          | none => exact says_makeHttpRequest (by simp [wire, hp])
        · exact Dialog.says_fail _
      · rename_i hp
        exact says_makeHttpRequest (by simp [wire, hp])

/-- Whatever the network answers, the request that is issued is that of the URL. -/
theorem issues_wire (hu : parse url = some u) (hw : Issues parse ssl net url w) : w = wire u := by
  have hrun : getAsyncImpl parse ssl net url = getParsed ssl net u := by simp [getAsyncImpl, hu]
  obtain ⟨hresolve, r, hwrite, htarget⟩ := hw
  rw [hrun] at hresolve hwrite
  obtain ⟨hhost, hservice⟩ := says_getParsed.mem hresolve
  obtain ⟨htls, rfl⟩ := says_getParsed.mem hwrite
  obtain ⟨tls, hostname, service, target⟩ := w
  simp only at hhost hservice htls htarget
  rw [hhost, hservice, htls, ← htarget]
  rfl

/-! ## Two URLs with equal requests -/

theorem makeHttpRequest_congr (hhost : u.getHostname = u'.getHostname)
    (hpath : u.getPathname = u'.getPathname) :
    makeHttpRequest net u tls = makeHttpRequest net u' tls := by
  simp only [makeHttpRequest, request, hhost, hpath]

theorem alike_sslConnect (hhost : u.getHostname = u'.getHostname) {α : Type}
    {k k' : Option SystemError → Coro κ α} (hnone : Dialog.Alike (k none) (k' none))
    (hsome : ∀ error error', Dialog.Alike (k (some error)) (k' (some error'))) :
    Dialog.Alike (sslConnect net u >>= k) (sslConnect net u' >>= k') := by
  simp only [sslConnect, hhost, Dialog.bind_assoc]
  refine (Dialog.Alike.refl _).bind fun accepted => ?_
  cases accepted with
  | false => exact hsome _ _
  | true =>
    simp only [if_true, Dialog.bind_assoc]
    refine (Dialog.Alike.refl _).bind fun answer => ?_
    cases answer with
    | none => exact hnone
    | some ec => exact hsome _ _

theorem alike_getParsed (hw : wire u = wire u') :
    Dialog.Alike (getParsed ssl net u) (getParsed ssl net u') := by
  obtain ⟨htls, hhost, hservice, hpath⟩ := WireRequest.mk.inj hw
  rw [decide_eq_decide] at htls
  simp only [getParsed, dnsResolve, hhost, hservice]
  refine (Dialog.Alike.refl _).bind fun results => ?_
  cases results with
  | error ec => exact Dialog.alike_fail _ _
  | ok results =>
    refine (Dialog.Alike.refl _).bind fun connected => ?_
    cases connected with
    | some ec => exact Dialog.alike_fail _ _
    | none =>
      simp only [htls, makeHttpRequest_congr hhost hpath]
      split
      · split
        · exact alike_sslConnect hhost (Dialog.Alike.refl _) fun _ _ => Dialog.alike_fail _ _
        · exact Dialog.alike_fail _ _
      · exact Dialog.Alike.refl _

/-- The network sees no difference between two URLs whose requests are equal, and they get the
same response. -/
theorem alike_of_wire (hu : parse url = some u) (hu' : parse url' = some u') (hw : wire u = wire u') :
    Dialog.Alike (getAsyncImpl parse ssl net url) (getAsyncImpl parse ssl net url') := by
  simp only [getAsyncImpl, hu, hu']
  exact alike_getParsed hw

/-! ## The components of a URL -/

theorem urlService_of_port (hport : u.getPort ≠ "") : urlService u = u.getPort := if_pos hport

/-- Without a port, the service is the scheme. -/
theorem urlService_of_no_port (h : u.Documented) (hport : u.getPort = "") :
    u.getProtocol = urlService u ++ ":" ∧ ∃ c, (urlService u).toList.head? = some c ∧ c.isAlpha := by
  obtain ⟨scheme, hp, hc⟩ := h.protocol
  have hne : u.getProtocol ≠ "" := by simp [hp]
  have hscheme : urlService u = scheme := by simp [urlService, hport, hp]
  exact hscheme ▸ ⟨hp, hc⟩

theorem not_isDigit_of_isAlpha {c : Char} (h : c.isAlpha) : ¬ c.isDigit := by
  have hupper : c.isUpper = decide (c.val ≥ 'A'.val ∧ c.val ≤ 'Z'.val) := rfl
  have hlower : c.isLower = (decide (c.val ≥ 'a'.val) && decide (c.val ≤ 'z'.val)) := rfl
  have hdigit : c.isDigit = (decide (c.val ≥ '0'.val) && decide (c.val ≤ '9'.val)) := rfl
  have hor : (c.isUpper || c.isLower) = true := h
  rw [hupper, hlower] at hor
  rw [hdigit]
  grind

/-- A port is no scheme. -/
theorem urlService_ne (h : u.Documented) (h' : u'.Documented) (hport : u.getPort = "")
    (hport' : u'.getPort ≠ "") : urlService u ≠ urlService u' := by
  obtain ⟨-, c, hc, halpha⟩ := urlService_of_no_port h hport
  intro heq
  rw [heq, urlService_of_port hport'] at hc
  exact not_isDigit_of_isAlpha halpha (h'.port c (List.mem_of_head? hc))

theorem urlService_eq_iff (h : u.Documented) (h' : u'.Documented) :
    urlService u = urlService u' ↔
      u.getPort = u'.getPort ∧ (u.getPort = "" → u.getProtocol = u'.getProtocol) := by
  by_cases hport : u.getPort = "" <;> by_cases hport' : u'.getPort = ""
  · rw [(urlService_of_no_port h hport).1, (urlService_of_no_port h' hport').1]
    simp [hport, hport']
  · exact iff_of_false (urlService_ne h h' hport hport') fun he => hport' (he.1 ▸ hport)
  · exact iff_of_false (urlService_ne h' h hport' hport).symm fun he => hport (he.1 ▸ hport')
  · rw [urlService_of_port hport, urlService_of_port hport']
    simp [hport]

/-- Two requests are equal where the hostname, the port and the path are, and the protocol is not
used to tell them apart. -/
theorem wire_eq_iff (h : u.Documented) (h' : u'.Documented) :
    wire u = wire u' ↔ (u.getProtocol = TlsUrlProtocol ↔ u'.getProtocol = TlsUrlProtocol) ∧
      u.getHostname = u'.getHostname ∧
      (u.getPort = u'.getPort ∧ (u.getPort = "" → u.getProtocol = u'.getProtocol)) ∧
      u.getPathname = u'.getPathname := by
  rw [wire, wire, WireRequest.mk.injEq, decide_eq_decide, urlService_eq_iff h h']

theorem wire_ne_iff (h : u.Documented) (h' : u'.Documented) : wire u ≠ wire u' ↔ KeptApart u u' := by
  rw [Ne, wire_eq_iff h h']
  constructor
  · intro hne
    by_contra hk
    simp only [KeptApart, not_or, not_and, not_not] at hk
    obtain ⟨hhost, hport, hpath, hprotocol⟩ := hk
    have hsame : u.getPort = "" → u.getProtocol = u'.getProtocol := by
      intro he
      by_contra hp
      exact (hprotocol hp).1 he
    refine hne ⟨?_, hhost, ⟨hport, hsame⟩, hpath⟩
    by_cases hp : u.getProtocol = u'.getProtocol
    · rw [hp]
    · exact iff_of_false (hprotocol hp).2.1 (hprotocol hp).2.2
  · rintro (hhost | hport | hpath | ⟨hp, hused⟩) ⟨htls, heq, ⟨hports, hsame⟩, hpaths⟩
    · exact hhost heq
    · exact hport hports
    · exact hpath hpaths
    · obtain he | hu | hu' := hused
      · exact hp (hsame he)
      · exact hp (hu.trans (htls.mp hu).symm)
      · exact hp ((htls.mpr hu').trans hu'.symm)

/-! ## The requests -/

theorem tcpConnect_of_answers (hnet : net.Answers) (endpoint : κ) (endpoints : List κ)
    (said : List (WireEvent κ)) :
    tcpConnect net (endpoint :: endpoints) said = (.ok none, .connect endpoint :: said) := by
  rw [tcpConnect, tcpConnectAny, Dialog.ask_bind, hnet.connect]
  rfl

theorem sslConnect_of_answers (hnet : net.Answers) (said : List (WireEvent κ)) :
    sslConnect net u said = (.ok none, .handshake :: .serverName u.getHostname :: said) := by
  rw [sslConnect, Dialog.ask_bind, hnet.serverName, if_pos rfl, Dialog.ask_bind, hnet.handshake]
  rfl

theorem write_asked (said : List (WireEvent κ)) :
    .write tls (request u) ∈ (makeHttpRequest net u tls said).2 := by
  rw [makeHttpRequest, Dialog.ask_bind]
  cases net.write (.write tls (request u) :: said) with
  | some ec => exact List.mem_cons_self ..
  | none =>
    dsimp only
    rw [Dialog.ask_bind]
    obtain ⟨ec, response⟩ := net.read (.read tls :: .write tls (request u) :: said)
    cases ec <;> exact List.mem_cons_of_mem _ (List.mem_cons_self ..)

/-- On a network that answers, the request is issued. -/
theorem issues_of_answers (hnet : net.Answers) (hu : parse url = some u)
    (hssl : u.getProtocol = TlsUrlProtocol → ssl = true) : Issues parse ssl net url (wire u) := by
  have hrun : ∃ said, getAsyncImpl parse ssl net url [] = makeHttpRequest net u (wire u).tls said ∧
      .resolve u.getHostname (urlService u) ∈ said := by
    obtain ⟨endpoint, endpoints, hr⟩ := hnet.resolve [.resolve u.getHostname (urlService u)]
    simp only [getAsyncImpl, hu]
    rw [getParsed, dnsResolve, Dialog.ask_bind, hr]
    dsimp only
    rw [Dialog.bind_ok (tcpConnect_of_answers hnet endpoint endpoints _)]
    by_cases hp : u.getProtocol = TlsUrlProtocol
    · have htls : (wire u).tls = true := by simp [wire, hp]
      simp only [hp, hssl hp, if_true]
      rw [Dialog.bind_ok (sslConnect_of_answers hnet _), htls]
      exact ⟨_, rfl, by simp⟩
    · have htls : (wire u).tls = false := by simp [wire, hp]
      simp only [hp, if_false]
      rw [htls]
      exact ⟨_, rfl, by simp⟩
  obtain ⟨said, hrun, hresolve⟩ := hrun
  rw [Issues, hrun]
  exact ⟨(says_makeHttpRequest rfl).subset said hresolve, request u, write_asked said, rfl⟩

/-- The requests of two URLs differ exactly if the client uses a component in which the URLs
differ. -/
theorem requests_differ_iff (hada : ∀ url u, parse url = some u → u.Documented)
    (hu : parse url = some u) (hu' : parse url' = some u')
    (hw : Issues parse ssl net url w) (hw' : Issues parse ssl net' url' w') :
    (w.tls ≠ w'.tls ∨ w.hostname ≠ w'.hostname ∨ w.service ≠ w'.service ∨ w.target ≠ w'.target) ↔
      KeptApart u u' := by
  obtain rfl := issues_wire hu hw
  obtain rfl := issues_wire hu' hw'
  rw [← wire_ne_iff (hada url u hu) (hada url' u' hu')]
  simp only [Ne, WireRequest.ext_iff]
  tauto

/-- ada on some URLs of a local server. -/
def localUrls : Parse
  | "http://localhost:8080/get?a=1" => some ⟨"http:", "localhost", "8080", "/get", "?a=1"⟩
  | "http://localhost:8080/get?a=2" => some ⟨"http:", "localhost", "8080", "/get", "?a=2"⟩
  | "http://localhost:8080/status?a=1" => some ⟨"http:", "localhost", "8080", "/status", "?a=1"⟩
  | _ => none

theorem localUrls_documented (url : String) (u : UrlAggregator) (h : localUrls url = some u) :
    u.Documented := by
  simp only [localUrls] at h
  split at h <;> cases h <;> exact ⟨⟨"http", rfl, 'h', rfl, rfl⟩, by simp⟩

/-- A network on which every request is answered. -/
def localNet : Net Unit where
  resolve _ := .ok [()]
  connect _ := none
  serverName _ := true
  handshake _ := none
  write _ := none
  read _ := (none, ⟨200, "OK", "ok", ""⟩)

theorem localNet_answers : localNet.Answers :=
  ⟨fun _ => ⟨(), [], rfl⟩, fun _ => rfl, fun _ => rfl, fun _ => rfl⟩

/-- Two paths: the targets differ. -/
theorem requests_differ_iff_paths : ∃ w w',
    Issues localUrls true localNet "http://localhost:8080/get?a=1" w ∧
      Issues localUrls true localNet "http://localhost:8080/status?a=1" w' ∧
      (w.tls ≠ w'.tls ∨ w.hostname ≠ w'.hostname ∨ w.service ≠ w'.service ∨ w.target ≠ w'.target) := by
  have hget : localUrls "http://localhost:8080/get?a=1" =
      some ⟨"http:", "localhost", "8080", "/get", "?a=1"⟩ := by simp [localUrls]
  have hstatus : localUrls "http://localhost:8080/status?a=1" =
      some ⟨"http:", "localhost", "8080", "/status", "?a=1"⟩ := by simp [localUrls]
  have hw : Issues localUrls true localNet _ _ := issues_of_answers localNet_answers hget fun _ => rfl
  have hw' : Issues localUrls true localNet _ _ := issues_of_answers localNet_answers hstatus fun _ => rfl
  exact ⟨_, _, hw, hw', (requests_differ_iff localUrls_documented hget hstatus hw hw').mpr
    (.inr (.inr (.inl (by simp))))⟩

/-- Two queries: nothing on the wire differs. -/
theorem requests_not_always_differ : ¬ ∀ (κ : Type) (parse : Parse) (ssl : Bool) (net net' : Net κ)
    (url url' : String) (u u' : UrlAggregator) (w w' : WireRequest),
    (∀ url u, parse url = some u → u.Documented) → parse url = some u → parse url' = some u' →
      u ≠ u' → Issues parse ssl net url w → Issues parse ssl net' url' w' →
      w.tls ≠ w'.tls ∨ w.hostname ≠ w'.hostname ∨ w.service ≠ w'.service ∨ w.target ≠ w'.target := by
  intro h
  have hget : localUrls "http://localhost:8080/get?a=1" =
      some ⟨"http:", "localhost", "8080", "/get", "?a=1"⟩ := by simp [localUrls]
  have hget' : localUrls "http://localhost:8080/get?a=2" =
      some ⟨"http:", "localhost", "8080", "/get", "?a=2"⟩ := by simp [localUrls]
  have hw : Issues localUrls true localNet _ _ := issues_of_answers localNet_answers hget fun _ => rfl
  have hw' : Issues localUrls true localNet _ _ := issues_of_answers localNet_answers hget' fun _ => rfl
  have hd := h Unit localUrls true localNet localNet _ _ _ _ _ _ localUrls_documented hget hget'
    (by simp) hw hw'
  simp [wire, urlService] at hd

end BeastRequestContext

end TX.Http
