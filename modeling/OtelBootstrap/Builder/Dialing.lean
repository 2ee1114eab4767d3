import OtelBootstrap.Builder.Connect

/-! # The host that an attempt dials -/

namespace OtelBootstrap.Builder

/-! ## Hosts -/

/-- `http::Uri::host` keeps the brackets of an IP literal. -/
def Bracketed (host : String) : Prop :=
  ∃ address : List Char, host.toList = '[' :: address ++ [']']

/-- The host itself: an address is not bracketed outside of a URI. -/
def namedHost (host : String) : String :=
  match host.toList with
  | '[' :: rest => if rest.getLast? = some ']' then String.ofList rest.dropLast else host
  | _ => host

theorem namedHost_of_not_bracketed {host : String} (h : ¬ Bracketed host) :
    namedHost host = host := by
  unfold namedHost
  split
  · rename_i rest hrest
    refine if_neg fun hlast => h ⟨rest.dropLast, ?_⟩
    rw [hrest, List.cons_append, List.dropLast_append_getLast? _ hlast]
  · rfl

theorem namedHost_ne_of_bracketed {host : String} (h : Bracketed host) :
    namedHost host ≠ host := by
  obtain ⟨address, haddress⟩ := h
  have hnamed : namedHost host = String.ofList address := by
    unfold namedHost
    rw [haddress, List.cons_append]
    simp
  intro heq
  have hlength := congrArg (fun s => s.toList.length) (hnamed.symm.trans heq)
  simp only [haddress, String.toList_ofList, List.length_append, List.length_cons,
    List.length_nil] at hlength
  omega

theorem namedHost_eq_iff {host : String} : namedHost host = host ↔ ¬ Bracketed host :=
  ⟨fun h hbracketed => namedHost_ne_of_bracketed hbracketed h, namedHost_of_not_bracketed⟩

/-! ## Attempts on one URI -/

section On

variable {Certificate : Type} {tls : TlsLibrary Certificate} {uri : Uri} {i : ℕ}

/-- An attempt takes its host from the URI it was called with, and keeps it for the server
name. -/
def ConnectStage.On (tls : TlsLibrary Certificate) (uri : Uri) : ConnectStage → Prop
  | .called uri' => uri' = uri
  | .dialing text _ => uri.host = some text
  | .handshaking text _ => uri.host = some text ∧ tls.serverName text = .ok ()
  | .connected text _ _ => uri.host = some text ∧ tls.serverName text = .ok ()
  | .failed _ => True
  | .dropped => True

def ConnectEvent.On (uri : Uri) : ConnectEvent → Prop
  | .dialed _ text port => uri.host = some text ∧ port = uri.port.getD 443
  | _ => True

theorem on_startConnect (current : Option MtlsMaterial) :
    (startConnect tls i current uri).1.On tls uri ∧
      ∀ event ∈ (startConnect tls i current uri).2, event.On uri := by
  unfold startConnect
  cases hhost : uri.host with
  | none => exact ⟨trivial, by simp⟩
  | some host =>
      cases current with
      | none => exact ⟨trivial, by simp [ConnectEvent.On]⟩
      | some material =>
          dsimp only
          cases clientConfig tls material with
          | error e => exact ⟨trivial, by simp [ConnectEvent.On]⟩
          | ok config => exact ⟨hhost, by simp [ConnectEvent.On, hhost]⟩

theorem on_continueDialed {text : String} (h : uri.host = some text) (config : ClientConfig)
    (stream nodelay : Except String Unit) :
    (continueDialed tls text config stream nodelay).On tls uri := by
  unfold continueDialed
  split
  · trivial
  · rename_i hname
    obtain ⟨_, -, hname⟩ := Attempt.bind_eq_ok.mp hname
    obtain ⟨_, -, hname⟩ := Attempt.bind_eq_ok.mp hname
    exact ⟨h, hname⟩

/-- After the handshake nothing more is dialed. -/
theorem Advanced.on_handshaking {expectedId : Option String} {current : Option MtlsMaterial}
    {text : String} {config : ClientConfig} {next : ConnectStage} {events : List ConnectEvent}
    (h : Advanced tls i expectedId current (.handshaking text config) next events)
    (hstage : (ConnectStage.handshaking text config).On tls uri) :
    next.On tls uri ∧ ∀ event ∈ events, event.On uri := by
  cases h with
  | idle => exact ⟨hstage, by simp⟩
  | failed hopen => exact ⟨trivial, by simp⟩
  | dropped hopen => exact ⟨trivial, by simp⟩
  | connected hid hwarnings =>
      refine ⟨hstage, List.forall_mem_append.mpr ⟨?_, by simp [ConnectEvent.On]⟩⟩
      intro event hwarning
      rw [hwarnings event hwarning]
      trivial

theorem on_advance {stage : ConnectStage} (h : stage.On tls uri) (self : RotatingConnector)
    (initial : ℕ → Option MtlsMaterial) (log : List ConnectEvent) (input : ConnectInput) :
    (self.advance tls i initial log stage input).1.On tls uri ∧
      ∀ event ∈ (self.advance tls i initial log stage input).2, event.On uri := by
  have hnone : ∀ event ∈ ([] : List ConnectEvent), event.On uri := by simp
  cases stage with
  | called uri' =>
      obtain rfl : uri' = uri := h
      cases input with
      | poll => exact on_startConnect _
      | drop => exact ⟨trivial, hnone⟩
      | _ => exact ⟨rfl, hnone⟩
  | dialing text config =>
      cases input with
      | tcp stream nodelay => exact ⟨on_continueDialed h config stream nodelay, hnone⟩
      | drop => exact ⟨trivial, hnone⟩
      | _ => exact ⟨h, hnone⟩
  | handshaking text config => exact (advanced_advance self initial log _ input).on_handshaking h
  | _ => exact ⟨h, hnone⟩

end On

/-! ## Runs on one URI -/

namespace Connections

variable {Certificate : Type} (tls : TlsLibrary Certificate) (connector : RotatingConnector)
  (initial : ℕ → Option MtlsMaterial) (uri : Uri)

structure OnUri (w : Connections) : Prop where
  stages : ∀ stage ∈ w.attempts, stage.On tls uri
  events : ∀ event ∈ w.log, event.On uri

variable {tls connector initial uri} {w : Connections}

theorem OnUri.step (hw : OnUri tls uri w) (input : ChannelInput)
    (hcall : ∀ uri', input = .call uri' → uri' = uri) :
    OnUri tls uri (w.step tls connector initial input) := by
  cases input with
  | rotate source value =>
      refine ⟨hw.stages, List.forall_mem_append.mpr ⟨hw.events, ?_⟩⟩
      simp [ConnectEvent.On]
  | call uri' =>
      refine ⟨List.forall_mem_append.mpr ⟨hw.stages, ?_⟩,
        List.forall_mem_append.mpr ⟨hw.events, ?_⟩⟩
      · simpa [ConnectStage.On] using hcall uri' rfl
      · simp [ConnectEvent.On]
  | attempt i input =>
      simp only [Connections.step]
      cases hi : w.attempts[i]? with
      | none => exact hw
      | some stage =>
          obtain ⟨hstage, hevents⟩ := on_advance
            (hw.stages stage (List.mem_of_getElem? hi)) connector initial w.log input
          refine ⟨?_, List.forall_mem_append.mpr ⟨hw.events, hevents⟩⟩
          intro other hmem
          rcases List.mem_or_eq_of_mem_set hmem with hold | hnew
          · exact hw.stages other hold
          · rw [hnew]
            exact hstage

theorem OnUri.run (hw : OnUri tls uri w) (inputs : List ChannelInput)
    (hcalls : ∀ uri', .call uri' ∈ inputs → uri' = uri) :
    OnUri tls uri (w.run tls connector initial inputs) := by
  induction inputs generalizing w with
  | nil => exact hw
  | cons input inputs ih =>
      have hstep : OnUri tls uri (w.step tls connector initial input) :=
        hw.step input fun uri' heq => hcalls uri' (heq ▸ List.mem_cons_self)
      exact ih hstep fun uri' hmem => hcalls uri' (List.mem_cons_of_mem input hmem)

/-- The log only grows. -/
theorem mem_log_run {event : ConnectEvent} (h : event ∈ w.log) (inputs : List ChannelInput) :
    event ∈ (w.run tls connector initial inputs).log := by
  induction inputs generalizing w with
  | nil => exact h
  | cons input inputs ih =>
      apply ih
      cases input with
      | rotate source value => exact List.mem_append_left _ h
      | call uri => exact List.mem_append_left _ h
      | attempt i input =>
          simp only [step]
          split
          · exact h
          · exact List.mem_append_left _ h

/-- An attempt with usable material dials the host of its URI. -/
theorem dialed_of_usable {i : ℕ} {host : String} {material : MtlsMaterial}
    {config : ClientConfig} (hi : w.attempts[i]? = some (.called uri))
    (hhost : uri.host = some host)
    (hcurrent : connector.source.current initial w.log = some material)
    (hconfig : clientConfig tls material = .ok config) :
    let next := w.step tls connector initial (.attempt i .poll)
    .dialed i host (uri.port.getD 443) ∈ next.log ∧
      next.attempts[i]? = some (.dialing host config) := by
  obtain ⟨hlt, -⟩ := List.getElem?_eq_some_iff.mp hi
  simp only [step, hi, RotatingConnector.advance, startConnect, hhost, hcurrent, hconfig]
  refine ⟨List.mem_append_right _ (by simp), ?_⟩
  exact List.getElem?_set_self hlt

/-- Where the stream opens, the attempt goes on exactly as the server name allows. -/
theorem continued_of_opened {i : ℕ} {host : String} {config : ClientConfig}
    (hi : w.attempts[i]? = some (.dialing host config)) :
    (w.step tls connector initial (.attempt i (.tcp (.ok ()) (.ok ())))).attempts[i]? =
      some (match tls.serverName host with
        | .error e => .failed e
        | .ok () => .handshaking host config) := by
  obtain ⟨hlt, -⟩ := List.getElem?_eq_some_iff.mp hi
  simp only [step, hi, RotatingConnector.advance]
  rw [List.getElem?_set_self hlt]
  rfl

variable (tls connector initial)

/-- What the attempts of a run do when they dial `host` and `port`, and verify the peer
against `host`. -/
structure Dials (host : String) (port : ℕ) (inputs : List ChannelInput) : Prop where
  dialed : ∀ (i : ℕ) (text : String) (port' : ℕ),
    .dialed i text port' ∈ (run tls connector initial {} inputs).log → text = host ∧ port' = port
  verified : ∀ (i : ℕ) (text : String) (config : ClientConfig)
      (peer : Option (List CertificateDer)),
    (run tls connector initial {} inputs).attempts[i]? = some (.handshaking text config) ∨
      (run tls connector initial {} inputs).attempts[i]? = some (.connected text config peer) →
    text = host
  /-- An attempt that has usable material does dial. -/
  dials : ∀ (front : List ChannelInput) (i : ℕ) (uri : Uri) (back : List ChannelInput)
      (material : MtlsMaterial) (config : ClientConfig),
    inputs = front ++ .attempt i .poll :: back →
    (run tls connector initial {} front).attempts[i]? = some (.called uri) →
    connector.source.current initial (run tls connector initial {} front).log = some material →
    clientConfig tls material = .ok config →
    .dialed i host port ∈ (run tls connector initial {} inputs).log
  /-- An attempt whose stream opens does verify the peer. -/
  verifies : ∀ (front : List ChannelInput) (i : ℕ) (text : String) (config : ClientConfig),
    inputs = front ++ [.attempt i (.tcp (.ok ()) (.ok ()))] →
    (run tls connector initial {} front).attempts[i]? = some (.dialing text config) →
    (run tls connector initial {} inputs).attempts[i]? = some (.handshaking host config)

variable {tls connector initial}

theorem onUri_start : OnUri tls uri {} where
  stages := by simp
  events := by simp

theorem run_snoc (w : Connections) (inputs : List ChannelInput) (input : ChannelInput) :
    w.run tls connector initial (inputs ++ [input]) =
      (w.run tls connector initial inputs).step tls connector initial input :=
  List.foldl_concat ..

theorem dials_own_host {host : String} (hhost : uri.host = some host)
    (hname : tls.serverName host = .ok ()) {inputs : List ChannelInput}
    (hcalls : ∀ uri', .call uri' ∈ inputs → uri' = uri) :
    Dials tls connector initial host (uri.port.getD 443) inputs := by
  have hon : ∀ inputs : List ChannelInput, (∀ uri', .call uri' ∈ inputs → uri' = uri) →
      OnUri tls uri (run tls connector initial {} inputs) :=
    fun inputs hcalls => onUri_start.run inputs hcalls
  constructor
  · intro i text port' hmem
    obtain ⟨htext, hport⟩ := (hon inputs hcalls).events _ hmem
    exact ⟨Option.some.inj (htext.symm.trans hhost), hport⟩
  · rintro i text config peer (hi | hi)
    · obtain ⟨htext, -⟩ := (hon inputs hcalls).stages _ (List.mem_of_getElem? hi)
      exact Option.some.inj (htext.symm.trans hhost)
    · obtain ⟨htext, -⟩ := (hon inputs hcalls).stages _ (List.mem_of_getElem? hi)
      exact Option.some.inj (htext.symm.trans hhost)
  · rintro front i uri' back material config rfl hi hcurrent hconfig
    have hfront := hon front fun uri' hmem => hcalls uri' (List.mem_append_left _ hmem)
    obtain rfl : uri' = uri := hfront.stages _ (List.mem_of_getElem? hi)
    have hdialed := (dialed_of_usable hi hhost hcurrent hconfig).1
    have hsplit : run tls connector initial {} (front ++ .attempt i .poll :: back) =
        ((run tls connector initial {} front).step tls connector initial
          (.attempt i .poll)).run tls connector initial back :=
      List.foldl_append ..
    rw [hsplit]
    exact mem_log_run hdialed back
  · rintro front i text config rfl hi
    have hfront := hon front fun uri' hmem => hcalls uri' (List.mem_append_left _ hmem)
    have htext : uri.host = some text := hfront.stages _ (List.mem_of_getElem? hi)
    obtain rfl : host = text := Option.some.inj (hhost.symm.trans htext)
    rw [run_snoc, continued_of_opened hi, hname]

end Connections

/-! ## The endpoint's host -/

/-- The host and the port of a URI are parts of its authority, which a URI rebuilt from it
keeps. -/
structure UriLibrary.KeepsAuthority (uris : UriLibrary) : Prop where
  parts : ∀ text text' uri uri', uris.parse text = .ok uri → uris.parse text' = .ok uri' →
    uri.authority = uri'.authority → uri.host = uri'.host ∧ uri.port = uri'.port
  hosted : ∀ text uri authority, uris.parse text = .ok uri → uri.authority = some authority →
    ∃ host, uri.host = some host
  rebuilt : ∀ text uri authority, uris.parse text = .ok uri → uri.authority = some authority →
    uris.fromShared ("http://" ++ authority) = .ok () →
    ∃ uri', uris.parse ("http://" ++ authority) = .ok uri' ∧ uri'.authority = some authority

section Endpoint

variable {Certificate : Type} (tls : TlsLibrary Certificate) (uris : UriLibrary)

/-- Whatever its source, the attempts of a channel on its own URI dial the host and the port
that the endpoint names. -/
def DialsEndpoint (endpoint : String) : Prop :=
  ∀ parsed host, uris.parse endpoint = .ok parsed → parsed.host = some host →
    ∀ source timeout expectedId made, channel uris endpoint source timeout expectedId = .ok made →
      ∀ uri, uris.parse made.endpoint = .ok uri →
        ∀ (initial : ℕ → Option MtlsMaterial) (inputs : List ChannelInput),
          (∀ uri', .call uri' ∈ inputs → uri' = uri) →
          Connections.Dials tls made.connector initial (namedHost host) (parsed.port.getD 443)
            inputs

variable {tls uris} {endpoint : String} {source : CertSource} {timeout : Option Boot.Duration}
  {expectedId : Option String} {made : Channel} {parsed : Uri}

/-- A channel's own URI has the endpoint's host and port. -/
theorem own_uri (huris : uris.KeepsAuthority) (hparse : uris.parse endpoint = .ok parsed)
    (hmade : channel uris endpoint source timeout expectedId = .ok made) :
    ∃ uri host, uris.parse made.endpoint = .ok uri ∧ parsed.host = some host ∧
      uri.host = some host ∧ uri.port = parsed.port := by
  obtain ⟨parsed', authority, hparse', hauthority, hshared, rfl⟩ := channel_eq_ok_iff.mp hmade
  obtain rfl : parsed = parsed' := Except.ok.inj (hparse.symm.trans hparse')
  obtain ⟨uri, huri, hkept⟩ := huris.rebuilt endpoint parsed authority hparse hauthority hshared
  obtain ⟨host, hhost⟩ := huris.hosted endpoint parsed authority hparse hauthority
  obtain ⟨hsame, hport⟩ := huris.parts _ _ uri parsed huri hparse (hkept.trans hauthority.symm)
  exact ⟨uri, host, huri, hhost, hsame.trans hhost, hport⟩

/-- A server name that is its own host is dialed and verified. -/
theorem dials_of_nameable (huris : uris.KeepsAuthority)
    (h : ∀ parsed host, uris.parse endpoint = .ok parsed → parsed.host = some host →
      ¬ Bracketed host ∧ tls.serverName host = .ok ()) : DialsEndpoint tls uris endpoint := by
  intro parsed host hparse hhost source timeout expectedId made hmade uri huri initial inputs hcalls
  obtain ⟨uri', host', huri', hhost', hsame, hport⟩ := own_uri huris hparse hmade
  obtain rfl : uri = uri' := Except.ok.inj (huri.symm.trans huri')
  obtain rfl : host = host' := Option.some.inj (hhost.symm.trans hhost')
  obtain ⟨hplain, hname⟩ := h parsed host hparse hhost
  rw [namedHost_of_not_bracketed hplain, ← hport]
  exact Connections.dials_own_host hsame hname hcalls

/-- Whether an endpoint is accepted does not depend on the source. -/
theorem channel_with_source (hmade : channel uris endpoint source timeout expectedId = .ok made)
    (source' : CertSource) :
    channel uris endpoint source' timeout expectedId =
      .ok { made with connector := { source := source', expectedId } } := by
  obtain ⟨parsed, authority, hparse, hauthority, hshared, rfl⟩ := channel_eq_ok_iff.mp hmade
  exact channel_eq_ok_iff.mpr ⟨parsed, authority, hparse, hauthority, hshared, rfl⟩

/-- The first attempt that has usable material dials the text of the URI's host, brackets
included, and verifies no peer where that text is no server name. -/
theorem nameable_of_dials (huris : uris.KeepsAuthority) {material : MtlsMaterial}
    {config : ClientConfig} (hconfig : clientConfig tls material = .ok config)
    (hmade : channel uris endpoint source timeout expectedId = .ok made) {host : String}
    (hparse : uris.parse endpoint = .ok parsed) (hhost : parsed.host = some host)
    (h : DialsEndpoint tls uris endpoint) : ¬ Bracketed host ∧ tls.serverName host = .ok () := by
  have hstatic := channel_with_source hmade (.static material)
  obtain ⟨uri, host', huri, hhost', hsame, -⟩ := own_uri huris hparse hstatic
  obtain rfl : host = host' := Option.some.inj (hhost.symm.trans hhost')
  let connector : RotatingConnector := ⟨.static material, expectedId⟩
  let called := Connections.run tls connector (fun _ => none) {} [.call uri]
  have hcalled : called.attempts[0]? = some (.called uri) := rfl
  have hcurrent : connector.source.current (fun _ => none) called.log = some material := rfl
  obtain ⟨hdialed, hdialing⟩ := Connections.dialed_of_usable hcalled hsame hcurrent hconfig
  have hplain : ¬ Bracketed host := by
    rw [← namedHost_eq_iff]
    have hdials := h parsed host hparse hhost _ _ _ _ hstatic uri huri (fun _ => none)
      [.call uri, .attempt 0 .poll] (by simp)
    exact (hdials.dialed 0 host _ hdialed).1.symm
  refine ⟨hplain, ?_⟩
  have hdials := h parsed host hparse hhost _ _ _ _ hstatic uri huri (fun _ => none)
    [.call uri, .attempt 0 .poll, .attempt 0 (.tcp (.ok ()) (.ok ()))] (by simp)
  have hhandshaking := hdials.verifies [.call uri, .attempt 0 .poll] 0 host config rfl hdialing
  have hcontinued := (Connections.continued_of_opened hdialing).symm.trans hhandshaking
  cases hname : tls.serverName host with
  | ok u => rfl
  | error e =>
      rw [hname] at hcontinued
      cases hcontinued

/-- Every channel of an accepted endpoint dials the host that the endpoint names, and verifies
the peer against it, exactly when that host is no bracketed literal and can be a server name. -/
theorem dials_endpoint_iff (huris : uris.KeepsAuthority)
    (husable : ∃ material config, clientConfig tls material = .ok config)
    (hmade : channel uris endpoint source timeout expectedId = .ok made) :
    DialsEndpoint tls uris endpoint ↔
      ∀ parsed host, uris.parse endpoint = .ok parsed → parsed.host = some host →
        ¬ Bracketed host ∧ tls.serverName host = .ok () := by
  constructor
  · intro h parsed host hparse hhost
    obtain ⟨material, config, hconfig⟩ := husable
    exact nameable_of_dials huris hconfig hmade hparse hhost h
  · exact dials_of_nameable huris

end Endpoint

/-! ## A DNS name and an address -/

def collectorUri : Uri := ⟨some "otel@collector.example", some "collector.example", none⟩

def literalUri : Uri := ⟨some "[::1]:4317", some "[::1]", some 4317⟩

/-- Both authorities, under either scheme. -/
def sampleUris : UriLibrary where
  parse := sampleParse
  fromShared text := (sampleParse text).map fun _ => ()
where
  sampleParse (text : String) : Except String Uri :=
    if text ∈ ["https://otel@collector.example", "http://otel@collector.example"] then
      .ok collectorUri
    else if text ∈ ["https://[::1]:4317", "http://[::1]:4317"] then .ok literalUri
    else .error "invalid uri character"

theorem sampleUris_parse {text : String} {uri : Uri} (h : sampleUris.parse text = .ok uri) :
    uri = collectorUri ∨ uri = literalUri := by
  simp only [sampleUris, sampleUris.sampleParse] at h
  split at h
  · exact .inl (Except.ok.inj h).symm
  · split at h
    · exact .inr (Except.ok.inj h).symm
    · cases h

theorem sampleUris_keepsAuthority : sampleUris.KeepsAuthority where
  parts text text' uri uri' h h' hsame := by
    have heq : uri = uri' := by
      rcases sampleUris_parse h with rfl | rfl
      · rcases sampleUris_parse h' with rfl | rfl
        · rfl
        · simp [collectorUri, literalUri] at hsame
      · rcases sampleUris_parse h' with rfl | rfl
        · simp [collectorUri, literalUri] at hsame
        · rfl
    rw [heq]
    exact ⟨rfl, rfl⟩
  hosted text uri authority h _ := by
    rcases sampleUris_parse h with rfl | rfl
    · exact ⟨_, rfl⟩
    · exact ⟨_, rfl⟩
  rebuilt text uri authority h hauthority _ := by
    rcases sampleUris_parse h with rfl | rfl
    · cases hauthority
      exact ⟨collectorUri, by decide +kernel, rfl⟩
    · cases hauthority
      exact ⟨literalUri, by decide +kernel, rfl⟩

/-- No server name is bracketed. -/
def namingTls : TlsLibrary (List GeneralName) :=
  { sampleTls with
    serverName := fun text =>
      if text.toList.head? = some '[' then .error "invalid dns name" else .ok () }

theorem sampleMaterial_usable :
    ∃ material config, clientConfig namingTls material = .ok config :=
  ⟨sampleMaterial, _, rfl⟩

/-- A DNS name is dialed and verified, with the default port and without the userinfo. -/
theorem collector_dialed :
    DialsEndpoint namingTls sampleUris "https://otel@collector.example" := by
  have hmade : channel sampleUris "https://otel@collector.example" (.custom 0) none none =
      .ok
        { endpoint := "http://otel@collector.example", connectTimeout := 10000000000
          timeout := none, connector := ⟨.custom 0, none⟩ } := by decide +kernel
  apply (dials_endpoint_iff sampleUris_keepsAuthority sampleMaterial_usable hmade).mpr
  intro parsed host hparse hhost
  have hcollector : sampleUris.parse "https://otel@collector.example" = .ok collectorUri := by
    decide +kernel
  obtain rfl : parsed = collectorUri := Except.ok.inj (hparse.symm.trans hcollector)
  obtain rfl : host = "collector.example" := Option.some.inj hhost.symm
  rw [← namedHost_eq_iff]
  exact ⟨by decide +kernel, by decide +kernel⟩

/-- An address is dialed with its brackets, and fails even where that opens a stream. -/
theorem literal_not_dialed :
    ¬ DialsEndpoint namingTls sampleUris "https://[::1]:4317" ∧
      Connections.run namingTls ⟨.static sampleMaterial, none⟩ (fun _ => none) {}
          [.call literalUri, .attempt 0 .poll, .attempt 0 (.tcp (.ok ()) (.ok ()))] =
        { log := [.called 0 literalUri, .read 0 (some sampleMaterial), .dialed 0 "[::1]" 4317]
          attempts := [.failed "invalid dns name"] } := by
  have hmade : channel sampleUris "https://[::1]:4317" (.custom 0) none none =
      .ok
        { endpoint := "http://[::1]:4317", connectTimeout := 10000000000, timeout := none
          connector := ⟨.custom 0, none⟩ } := by decide +kernel
  have hparse : sampleUris.parse "https://[::1]:4317" = .ok literalUri := by decide +kernel
  have hconfig : clientConfig namingTls sampleMaterial = .ok ⟨[[3]], [[1]], [2], ["h2"]⟩ := rfl
  have hbracketed : Bracketed "[::1]" := ⟨[':', ':', '1'], by decide +kernel⟩
  refine ⟨?_, by decide +kernel⟩
  intro h
  exact (nameable_of_dials sampleUris_keepsAuthority hconfig hmade hparse rfl h).1 hbracketed

end OtelBootstrap.Builder
