import OtelBootstrap.Builder.Transport
import OtelBootstrap.Library.Attempt
import OtelBootstrap.Library.LastWrite

/-! # The rotating connector -/

namespace OtelBootstrap.Builder

open Attempt (bind_eq_ok)

/-! ## One connection's TLS configuration -/

abbrev CertificateDer := List UInt8

abbrev PrivateKeyDer := List UInt8

/-- `x509_cert::ext::pkix::name::GeneralName`; names that are not text are DER. -/
inductive GeneralName where
  | otherName (der : List UInt8)
  | rfc822Name (name : String)
  | dnsName (name : String)
  | directoryName (der : List UInt8)
  | ediPartyName (der : List UInt8)
  | uniformResourceIdentifier (uri : String)
  | ipAddress (octets : List UInt8)
  | registeredId (oid : String)
  deriving DecidableEq, Repr

/-- What `rustls`, its PEM reader and `x509_cert` decide, with their errors as text. -/
structure TlsLibrary (Certificate : Type) where
  pemSliceIter : List UInt8 → List (Except String CertificateDer)
  addRoot : CertificateDer → Except String Unit
  privateKey : List UInt8 → Except String PrivateKeyDer
  safeDefaultProtocolVersions : Except String Unit
  clientAuthCert : List CertificateDer → PrivateKeyDer → Except String Unit
  serverName : String → Except String Unit
  fromDer : CertificateDer → Except String Certificate
  subjectAltName : Certificate → Except String (Option (List GeneralName))

/-- `rustls::ClientConfig`. -/
structure ClientConfig where
  roots : List CertificateDer
  certChain : List CertificateDer
  key : PrivateKeyDer
  alpnProtocols : List String
  deriving DecidableEq, Repr

/-- Collecting into a `Result`. -/
def collect {α : Type} : List (Except String α) → Except String (List α)
  | [] => .ok []
  | .error e :: _ => .error e
  | .ok a :: rest =>
      match collect rest with
      | .error e => .error e
      | .ok items => .ok (a :: items)

section ClientConfig

variable {Certificate : Type} (tls : TlsLibrary Certificate)

/-- The loop over the trust bundle. -/
def addRoots : List (Except String CertificateDer) → List CertificateDer →
    Except String (List CertificateDer)
  | [], roots => .ok roots
  | .error e :: _, _ => .error e
  | .ok ca :: rest, roots =>
      match tls.addRoot ca with
      | .error e => .error e
      | .ok () => addRoots rest (roots ++ [ca])

def clientConfig (material : MtlsMaterial) : Except String ClientConfig := do
  let roots ← addRoots tls (tls.pemSliceIter material.trustBundlePem) []
  if roots.isEmpty then .error "mTLS trust bundle holds no certificates"
  else
    let certChain ← collect (tls.pemSliceIter material.clientCertChainPem)
    let key ← tls.privateKey material.clientKeyPem
    tls.safeDefaultProtocolVersions
    tls.clientAuthCert certChain key
    return { roots, certChain, key, alpnProtocols := ["h2"] }

/-- The chain, the key and the anchors are those of the material. -/
structure TakenFrom (material : MtlsMaterial) (config : ClientConfig) : Prop where
  certChain : tls.pemSliceIter material.clientCertChainPem = config.certChain.map .ok
  key : tls.privateKey material.clientKeyPem = .ok config.key
  roots : tls.pemSliceIter material.trustBundlePem = config.roots.map .ok
  nonempty : config.roots ≠ []

theorem eq_map_of_collect {α : Type} {items : List (Except String α)} {as : List α}
    (h : collect items = .ok as) : items = as.map .ok := by
  induction items generalizing as with
  | nil =>
      cases h
      rfl
  | cons item rest ih =>
      cases item with
      | error e => cases h
      | ok a =>
          simp only [collect] at h
          cases hrest : collect rest with
          | error e =>
              rw [hrest] at h
              cases h
          | ok items =>
              rw [hrest] at h
              cases h
              rw [ih hrest, List.map_cons]

theorem eq_map_of_addRoots {items : List (Except String CertificateDer)}
    {start roots : List CertificateDer} (h : addRoots tls items start = .ok roots) :
    ∃ added, roots = start ++ added ∧ items = added.map .ok := by
  induction items generalizing start with
  | nil =>
      cases h
      exact ⟨[], (List.append_nil _).symm, rfl⟩
  | cons item rest ih =>
      cases item with
      | error e => cases h
      | ok ca =>
          simp only [addRoots] at h
          cases hca : tls.addRoot ca with
          | error e =>
              rw [hca] at h
              cases h
          | ok u =>
              rw [hca] at h
              obtain ⟨added, hroots, hrest⟩ := ih h
              refine ⟨ca :: added, ?_, ?_⟩
              · rw [hroots, List.append_assoc, List.singleton_append]
              · rw [hrest, List.map_cons]

theorem takenFrom_of_clientConfig {material : MtlsMaterial} {config : ClientConfig}
    (h : clientConfig tls material = .ok config) : TakenFrom tls material config := by
  unfold clientConfig at h
  obtain ⟨roots, hroots, h⟩ := bind_eq_ok.mp h
  obtain ⟨added, hadded, hbundle⟩ := eq_map_of_addRoots tls hroots
  rw [List.nil_append] at hadded
  subst hadded
  by_cases hempty : roots.isEmpty = true
  · rw [if_pos hempty] at h
    cases h
  · rw [if_neg hempty] at h
    obtain ⟨chain, hchain, h⟩ := bind_eq_ok.mp h
    obtain ⟨key, hkey, h⟩ := bind_eq_ok.mp h
    obtain ⟨_, -, h⟩ := bind_eq_ok.mp h
    obtain ⟨_, -, h⟩ := bind_eq_ok.mp h
    cases h
    exact ⟨eq_map_of_collect hchain, hkey, hbundle, fun hnil => hempty (List.isEmpty_iff.mpr hnil)⟩

end ClientConfig

/-! ## The identity of the collector -/

def GeneralName.uri : GeneralName → Option String
  | .uniformResourceIdentifier uri => some uri
  | _ => none

def identityMismatch (expected : String) (found : List String) : String :=
  "collector identity mismatch: expected " ++ expected ++ ", certificate carries [" ++
    ", ".intercalate found ++ "]"

/-- The loop over the names of the certificate; `found` are the URIs seen so far. -/
def searchNames (expected : String) : List GeneralName → List String → Except String Unit
  | [], found => .error (identityMismatch expected found)
  | name :: names, found =>
      match name with
      | .uniformResourceIdentifier uri =>
          if uri = expected then .ok () else searchNames expected names (found ++ [uri])
      | _ => searchNames expected names found

def requireSpiffeId {Certificate : Type} (tls : TlsLibrary Certificate)
    (peer : Option (List CertificateDer)) (expected : String) : Except String Unit := do
  let leaf ← okOr (peer.bind List.head?) "collector presented no certificate"
  let cert ← (tls.fromDer leaf).mapError ("collector certificate is not parseable: " ++ ·)
  let san ← (tls.subjectAltName cert).mapError
    ("collector certificate has a malformed SAN: " ++ ·)
  searchNames expected (san.getD []) []

/-- The search stops at the expected URI, or names every URI that it saw. -/
theorem searchNames_eq (expected : String) (names : List GeneralName) (found : List String) :
    searchNames expected names found =
      if .uniformResourceIdentifier expected ∈ names then .ok ()
      else .error (identityMismatch expected (found ++ names.filterMap GeneralName.uri)) := by
  induction names generalizing found with
  | nil => simp [searchNames]
  | cons name names ih =>
      cases name with
      | uniformResourceIdentifier uri =>
          by_cases h : uri = expected
          · simp [searchNames, h]
          · simp [searchNames, h, ih, GeneralName.uri, Ne.symm h]
      | _ => simp [searchNames, ih, List.filterMap_cons, GeneralName.uri]

/-- The first certificate of the peer carries the URI as a subject alternative name. -/
def LeafCarries {Certificate : Type} (tls : TlsLibrary Certificate)
    (peer : Option (List CertificateDer)) (uri : String) : Prop :=
  ∃ leaf chain cert names, peer = some (leaf :: chain) ∧ tls.fromDer leaf = .ok cert ∧
    tls.subjectAltName cert = .ok (some names) ∧ .uniformResourceIdentifier uri ∈ names

theorem mapError_eq_ok {α : Type} {x : Except String α} {f : String → String} {a : α} :
    x.mapError f = .ok a ↔ x = .ok a := by
  cases x with
  | error e => exact iff_of_false nofun nofun
  | ok b => exact Iff.rfl

/-- No other name, and no other certificate of the chain, has a say. -/
theorem requireSpiffeId_eq_ok_iff {Certificate : Type} {tls : TlsLibrary Certificate}
    {peer : Option (List CertificateDer)} {expected : String} :
    requireSpiffeId tls peer expected = .ok () ↔ LeafCarries tls peer expected := by
  constructor
  · intro h
    unfold requireSpiffeId at h
    obtain ⟨leaf, hleaf, h⟩ := bind_eq_ok.mp h
    obtain ⟨cert, hcert, h⟩ := bind_eq_ok.mp h
    obtain ⟨san, hsan, h⟩ := bind_eq_ok.mp h
    rw [mapError_eq_ok] at hcert hsan
    rw [searchNames_eq] at h
    by_cases hmem : .uniformResourceIdentifier expected ∈ san.getD []
    · cases san with
      | none => exact (List.not_mem_nil hmem).elim
      | some names =>
          match peer with
          | none => cases hleaf
          | some [] => cases hleaf
          | some (first :: chain) =>
              cases hleaf
              exact ⟨leaf, chain, cert, names, rfl, hcert, hsan, hmem⟩
    · rw [if_neg hmem] at h
      cases h
  · rintro ⟨leaf, chain, cert, names, rfl, hcert, hsan, hmem⟩
    unfold requireSpiffeId
    refine bind_eq_ok.mpr ⟨leaf, rfl, bind_eq_ok.mpr ⟨cert, mapError_eq_ok.mpr hcert, ?_⟩⟩
    refine bind_eq_ok.mpr ⟨some names, mapError_eq_ok.mpr hsan, ?_⟩
    rw [searchNames_eq]
    exact if_pos hmem

/-! ## Attempts -/

/-- Where one call of `connect` stands between its awaits. -/
inductive ConnectStage where
  | called (uri : Uri)
  | dialing (host : String) (config : ClientConfig)
  | handshaking (serverName : String) (config : ClientConfig)
  | connected (serverName : String) (config : ClientConfig)
      (peer : Option (List CertificateDer))
  | failed (error : String)
  | dropped
  deriving DecidableEq, Repr

/-- What sources, attempts and the network see of one another; attempts are numbered in the
order of their calls. -/
inductive ConnectEvent where
  | rotated (source : ℕ) (value : Option MtlsMaterial)
  | called (i : ℕ) (uri : Uri)
  | read (i : ℕ) (value : Option MtlsMaterial)
  | dialed (i : ℕ) (host : String) (port : ℕ)
  | warned (message : String)
  | connected (i : ℕ) (config : ClientConfig) (peer : Option (List CertificateDer))
  deriving DecidableEq, Repr

namespace ConnectEvent

def rotatedTo (source : ℕ) : ConnectEvent → Option (Option MtlsMaterial)
  | .rotated id value => if id = source then some value else none
  | _ => none

def attempt : ConnectEvent → Option ℕ
  | .called i _ => some i
  | .read i _ => some i
  | .dialed i _ _ => some i
  | .connected i _ _ => some i
  | _ => none

end ConnectEvent

/-- What `current` returns after the rotations in the log. -/
def CertSource.current (initial : ℕ → Option MtlsMaterial) (log : List ConnectEvent) :
    CertSource → Option MtlsMaterial
  | .custom id => (lastWrite (ConnectEvent.rotatedTo id) log).getD (initial id)
  | .static material => some material

/-- The runtime resumes a future, or its owner drops it. -/
inductive ConnectInput where
  | poll
  | tcp (stream nodelay : Except String Unit)
  | handshake (peer : Except String (Option (List CertificateDer)))
  | drop

def unpinnedWarning : String :=
  "OTLP collector identity is not pinned: its certificate is trusted on chain and DNS name only"

section Connect

variable {Certificate : Type} (tls : TlsLibrary Certificate) (i : ℕ)

/-- `connect` up to the dial. -/
def startConnect (current : Option MtlsMaterial) (uri : Uri) :
    ConnectStage × List ConnectEvent :=
  match uri.host with
  | none => (.failed "OTLP endpoint has no host", [])
  | some host =>
      match current with
      | none => (.failed "mTLS material is not available yet", [.read i none])
      | some material =>
          match clientConfig tls material with
          | .error e => (.failed e, [.read i (some material)])
          | .ok config =>
              (.dialing host config,
                [.read i (some material), .dialed i host (uri.port.getD 443)])

/-- From the dial to the handshake. -/
def continueDialed (host : String) (config : ClientConfig) (stream nodelay : Except String Unit) :
    ConnectStage :=
  match (do stream; nodelay; tls.serverName host : Except String Unit) with
  | .error e => .failed e
  | .ok () => .handshaking host config

/-- After the handshake. The warning is given once in a process. -/
def continueHandshaken (expectedId : Option String) (log : List ConnectEvent)
    (serverName : String) (config : ClientConfig)
    (handshake : Except String (Option (List CertificateDer))) :
    ConnectStage × List ConnectEvent :=
  match handshake with
  | .error e => (.failed e, [])
  | .ok peer =>
      match expectedId with
      | some id =>
          match requireSpiffeId tls peer id with
          | .error e => (.failed e, [])
          | .ok () => (.connected serverName config peer, [.connected i config peer])
      | none =>
          (.connected serverName config peer,
            (if .warned unpinnedWarning ∈ log then [] else [.warned unpinnedWarning]) ++
              [.connected i config peer])

def RotatingConnector.advance (self : RotatingConnector) (initial : ℕ → Option MtlsMaterial)
    (log : List ConnectEvent) : ConnectStage → ConnectInput → ConnectStage × List ConnectEvent
  | .called uri, .poll => startConnect tls i (self.source.current initial log) uri
  | .dialing host config, .tcp stream nodelay =>
      (continueDialed tls host config stream nodelay, [])
  | .handshaking serverName config, .handshake peer =>
      continueHandshaken tls i self.expectedId log serverName config peer
  | .called _, .drop => (.dropped, [])
  | .dialing _ _, .drop => (.dropped, [])
  | .handshaking _ _, .drop => (.dropped, [])
  | stage, _ => (stage, [])

/-! ## What an attempt can do -/

def ConnectStage.finished : ConnectStage → Bool
  | .connected _ _ _ => true
  | .failed _ => true
  | .dropped => true
  | _ => false

/-- Every way in which an attempt gets from one stage to another, with what it logs. -/
inductive Advanced (expectedId : Option String) (current : Option MtlsMaterial) :
    ConnectStage → ConnectStage → List ConnectEvent → Prop where
  | idle (stage) : Advanced expectedId current stage stage []
  | failed {stage e} (h : stage.finished = false) :
      Advanced expectedId current stage (.failed e) []
  | dropped {stage} (h : stage.finished = false) : Advanced expectedId current stage .dropped []
  | refused {uri e} :
      Advanced expectedId current (.called uri) (.failed e) [.read i current]
  | dialed {uri host port material config} (h : current = some material)
      (hconfig : clientConfig tls material = .ok config) :
      Advanced expectedId current (.called uri) (.dialing host config)
        [.read i current, .dialed i host port]
  | handshaking {host config} :
      Advanced expectedId current (.dialing host config) (.handshaking host config) []
  | connected {host config peer warnings}
      (hid : ∀ id, expectedId = some id → LeafCarries tls peer id)
      (hwarnings : ∀ event ∈ warnings, event = .warned unpinnedWarning) :
      Advanced expectedId current (.handshaking host config)
        (.connected host config peer) (warnings ++ [.connected i config peer])

/-- Without material an attempt fails and does not dial. -/
theorem startConnect_none (uri : Uri) :
    (∃ e, (startConnect tls i none uri).1 = .failed e) ∧
      ∀ host port, .dialed i host port ∉ (startConnect tls i none uri).2 := by
  unfold startConnect
  cases uri.host with
  | none => exact ⟨⟨_, rfl⟩, fun host port => List.not_mem_nil⟩
  | some host => exact ⟨⟨_, rfl⟩, by simp⟩

variable {tls i}

theorem advanced_startConnect (expectedId : Option String) (current : Option MtlsMaterial)
    (uri : Uri) : Advanced tls i expectedId current (.called uri)
      (startConnect tls i current uri).1 (startConnect tls i current uri).2 := by
  unfold startConnect
  cases uri.host with
  | none => exact .failed rfl
  | some host =>
      cases current with
      | none => exact .refused
      | some material =>
          dsimp only
          cases hconfig : clientConfig tls material with
          | error e => exact .refused
          | ok config => exact .dialed rfl hconfig

theorem advanced_continueDialed (expectedId : Option String) (current : Option MtlsMaterial)
    (host : String) (config : ClientConfig) (stream nodelay : Except String Unit) :
    Advanced tls i expectedId current (.dialing host config)
      (continueDialed tls host config stream nodelay) [] := by
  unfold continueDialed
  split
  · exact .failed rfl
  · exact .handshaking

theorem advanced_continueHandshaken (expectedId : Option String)
    (current : Option MtlsMaterial) (log : List ConnectEvent) (host : String)
    (config : ClientConfig) (handshake : Except String (Option (List CertificateDer))) :
    Advanced tls i expectedId current (.handshaking host config)
      (continueHandshaken tls i expectedId log host config handshake).1
      (continueHandshaken tls i expectedId log host config handshake).2 := by
  unfold continueHandshaken
  cases handshake with
  | error e => exact .failed rfl
  | ok peer =>
      cases expectedId with
      | none =>
          refine .connected nofun ?_
          intro event hmem
          split at hmem
          · exact (List.not_mem_nil hmem).elim
          · exact List.mem_singleton.mp hmem
      | some id =>
          dsimp only
          cases hid : requireSpiffeId tls peer id with
          | error e => exact .failed rfl
          | ok u =>
              have hquiet : ∀ event ∈ ([] : List ConnectEvent), event = .warned unpinnedWarning :=
                fun event hmem => (List.not_mem_nil hmem).elim
              refine .connected ?_ hquiet
              intro id' heq
              cases heq
              exact requireSpiffeId_eq_ok_iff.mp hid

theorem advanced_advance (self : RotatingConnector) (initial : ℕ → Option MtlsMaterial)
    (log : List ConnectEvent) (stage : ConnectStage) (input : ConnectInput) :
    Advanced tls i self.expectedId (self.source.current initial log) stage
      (self.advance tls i initial log stage input).1
      (self.advance tls i initial log stage input).2 := by
  cases stage with
  | called uri =>
      cases input with
      | poll => exact advanced_startConnect _ _ uri
      | drop => exact .dropped rfl
      | _ => exact .idle _
  | dialing host config =>
      cases input with
      | tcp stream nodelay => exact advanced_continueDialed _ _ host config stream nodelay
      | drop => exact .dropped rfl
      | _ => exact .idle _
  | handshaking host config =>
      cases input with
      | handshake peer => exact advanced_continueHandshaken _ _ log host config peer
      | drop => exact .dropped rfl
      | _ => exact .idle _
  | _ => exact .idle _

end Connect

end OtelBootstrap.Builder
