import OtelBootstrap.Builder.Connector
import OtelBootstrap.Builder.Downgrade
import OtelBootstrap.Library.Occurrences

/-! # Connections of the rotating connector -/

namespace OtelBootstrap.Builder

section Story

variable {Certificate : Type} {tls : TlsLibrary Certificate} {i : ℕ}

/-! ## The story of an attempt -/

/-- What an attempt logged, in order. -/
def history (i : ℕ) (log : List ConnectEvent) : List ConnectEvent :=
  log.filter fun event => event.attempt = some i

/-- What an attempt has logged when it stands at a stage. -/
inductive Story (tls : TlsLibrary Certificate) (expectedId : Option String) (i : ℕ) :
    ConnectStage → List ConnectEvent → Prop where
  | called (uri) : Story tls expectedId i (.called uri) [.called i uri]
  | dialing {uri host port material config} (hconfig : clientConfig tls material = .ok config) :
      Story tls expectedId i (.dialing host config)
        [.called i uri, .read i (some material), .dialed i host port]
  | handshaking {uri host port material config}
      (hconfig : clientConfig tls material = .ok config) :
      Story tls expectedId i (.handshaking host config)
        [.called i uri, .read i (some material), .dialed i host port]
  | connected {uri host port material config peer}
      (hconfig : clientConfig tls material = .ok config)
      (hid : ∀ id, expectedId = some id → LeafCarries tls peer id) :
      Story tls expectedId i (.connected host config peer)
        [.called i uri, .read i (some material), .dialed i host port, .connected i config peer]
  | failed (e events) : Story tls expectedId i (.failed e) events
  | dropped (events) : Story tls expectedId i .dropped events

namespace Story

variable {expectedId : Option String} {past : List ConnectEvent}

theorem of_called {uri : Uri} (h : Story tls expectedId i (.called uri) past) :
    past = [.called i uri] := by
  cases h with
  | called => rfl

theorem of_connected {host : String} {config : ClientConfig}
    {peer : Option (List CertificateDer)}
    (h : Story tls expectedId i (.connected host config peer) past) :
    (∃ uri material port,
      past = [.called i uri, .read i (some material), .dialed i host port,
        .connected i config peer] ∧
      TakenFrom tls material config) ∧
    ∀ id, expectedId = some id → LeafCarries tls peer id := by
  cases h with
  | connected hconfig hid =>
      exact ⟨⟨_, _, _, rfl, takenFrom_of_clientConfig tls hconfig⟩, hid⟩

end Story

theorem history_append (i : ℕ) (log more : List ConnectEvent) :
    history i (log ++ more) = history i log ++ history i more :=
  List.filter_append ..

theorem history_cons_self {i : ℕ} {event : ConnectEvent} (h : event.attempt = some i)
    (log : List ConnectEvent) : history i (event :: log) = event :: history i log :=
  List.filter_cons_of_pos (decide_eq_true h)

theorem history_eq_nil {i : ℕ} {events : List ConnectEvent}
    (h : ∀ event ∈ events, event.attempt ≠ some i) : history i events = [] :=
  List.filter_eq_nil_iff.mpr fun event hmem => by simpa using h event hmem

/-- Of what others log, an attempt's history takes nothing. -/
theorem history_append_of_ne {i : ℕ} {more : List ConnectEvent} (log : List ConnectEvent)
    (h : ∀ event ∈ more, event.attempt ≠ some i) : history i (log ++ more) = history i log := by
  rw [history_append, history_eq_nil h, List.append_nil]

namespace Advanced

variable {expectedId : Option String} {current : Option MtlsMaterial}
  {stage next : ConnectStage} {events : List ConnectEvent}

/-- An attempt logs for itself. -/
theorem attempt_eq (h : Advanced tls i expectedId current stage next events)
    {event : ConnectEvent} (hmem : event ∈ events) :
    event.attempt = some i ∨ event.attempt = none := by
  cases h with
  | connected hid hwarnings =>
      rcases List.mem_append.mp hmem with hwarning | hlast
      · rw [hwarnings event hwarning]
        exact Or.inr rfl
      · rw [List.mem_singleton.mp hlast]
        exact Or.inl rfl
  | refused =>
      rw [List.mem_singleton.mp hmem]
      exact Or.inl rfl
  | dialed hmaterial hconfig =>
      rcases List.mem_cons.mp hmem with rfl | hlast
      · exact Or.inl rfl
      · rw [List.mem_singleton.mp hlast]
        exact Or.inl rfl
  | _ => exact (List.not_mem_nil hmem).elim

theorem history_append_of_ne (h : Advanced tls i expectedId current stage next events) {j : ℕ}
    (hj : j ≠ i) (log : List ConnectEvent) : history j (log ++ events) = history j log := by
  apply Builder.history_append_of_ne
  intro event hmem hevent
  rcases h.attempt_eq hmem with hself | hnone
  · exact hj (Option.some.inj (hevent.symm.trans hself))
  · rw [hevent] at hnone
    cases hnone

/-- The attempt reads what is current, and reads before it does anything else. -/
theorem reads (h : Advanced tls i expectedId current stage next events) :
    (∀ event ∈ events, ∀ j value, event ≠ .read j value) ∨
      ∃ rest, events = .read i current :: rest ∧
        ∀ event ∈ rest, ∀ j value, event ≠ .read j value := by
  cases h with
  | refused => exact Or.inr ⟨[], rfl, fun event hmem => (List.not_mem_nil hmem).elim⟩
  | dialed hmaterial hconfig =>
      refine Or.inr ⟨_, rfl, ?_⟩
      rintro event hmem j value rfl
      cases List.mem_singleton.mp hmem
  | connected hid hwarnings =>
      refine Or.inl ?_
      rintro event hmem j value rfl
      rcases List.mem_append.mp hmem with hwarning | hlast
      · cases hwarnings _ hwarning
      · cases List.mem_singleton.mp hlast
  | _ => exact Or.inl fun event hmem => (List.not_mem_nil hmem).elim

theorem of_finished (h : Advanced tls i expectedId current stage next events)
    (hstage : stage.finished = true) : next = stage ∧ events = [] := by
  cases h with
  | idle => exact ⟨rfl, rfl⟩
  | failed hopen | dropped hopen =>
      rw [hopen] at hstage
      cases hstage
  | _ => cases hstage

theorem story (h : Advanced tls i expectedId current stage next events)
    {past : List ConnectEvent} (hpast : Story tls expectedId i stage past) :
    Story tls expectedId i next (past ++ history i events) := by
  cases h with
  | idle =>
      rw [history, List.filter_nil, List.append_nil]
      exact hpast
  | failed hopen => exact .failed ..
  | dropped hopen => exact .dropped _
  | refused => exact .failed ..
  | dialed hmaterial hconfig =>
      subst hmaterial
      cases hpast
      rw [history_cons_self rfl, history_cons_self rfl]
      exact .dialing hconfig
  | handshaking =>
      cases hpast with
      | dialing hconfig => exact .handshaking hconfig
  | connected hid hwarnings =>
      cases hpast with
      | handshaking hconfig =>
          rw [history_append, history_eq_nil, history_cons_self rfl]
          · exact .connected hconfig hid
          · intro event hmem
            rw [hwarnings event hmem]
            exact nofun

end Advanced

end Story

/-! ## Runs -/

structure Connections where
  log : List ConnectEvent := []
  attempts : List ConnectStage := []
  deriving DecidableEq, Repr

inductive ChannelInput where
  | rotate (source : ℕ) (value : Option MtlsMaterial)
  | call (uri : Uri)
  | attempt (i : ℕ) (input : ConnectInput)

namespace Connections

variable {Certificate : Type} (tls : TlsLibrary Certificate) (connector : RotatingConnector)
  (initial : ℕ → Option MtlsMaterial)

def step (w : Connections) : ChannelInput → Connections
  | .rotate source value => { w with log := w.log ++ [.rotated source value] }
  | .call uri =>
      { log := w.log ++ [.called w.attempts.length uri]
        attempts := w.attempts ++ [.called uri] }
  | .attempt i input =>
      match w.attempts[i]? with
      | none => w
      | some stage =>
          let next := connector.advance tls i initial w.log stage input
          { log := w.log ++ next.2, attempts := w.attempts.set i next.1 }

def run (w : Connections) (inputs : List ChannelInput) : Connections :=
  inputs.foldl (step tls connector initial) w

/-- Every attempt has the story of its stage, and has read what was current. -/
structure Told (w : Connections) : Prop where
  story : ∀ i stage, w.attempts[i]? = some stage →
    Story tls connector.expectedId i stage (history i w.log)
  beyond : ∀ i, w.attempts.length ≤ i → history i w.log = []
  reads : ∀ i value, Before (fun event => event = .read i value)
    (fun front => value = connector.source.current initial front) w.log

namespace Told

variable {tls connector initial} {w : Connections}

theorem start : Told tls connector initial {} where
  story _ _ h := nomatch h
  beyond _ _ := rfl
  reads _ _ := .nil

theorem rotate (hw : Told tls connector initial w) (source : ℕ)
    (value : Option MtlsMaterial) :
    Told tls connector initial (w.step tls connector initial (.rotate source value)) := by
  have hhistory : ∀ i, history i (w.log ++ [.rotated source value]) = history i w.log :=
    fun i => history_append_of_ne w.log (by simp [ConnectEvent.attempt])
  refine ⟨?_, ?_, ?_⟩
  · intro i stage hi
    rw [step, hhistory]
    exact hw.story i stage hi
  · intro i hi
    rw [step, hhistory]
    exact hw.beyond i hi
  · intro i value'
    exact (hw.reads i value').append (by simp)

theorem call (hw : Told tls connector initial w) (uri : Uri) :
    Told tls connector initial (w.step tls connector initial (.call uri)) := by
  have hhistory : ∀ i, i ≠ w.attempts.length →
      history i (w.log ++ [.called w.attempts.length uri]) = history i w.log :=
    fun i hi => history_append_of_ne w.log (by simpa [ConnectEvent.attempt] using Ne.symm hi)
  refine ⟨?_, ?_, ?_⟩
  · intro i stage hi
    simp only [step, getElem?_snoc] at hi ⊢
    split at hi
    · rename_i hlast
      cases hi
      rw [hlast, history_append, hw.beyond _ (Nat.le_refl _), history_cons_self rfl]
      exact .called uri
    · rename_i hold
      rw [hhistory i hold]
      exact hw.story i stage hi
  · intro i hi
    simp only [step, List.length_append, List.length_singleton] at hi ⊢
    rw [hhistory i (by omega)]
    exact hw.beyond i (by omega)
  · intro i value
    exact (hw.reads i value).append (by simp)

theorem attempt (hw : Told tls connector initial w) (i : ℕ) (input : ConnectInput) :
    Told tls connector initial (w.step tls connector initial (.attempt i input)) := by
  cases hi : w.attempts[i]? with
  | none =>
      simp only [step, hi]
      exact hw
  | some stage =>
      obtain ⟨hlt, -⟩ := List.getElem?_eq_some_iff.mp hi
      have hadvanced : Advanced tls i _ _ stage _ _ :=
        advanced_advance connector initial w.log stage input
      simp only [step, hi]
      refine ⟨?_, ?_, ?_⟩
      · intro j stage' hj
        by_cases hji : j = i
        · subst hji
          rw [List.getElem?_set_self hlt] at hj
          cases hj
          rw [history_append]
          exact hadvanced.story (hw.story j stage hi)
        · rw [List.getElem?_set_ne (Ne.symm hji)] at hj
          rw [hadvanced.history_append_of_ne hji]
          exact hw.story j stage' hj
      · intro j hj
        rw [List.length_set] at hj
        rw [hadvanced.history_append_of_ne (by omega)]
        exact hw.beyond j hj
      · intro j value
        rcases hadvanced.reads with hquiet | ⟨rest, hevents, hrest⟩
        · exact (hw.reads j value).append fun event hmem =>
            decide_eq_false (hquiet event hmem j value)
        · rw [hevents, List.append_cons]
          apply Before.append
          · apply (hw.reads j value).snoc
            intro hread
            cases of_decide_eq_true hread
            rfl
          · exact fun event hmem => decide_eq_false (hrest event hmem j value)

theorem run (hw : Told tls connector initial w) (inputs : List ChannelInput) :
    Told tls connector initial (w.run tls connector initial inputs) := by
  induction inputs generalizing w with
  | nil => exact hw
  | cons input inputs ih =>
      cases input with
      | rotate source value => exact ih (hw.rotate source value)
      | call uri => exact ih (hw.call uri)
      | attempt i input => exact ih (hw.attempt i input)

end Told

section Finished

variable {w : Connections} {i : ℕ} {stage : ConnectStage}

/-- An attempt that is over stays as it is and logs no more. -/
theorem finished_step (hi : w.attempts[i]? = some stage) (hstage : stage.finished = true)
    (input : ChannelInput) :
    (w.step tls connector initial input).attempts[i]? = some stage ∧
      history i (w.step tls connector initial input).log = history i w.log := by
  obtain ⟨hlt, -⟩ := List.getElem?_eq_some_iff.mp hi
  cases input with
  | rotate source value =>
      exact ⟨hi, history_append_of_ne w.log (by simp [ConnectEvent.attempt])⟩
  | call uri =>
      have hne : i ≠ w.attempts.length := Nat.ne_of_lt hlt
      refine ⟨?_, ?_⟩
      · rw [step, getElem?_snoc, if_neg hne]
        exact hi
      · exact history_append_of_ne w.log (by simpa [ConnectEvent.attempt] using Ne.symm hne)
  | attempt j input =>
      cases hj : w.attempts[j]? with
      | none =>
          have hsame : w.step tls connector initial (.attempt j input) = w := by
            simp only [step, hj]
          rw [hsame]
          exact ⟨hi, rfl⟩
      | some other =>
          have hadvanced : Advanced tls j _ _ other _ _ :=
            advanced_advance connector initial w.log other input
          simp only [step, hj]
          by_cases hij : i = j
          · subst hij
            rw [hi] at hj
            cases hj
            obtain ⟨hnext, hevents⟩ := hadvanced.of_finished hstage
            rw [List.getElem?_set_self hlt, hnext, hevents, List.append_nil]
            exact ⟨rfl, rfl⟩
          · rw [List.getElem?_set_ne (Ne.symm hij)]
            exact ⟨hi, hadvanced.history_append_of_ne hij w.log⟩

theorem finished_run (hi : w.attempts[i]? = some stage) (hstage : stage.finished = true)
    (inputs : List ChannelInput) :
    (w.run tls connector initial inputs).attempts[i]? = some stage ∧
      history i (w.run tls connector initial inputs).log = history i w.log := by
  induction inputs generalizing w with
  | nil => exact ⟨hi, rfl⟩
  | cons input inputs ih =>
      obtain ⟨hstep, hhistory⟩ := finished_step tls connector initial hi hstage input
      obtain ⟨hrun, hrest⟩ := ih hstep
      exact ⟨hrun, hrest.trans hhistory⟩

end Finished

variable {tls connector initial}

/-- An attempt that finds the source without material fails, and never dials. -/
theorem fails_without_material {w : Connections} (hw : Told tls connector initial w) {i : ℕ}
    {uri : Uri} (hi : w.attempts[i]? = some (.called uri))
    (hcurrent : connector.source.current initial w.log = none) (inputs : List ChannelInput) :
    (∃ e, (w.run tls connector initial (.attempt i .poll :: inputs)).attempts[i]? =
        some (.failed e)) ∧
      ∀ host port, .dialed i host port ∉
        (w.run tls connector initial (.attempt i .poll :: inputs)).log := by
  obtain ⟨hlt, -⟩ := List.getElem?_eq_some_iff.mp hi
  obtain ⟨⟨e, hfailed⟩, hundialed⟩ := startConnect_none tls i uri
  have hstep : w.step tls connector initial (.attempt i .poll) =
      { log := w.log ++ (startConnect tls i none uri).2
        attempts := w.attempts.set i (.failed e) } := by
    simp only [step, hi, RotatingConnector.advance, hcurrent, hfailed]
  have hnext : (w.step tls connector initial (.attempt i .poll)).attempts[i]? =
      some (.failed e) := by
    rw [hstep]
    exact List.getElem?_set_self hlt
  obtain ⟨hattempt, hhistory⟩ := finished_run tls connector initial hnext rfl inputs
  refine ⟨⟨e, hattempt⟩, ?_⟩
  intro host port hmem
  have hown : .dialed i host port ∈
      history i (w.step tls connector initial (.attempt i .poll)).log := by
    rw [← hhistory]
    exact List.mem_filter.mpr ⟨hmem, decide_eq_true rfl⟩
  rw [hstep, history_append, (hw.story i _ hi).of_called, List.singleton_append,
    List.mem_cons] at hown
  rcases hown with hfirst | hlater
  · cases hfirst
  · exact hundialed host port (List.mem_filter.mp hlater).1

end Connections

/-! ## Pinned connections -/

/-- The last of `with_mtls` and `with_mtls_source` stands alone in the builder. With a collector
id, before or after, the transport is the channel over that material and pinned to that id: no
attempt on it dials without material, and every connection comes from one read of the source
and a peer whose first certificate carries the id. -/
theorem pinned_connections {Certificate : Type} (tls : TlsLibrary Certificate)
    (uris : UriLibrary) (start : TelemetryBuilder) (calls : List Setter)
    (henables : EnablesMtls calls) :
    let builder := start.configure calls
    ∃ mtls, lastWrite Setter.mtlsWrite calls = some mtls ∧
      builder.mtls = mtls.elim some (fun _ => none) ∧
      builder.mtlsSource = mtls.elim (fun _ => none) some ∧
      ∀ id, lastWrite Setter.collectorIdWrite calls = some id →
        ∀ endpoint timeout transport,
          MtlsTransport.resolve uris builder.mtls builder.mtlsSource endpoint timeout
            builder.collectorSpiffeId = .ok transport →
          ∃ channel, transport = some (.live channel) ∧
            channel.connector = ⟨mtls.elim .static fun source => source, some id⟩ ∧
            ∀ initial inputs,
              let run := Connections.run tls channel.connector initial {}
              (∀ (before : List ChannelInput) (i : ℕ) (uri : Uri) (after : List ChannelInput),
                inputs = before ++ .attempt i .poll :: after →
                (run before).attempts[i]? = some (.called uri) →
                channel.connector.source.current initial (run before).log = none →
                (∃ e, (run inputs).attempts[i]? = some (.failed e)) ∧
                  ∀ host port, .dialed i host port ∉ (run inputs).log) ∧
              (∀ (front : List ConnectEvent) (i : ℕ) (value : Option MtlsMaterial)
                  (back : List ConnectEvent),
                (run inputs).log = front ++ .read i value :: back →
                value = channel.connector.source.current initial front) ∧
              ∀ i host config peer,
                (run inputs).attempts[i]? = some (.connected host config peer) →
                (∃ uri material port,
                  history i (run inputs).log =
                    [.called i uri, .read i (some material), .dialed i host port,
                      .connected i config peer] ∧
                  TakenFrom tls material config) ∧
                LeafCarries tls peer id := by
  intro builder
  obtain ⟨mtls, hmtls⟩ := henables.exists_mtls
  have hasks : Asks builder mtls := asks_configure start hmtls
  refine ⟨mtls, hmtls, hasks.material, hasks.source, ?_⟩
  intro id hid endpoint timeout transport hresolve
  have hcollector : builder.collectorSpiffeId = some id := by
    rw [start.collectorSpiffeId_configure, hid, Option.some_or]
  have hlive : MtlsTransport.liveSource builder.mtls builder.mtlsSource (some id) =
      some (mtls.elim .static fun source => source) := by
    rw [hasks.material, hasks.source]
    cases mtls <;> rfl
  rw [hcollector] at hresolve
  obtain ⟨channel, htransport, hconnector⟩ := MtlsTransport.resolve_live hlive hresolve
  refine ⟨channel, htransport, hconnector, ?_⟩
  intro initial inputs run
  have htold : ∀ inputs, Connections.Told tls channel.connector initial (run inputs) :=
    fun inputs => Connections.Told.start.run inputs
  refine ⟨?_, ?_, ?_⟩
  · rintro before i uri after rfl hi hcurrent
    have hsplit : run (before ++ .attempt i .poll :: after) =
        (run before).run tls channel.connector initial (.attempt i .poll :: after) :=
      List.foldl_append ..
    rw [hsplit]
    exact Connections.fails_without_material (htold before) hi hcurrent after
  · intro front i value back hlog
    exact (htold inputs).reads i value front _ back hlog (decide_eq_true rfl)
  · intro i host config peer hi
    have hpinned : channel.connector.expectedId = some id := by rw [hconnector]
    obtain ⟨hpast, hcarries⟩ := ((htold inputs).story i _ hi).of_connected
    exact ⟨hpast, hcarries id hpinned⟩

/-- Every byte of a PEM text is a certificate; `[7]` is the collector's, among other names. -/
def sampleTls : TlsLibrary (List GeneralName) where
  pemSliceIter pem := pem.map fun byte => .ok [byte]
  addRoot _ := .ok ()
  privateKey pem := .ok pem
  safeDefaultProtocolVersions := .ok ()
  clientAuthCert _ _ := .ok ()
  serverName _ := .ok ()
  fromDer der :=
    if der = [7] then
      .ok [.dnsName "collector", .uniformResourceIdentifier "spiffe://td/other",
        .uniformResourceIdentifier "spiffe://td/collector"]
    else .ok [.dnsName "spiffe://td/collector", .uniformResourceIdentifier "spiffe://td/other"]
  subjectAltName names := .ok (some names)

/-- The first attempt comes before the material, the material rotates during the second, and
the third meets another peer. -/
def sampleInputs : List ChannelInput :=
  let uri : Uri := ⟨some "collector:4317", some "collector", some 4317⟩
  [.call uri, .attempt 0 .poll, .rotate 0 (some sampleMaterial), .call uri, .attempt 1 .poll,
    .rotate 0 (some ⟨[4], [5], [6]⟩), .attempt 1 (.tcp (.ok ()) (.ok ())), .call uri,
    .attempt 1 (.handshake (.ok (some [[7], [8]]))), .attempt 2 .poll,
    .attempt 2 (.tcp (.ok ()) (.ok ())), .attempt 2 (.handshake (.ok (some [[8], [7]])))]

theorem sampleInputs_pinned :
    ∃ channel, MtlsTransport.resolve acceptingLibraries.uris none (some (.custom 0))
        "https://collector:4317" none (some "spiffe://td/collector") =
          .ok (some (.live channel)) ∧
      let run := Connections.run sampleTls channel.connector (fun _ => none) {} sampleInputs
      run.attempts =
        [.failed "mTLS material is not available yet",
          .connected "collector" ⟨[[3]], [[1]], [2], ["h2"]⟩ (some [[7], [8]]),
          .failed (identityMismatch "spiffe://td/collector" ["spiffe://td/other"])] ∧
      (∀ host port, .dialed 0 host port ∉ run.log) ∧
      LeafCarries sampleTls (some [[7], [8]]) "spiffe://td/collector" := by
  let calls : List Setter :=
    [.collectorSpiffeId "spiffe://td/other", .mtls sampleMaterial,
      .collectorSpiffeId "spiffe://td/collector", .mtlsSource (.custom 0)]
  have henables : EnablesMtls calls :=
    ⟨.mtls sampleMaterial, by simp [calls], Or.inl ⟨sampleMaterial, rfl⟩⟩
  obtain ⟨mtls, hmtls, -, -, hpinned⟩ := pinned_connections sampleTls acceptingLibraries.uris
    (Telemetry.builder "svc") calls henables
  cases hmtls
  obtain ⟨channel, htransport, hconnector, hrun⟩ := hpinned "spiffe://td/collector" rfl
    "https://collector:4317" none _ rfl
  obtain ⟨hunready, -, hconnected⟩ := hrun (fun _ => none) sampleInputs
  have hattempts : (Connections.run sampleTls channel.connector (fun _ => none) {}
      sampleInputs).attempts =
        [.failed "mTLS material is not available yet",
          .connected "collector" ⟨[[3]], [[1]], [2], ["h2"]⟩ (some [[7], [8]]),
          .failed (identityMismatch "spiffe://td/collector" ["spiffe://td/other"])] := by
    rw [hconnector]
    decide +kernel
  refine ⟨channel, congrArg Except.ok htransport, hattempts, ?_, ?_⟩
  · refine (hunready [_] 0 _ _ rfl rfl ?_).2
    rw [hconnector]
    rfl
  · have hsecond := congrArg (·[1]?) hattempts
    exact (hconnected 1 _ _ _ hsecond).2

end OtelBootstrap.Builder
