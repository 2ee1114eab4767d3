import Mathlib.Data.Nat.Notation

/-! # The profiling bridge -/

namespace OtelBootstrap.Builder

/-! ## Endpoints -/

/-- What `url::Url` gives of an endpoint. -/
structure Url where
  username : String
  password : Option String
  host : Option String
  deriving DecidableEq, Repr

/-- `str::starts_with`. -/
def startsWith (s start : String) : Bool :=
  start.toList.isPrefixOf s.toList

def loopbackHosts : List String := ["127.0.0.1", "::1", "[::1]", "localhost"]

/-- `parse` is `Url::parse`. -/
def validatePyroscopeEndpoint (parse : String → Except String Url) (endpoint : String) :
    Except String Unit :=
  if startsWith endpoint "unix://" then .ok ()
  else if startsWith endpoint "http://" || startsWith endpoint "https://" then
    match parse endpoint with
    | .error e => .error e
    | .ok url =>
        if url.username ≠ "" ∨ url.password.isSome then
          .error ("pyroscope endpoint must not contain userinfo; got: " ++ endpoint ++
            " (ADR platform/0203 AC1)")
        else if url.host.getD "" ∈ loopbackHosts then .ok ()
        else
          .error ("pyroscope endpoint must target loopback (127.0.0.1, ::1, localhost, or " ++
            "unix socket); got: " ++ endpoint ++ " (ADR platform/0203 AC1)")
  else
    .error ("pyroscope endpoint must be http://, https://, or unix://; got: " ++ endpoint)

/-! ## Agents -/

structure ProfilingIdentity where
  hostName : Option String
  deploymentEnvironment : Option String
  serviceVersion : Option String
  deriving DecidableEq, Repr

/-- Absent and empty fields are left out. -/
def ProfilingIdentity.tagPairs (self : ProfilingIdentity) : List (String × String) :=
  let pair (key : String) (field : Option String) : List (String × String) :=
    match field.filter (!·.isEmpty) with
    | none => []
    | some value => [(key, value)]
  pair "host_name" self.hostName ++
    pair "deployment_environment" self.deploymentEnvironment ++
    pair "service_version" self.serviceVersion

inductive Backend where
  | pprof (sampleRate : ℕ)
  | jemalloc
  deriving DecidableEq, Repr

/-- What `PyroscopeAgentBuilder` is given. -/
structure PyroscopeAgent where
  url : String
  applicationName : String
  sampleRate : ℕ
  spyName : String
  spyVersion : String
  backend : Backend
  tags : List (String × String)
  deriving DecidableEq, Repr

inductive SamplingActivation where
  | activated
  | unavailable (e : String)
  | panicked
  deriving DecidableEq, Repr

/-- A panic while the heap agent is built is caught, and is an error of `build` here. -/
structure ProfilerLibrary where
  parseUrl : String → Except String Url
  build : PyroscopeAgent → Except String Unit
  start : PyroscopeAgent → Except String Unit
  activateJemallocSampling : SamplingActivation

structure ProfilingHandle where
  agent : PyroscopeAgent
  memoryAgent : Option PyroscopeAgent
  deriving DecidableEq, Repr

def pkgVersion : String := "2.21.1"

def profilingAgent (serviceName endpoint : String) (backend : Backend)
    (tags : List (String × String)) : PyroscopeAgent where
  url := endpoint
  applicationName := serviceName
  sampleRate := 100
  spyName := "pyroscope-rs"
  spyVersion := pkgVersion
  backend
  tags

/-- The agent that samples the CPU. -/
def cpuAgent (serviceName endpoint : String) (identity : ProfilingIdentity) : PyroscopeAgent :=
  profilingAgent serviceName endpoint (.pprof 100) identity.tagPairs

section Bridge

variable (profiler : ProfilerLibrary)

/-- Losing heap profiles is never an error. -/
def startMemoryAgent (serviceName endpoint : String) (tags : List (String × String)) :
    Option PyroscopeAgent :=
  match profiler.activateJemallocSampling with
  | .unavailable _ => none
  | .panicked => none
  | .activated =>
      let agent := profilingAgent serviceName endpoint .jemalloc tags
      match profiler.build agent with
      | .error _ => none
      | .ok () =>
          match profiler.start agent with
          | .error _ => none
          | .ok () => some agent

/-- `build()?.start()?`. -/
def launchAgent (agent : PyroscopeAgent) : Except String Unit :=
  match profiler.build agent with
  | .error e => .error e
  | .ok () => profiler.start agent

/-- `started` is the process-wide guard; the second component is the guard afterwards. -/
def startPyroscopeBridge (started : Bool) (serviceName endpoint : String)
    (identity : ProfilingIdentity) : Except String (Option ProfilingHandle) × Bool :=
  match validatePyroscopeEndpoint profiler.parseUrl endpoint with
  | .error e => (.error e, started)
  | .ok () =>
      if started then (.ok none, true)
      else
        let agent := cpuAgent serviceName endpoint identity
        match launchAgent profiler agent with
        | .error e => (.error e, true)
        | .ok () =>
            let memoryAgent := startMemoryAgent profiler serviceName endpoint identity.tagPairs
            (.ok (some { agent, memoryAgent }), true)

end Bridge

end OtelBootstrap.Builder
