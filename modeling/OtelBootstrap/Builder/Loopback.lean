import OtelBootstrap.Builder.Profiling

/-! # The hosts that the profiling endpoint may name -/

namespace OtelBootstrap.Builder

namespace Url

variable (url : Url)

/-- The authority names nobody. -/
def AuthorityEmpty : Prop :=
  url.username = "" ∧ url.password = none ∧ url.host.getD "" = ""

/-- The authority is a loopback host without userinfo. -/
def Loopback : Prop :=
  url.username = "" ∧ url.password = none ∧ ∃ host ∈ loopbackHosts, url.host = some host

instance : Decidable url.AuthorityEmpty :=
  inferInstanceAs (Decidable (_ ∧ _ ∧ _))

theorem getD_mem_loopbackHosts_iff :
    url.host.getD "" ∈ loopbackHosts ↔ ∃ host ∈ loopbackHosts, url.host = some host := by
  cases h : url.host with
  | none => simp [loopbackHosts]
  | some host => simp

end Url

/-! ## What the validator does, by the scheme -/

section Validate

variable {parse : String → Except String Url} {endpoint : String}

theorem validate_unix (h : startsWith endpoint "unix://" = true) :
    validatePyroscopeEndpoint parse endpoint = .ok () :=
  if_pos h

/-- Of two starts of one text, one starts the other. -/
theorem startsWith_or_startsWith {s start start' : String} (h : startsWith s start = true)
    (h' : startsWith s start' = true) :
    startsWith start start' = true ∨ startsWith start' start = true := by
  simp only [startsWith, List.isPrefixOf_iff_prefix] at h h' ⊢
  exact (List.prefix_or_prefix_of_prefix h h').symm

theorem not_http_of_unix (h : startsWith endpoint "unix://" = true) :
    ¬ (startsWith endpoint "http://" = true ∨ startsWith endpoint "https://" = true) := by
  intro hhttp
  rcases hhttp with hhttp | hhttps
  · have hboth := startsWith_or_startsWith h hhttp
    revert hboth
    decide +kernel
  · have hboth := startsWith_or_startsWith h hhttps
    revert hboth
    decide +kernel

theorem validate_http_iff (hunix : startsWith endpoint "unix://" = false) :
    validatePyroscopeEndpoint parse endpoint = .ok () ↔
      (startsWith endpoint "http://" = true ∨ startsWith endpoint "https://" = true) ∧
        ∃ url, parse endpoint = .ok url ∧ url.Loopback := by
  rw [validatePyroscopeEndpoint, hunix, if_neg Bool.false_ne_true]
  by_cases hhttp : startsWith endpoint "http://" = true ∨ startsWith endpoint "https://" = true
  · rw [if_pos (by simpa using hhttp)]
    cases hparse : parse endpoint with
    | error e => simp
    | ok url =>
        by_cases hinfo : url.username = "" ∧ url.password = none
        · by_cases hhost : url.host.getD "" ∈ loopbackHosts
          · have hloopback := url.getD_mem_loopbackHosts_iff.mp hhost
            simp [hhttp, hinfo, hhost, Url.Loopback, hloopback]
          · have hother := mt url.getD_mem_loopbackHosts_iff.mpr hhost
            simp [hinfo, hhost, Url.Loopback, hother]
        · have hany : url.username ≠ "" ∨ url.password.isSome = true := by
            rw [Option.isSome_iff_ne_none]
            by_cases hname : url.username = ""
            · exact .inr fun hnone => hinfo ⟨hname, hnone⟩
            · exact .inl hname
          have hnot : ¬ url.Loopback := fun h => hinfo ⟨h.1, h.2.1⟩
          simp [hany, hnot]
  · rw [if_neg (by simpa using hhttp)]
    simp [hhttp]

end Validate

/-! ## Only loopback -/

/-- What is let through is a URL whose authority is empty or loopback, and no URL is let
through that names another host. -/
structure LoopbackOnly (parse : String → Except String Url) (endpoint : String) : Prop where
  accepted : validatePyroscopeEndpoint parse endpoint = .ok () →
    ∃ url, parse endpoint = .ok url ∧
      (startsWith endpoint "unix://" = true ∧ url.AuthorityEmpty ∨
        (startsWith endpoint "http://" = true ∨ startsWith endpoint "https://" = true) ∧
          url.Loopback)
  rejected : ∀ url host, parse endpoint = .ok url → url.host = some host → host ≠ "" →
    host ∉ loopbackHosts → ∃ e, validatePyroscopeEndpoint parse endpoint = .error e

theorem validate_ne_ok_iff {parse : String → Except String Url} {endpoint : String} :
    (∃ e, validatePyroscopeEndpoint parse endpoint = .error e) ↔
      validatePyroscopeEndpoint parse endpoint ≠ .ok () := by
  cases validatePyroscopeEndpoint parse endpoint with
  | error e => simp
  | ok _ => simp

/-- Under `unix://` nothing is looked at, so what is let through is safe only where the text
is a URL without an authority. -/
theorem loopbackOnly_iff (parse : String → Except String Url) (endpoint : String) :
    LoopbackOnly parse endpoint ↔
      (startsWith endpoint "unix://" = true →
        ∃ url, parse endpoint = .ok url ∧ url.AuthorityEmpty) := by
  cases hunix : startsWith endpoint "unix://" with
  | true =>
      have hok : validatePyroscopeEndpoint parse endpoint = .ok () := validate_unix hunix
      constructor
      · intro h _
        obtain ⟨url, hurl, ⟨-, hempty⟩ | ⟨hhttp, -⟩⟩ := h.accepted hok
        · exact ⟨url, hurl, hempty⟩
        · exact absurd hhttp (not_http_of_unix hunix)
      · intro h
        obtain ⟨url, hurl, hempty⟩ := h rfl
        refine ⟨fun _ => ⟨url, hurl, .inl ⟨hunix, hempty⟩⟩, ?_⟩
        intro url' host hurl' hhost hne
        obtain rfl : url = url' := Except.ok.inj (hurl.symm.trans hurl')
        have hnone := hempty.2.2
        rw [hhost] at hnone
        exact absurd hnone hne
  | false =>
      have hiff := @validate_http_iff parse endpoint hunix
      refine ⟨fun _ h => absurd h Bool.false_ne_true, fun _ => ⟨?_, ?_⟩⟩
      · intro hok
        obtain ⟨hhttp, url, hurl, hloopback⟩ := hiff.mp hok
        exact ⟨url, hurl, .inr ⟨hhttp, hloopback⟩⟩
      · intro url host hurl hhost _ hother
        rw [validate_ne_ok_iff]
        intro hok
        obtain ⟨-, url', hurl', -, -, host', hhost', hname⟩ := hiff.mp hok
        obtain rfl : url = url' := Except.ok.inj (hurl.symm.trans hurl')
        obtain rfl : host = host' := Option.some.inj (hhost.symm.trans hname)
        exact hother hhost'

/-- A URL with a routable host is let through for its scheme. -/
theorem unix_host_accepted :
    ¬ LoopbackOnly
      (fun _ => .ok { username := "", password := none, host := some "collector.example.com" })
      "unix://collector.example.com/var/run/profiling.sock" := by
  intro h
  obtain ⟨e, he⟩ := h.rejected _ "collector.example.com" rfl rfl (by decide) (by decide)
  rw [validate_unix (by decide +kernel)] at he
  cases he

end OtelBootstrap.Builder
