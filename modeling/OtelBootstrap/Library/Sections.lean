import Mathlib.Data.List.Induction
import Mathlib.Data.List.Perm.Basic
import Mathlib.Logic.Function.Basic

/-! # Atomic sections with deferred effects

Operations share one state and change it only inside atomic sections. A section may
leave effects behind; they are emitted later, one at a time and in any order, but
before the same operation enters its next section. -/

namespace OtelBootstrap.Sections

/-- One step of a run: an operation ran a section, or emitted one of its effects. -/
inductive Event (κ ε : Type*) where
  | enter (k : κ)
  | emit (e : ε)

/-- Every operation is a list of sections. `exec i k s` is the state after operation `i`
ran `k` and the effects it left, or `none` while the section is not enabled. -/
structure Machine (ι κ ε σ : Type*) where
  program : ι → List κ
  exec : ι → κ → σ → Option (σ × List ε)

structure Config (ι κ ε σ : Type*) where
  shared : σ
  todo : ι → List κ
  pending : List (ι × ε)
  trace : List (ι × Event κ ε)

/-- What the scheduler picks: the next section of an operation, or a pending effect. -/
inductive Choice (ι : Type*) where
  | enter (i : ι)
  | emit (n : ℕ)

variable {ι κ ε σ : Type*}

def enterOf : ι × Event κ ε → Option (ι × κ)
  | (i, .enter k) => some (i, k)
  | (_, .emit _) => none

def emitOf : ι × Event κ ε → Option (ι × ε)
  | (_, .enter _) => none
  | (i, .emit e) => some (i, e)

/-- The sections of a trace, in the order in which they were entered. -/
def history (trace : List (ι × Event κ ε)) : List (ι × κ) :=
  trace.filterMap enterOf

/-- The effects of a trace, in the order in which they were emitted. -/
def emitted (trace : List (ι × Event κ ε)) : List (ι × ε) :=
  trace.filterMap emitOf

@[simp] theorem history_nil : history ([] : List (ι × Event κ ε)) = [] := rfl

@[simp] theorem emitted_nil : emitted ([] : List (ι × Event κ ε)) = [] := rfl

@[simp] theorem history_append (t u : List (ι × Event κ ε)) :
    history (t ++ u) = history t ++ history u := by
  simp [history]

@[simp] theorem emitted_append (t u : List (ι × Event κ ε)) :
    emitted (t ++ u) = emitted t ++ emitted u := by
  simp [emitted]

@[simp] theorem history_enter (i : ι) (k : κ) :
    history [((i, .enter k) : ι × Event κ ε)] = [(i, k)] := rfl

@[simp] theorem history_emit (i : ι) (e : ε) :
    history [((i, .emit e) : ι × Event κ ε)] = [] := rfl

@[simp] theorem emitted_enter (i : ι) (k : κ) :
    emitted [((i, .enter k) : ι × Event κ ε)] = [] := rfl

@[simp] theorem emitted_emit (i : ι) (e : ε) :
    emitted [((i, .emit e) : ι × Event κ ε)] = [(i, e)] := rfl

theorem mem_history {t : List (ι × Event κ ε)} {i : ι} {k : κ} :
    (i, k) ∈ history t ↔ (i, .enter k) ∈ t := by
  rw [history, List.mem_filterMap]
  constructor
  · rintro ⟨⟨j, event⟩, hmem, hevent⟩
    cases event with
    | enter k' =>
        obtain ⟨rfl, rfl⟩ := Prod.mk.inj (Option.some.inj hevent)
        exact hmem
    | emit e => cases hevent
  · exact fun hmem => ⟨_, hmem, rfl⟩

/-- Every operation that has entered a section has entered and emitted all it had to. -/
def Config.Complete (c : Config ι κ ε σ) : Prop :=
  c.pending = [] ∧ ∀ i k, (i, k) ∈ history c.trace → c.todo i = []

namespace Machine

variable (m : Machine ι κ ε σ)

/-- Nothing has been entered yet. -/
def start (s : σ) : Config ι κ ε σ where
  shared := s
  todo := m.program
  pending := []
  trace := []

variable [DecidableEq ι]

/-- An operation whose last section still has pending effects cannot enter the next. -/
def step? (c : Config ι κ ε σ) : Choice ι → Option (Config ι κ ε σ)
  | .enter i =>
      match c.todo i with
      | [] => none
      | k :: rest =>
          if c.pending.any (fun p => p.1 = i) then none
          else (m.exec i k c.shared).map fun r =>
            { shared := r.1
              todo := Function.update c.todo i rest
              pending := c.pending ++ r.2.map (i, ·)
              trace := c.trace ++ [(i, .enter k)] }
  | .emit n =>
      c.pending[n]?.map fun p =>
        { c with
          pending := c.pending.eraseIdx n
          trace := c.trace ++ [(p.1, .emit p.2)] }

/-- Run a schedule; `none` if some choice in it is not available. -/
def run? (c : Config ι κ ε σ) : List (Choice ι) → Option (Config ι κ ε σ)
  | [] => some c
  | x :: xs => (m.step? c x).bind (run? · xs)

/-- What entering a section does to a configuration. -/
theorem step?_enter {c c' : Config ι κ ε σ} {i : ι} (h : m.step? c (.enter i) = some c') :
    ∃ k rest s' es, c.todo i = k :: rest ∧ (∀ p ∈ c.pending, p.1 ≠ i) ∧
      m.exec i k c.shared = some (s', es) ∧
      c' = ⟨s', Function.update c.todo i rest, c.pending ++ es.map (i, ·),
        c.trace ++ [(i, .enter k)]⟩ := by
  simp only [step?] at h
  split at h
  · cases h
  · rename_i k rest htodo
    split at h
    · cases h
    · rename_i hidle
      obtain ⟨⟨s', es⟩, hexec, hc⟩ := Option.map_eq_some_iff.mp h
      refine ⟨k, rest, s', es, htodo, ?_, hexec, hc.symm⟩
      intro p hp he
      exact hidle (List.any_eq_true.mpr ⟨p, hp, by simpa using he⟩)

/-- What emitting an effect does to a configuration. -/
theorem step?_emit {c c' : Config ι κ ε σ} {n : ℕ} (h : m.step? c (.emit n) = some c') :
    ∃ i e, c.pending[n]? = some (i, e) ∧
      c' = ⟨c.shared, c.todo, c.pending.eraseIdx n, c.trace ++ [(i, .emit e)]⟩ := by
  simp only [step?] at h
  obtain ⟨⟨i, e⟩, hget, hc⟩ := Option.map_eq_some_iff.mp h
  exact ⟨i, e, hget, hc.symm⟩

theorem run?_append (c : Config ι κ ε σ) (xs ys : List (Choice ι)) :
    m.run? c (xs ++ ys) = (m.run? c xs).bind (m.run? · ys) := by
  induction xs generalizing c with
  | nil => rfl
  | cons x xs ih =>
      simp only [List.cons_append, run?]
      cases m.step? c x with
      | none => rfl
      | some c' => simpa using ih c'

/-- Whatever holds at first and survives every step holds after every run. -/
theorem run?_induction {motive : Config ι κ ε σ → Prop} {c c' : Config ι κ ε σ}
    {xs : List (Choice ι)} (h : m.run? c xs = some c') (hfirst : motive c)
    (hstep : ∀ {a b : Config ι κ ε σ} {x : Choice ι}, m.step? a x = some b → motive a → motive b) :
    motive c' := by
  induction xs generalizing c with
  | nil =>
      obtain rfl := Option.some.inj h
      exact hfirst
  | cons x xs ih =>
      obtain ⟨b, hb, hrest⟩ := Option.bind_eq_some_iff.mp h
      exact ih hrest (hstep hb hfirst)

/-- A step adds one event to the trace. -/
theorem step?_trace {c c' : Config ι κ ε σ} {x : Choice ι} (h : m.step? c x = some c') :
    ∃ event, c'.trace = c.trace ++ [event] := by
  cases x with
  | enter i =>
      obtain ⟨k, rest, s', es, -, -, -, rfl⟩ := m.step?_enter h
      exact ⟨_, rfl⟩
  | emit n =>
      obtain ⟨i, e, -, rfl⟩ := m.step?_emit h
      exact ⟨_, rfl⟩

/-- Every moment of a trace is a step of the run that produced it. -/
theorem run?_split {c c' : Config ι κ ε σ} {xs : List (Choice ι)}
    (h : m.run? c xs = some c') (hnil : c.trace = [])
    {before after : List (ι × Event κ ε)} {event : ι × Event κ ε}
    (htrace : c'.trace = before ++ event :: after) :
    ∃ ys y zs a b, xs = ys ++ y :: zs ∧ m.run? c ys = some a ∧ a.trace = before ∧
      m.step? a y = some b ∧ b.trace = before ++ [event] := by
  induction xs using List.reverseRecOn generalizing c' after with
  | nil =>
      obtain rfl := Option.some.inj h
      simp [hnil] at htrace
  | append_singleton xs x ih =>
      rw [run?_append] at h
      obtain ⟨a, ha, hlast⟩ := Option.bind_eq_some_iff.mp h
      obtain ⟨b, hb, hrun⟩ := Option.bind_eq_some_iff.mp hlast
      obtain rfl := Option.some.inj hrun
      obtain ⟨event', hevent⟩ := m.step?_trace hb
      rcases List.eq_nil_or_concat after with rfl | ⟨after, last, rfl⟩
      · obtain ⟨hbefore, hsame⟩ := List.append_inj' (hevent.symm.trans htrace) rfl
        refine ⟨xs, x, [], a, b, by simp, ha, hbefore, hb, ?_⟩
        simpa using htrace
      · have hcat : a.trace ++ [event'] = (before ++ event :: after) ++ [last] := by
          rw [← hevent, htrace]
          simp [List.concat_eq_append]
        obtain ⟨hfront, -⟩ := List.append_inj' hcat rfl
        obtain ⟨ys, y, zs, a', b', hxs, hrest⟩ := ih ha hfront
        exact ⟨ys, y, zs ++ [x], a', b', by simp [hxs], hrest⟩

/-- Every section of a history was entered by a step of the run. -/
theorem run?_section {c c' : Config ι κ ε σ} {xs : List (Choice ι)}
    (h : m.run? c xs = some c') (hnil : c.trace = [])
    {before after : List (ι × κ)} {i : ι} {k : κ}
    (hhistory : history c'.trace = before ++ (i, k) :: after) :
    ∃ ys zs a s' es, xs = ys ++ .enter i :: zs ∧ m.run? c ys = some a ∧
      history a.trace = before ∧ m.exec i k a.shared = some (s', es) := by
  obtain ⟨t, u, htrace, hbefore, hrest⟩ := List.filterMap_eq_append_iff.mp hhistory
  obtain ⟨v, event, w, rfl, hv, hevent, -⟩ := List.filterMap_eq_cons_iff.mp hrest
  have hcut : c'.trace = (t ++ v) ++ event :: w := by simp [htrace]
  obtain ⟨ys, y, zs, a, b, hxs, ha, hat, hstep, hb⟩ := m.run?_split h hnil hcut
  have hbeforeA : history a.trace = before := by
    have hnone : history v = [] := List.filterMap_eq_nil_iff.mpr hv
    rw [hat, history_append, hnone, List.append_nil]
    exact hbefore
  cases y with
  | enter j =>
      obtain ⟨k', rest, s', es, -, -, hexec, rfl⟩ := m.step?_enter hstep
      have hlast : event = (j, .enter k') := by
        simpa [hat] using hb.symm
      subst hlast
      obtain ⟨rfl, rfl⟩ := Prod.mk.inj (Option.some.inj hevent)
      exact ⟨ys, zs, a, s', es, hxs, ha, hbeforeA, hexec⟩
  | emit n =>
      obtain ⟨j, e, -, rfl⟩ := m.step?_emit hstep
      have hlast : event = (j, .emit e) := by
        simpa [hat] using hb.symm
      subst hlast
      cases hevent

/-- An operation that has nothing left to enter or to emit stays silent. -/
theorem run?_silent {c c' : Config ι κ ε σ} {xs : List (Choice ι)} (h : m.run? c xs = some c')
    {i : ι} (hdone : c.todo i = []) (hidle : ∀ p ∈ c.pending, p.1 ≠ i) :
    ∃ t, c'.trace = c.trace ++ t ∧ ∀ event ∈ t, event.1 ≠ i := by
  have hall := m.run?_induction (motive := fun b => (b.todo i = [] ∧ ∀ p ∈ b.pending, p.1 ≠ i) ∧
    ∃ t, b.trace = c.trace ++ t ∧ ∀ event ∈ t, event.1 ≠ i) h
    ⟨⟨hdone, hidle⟩, [], by simp⟩ ?_
  · exact hall.2
  · rintro a b x hstep ⟨⟨hdone, hidle⟩, t, htrace, hsilent⟩
    cases x with
    | enter j =>
        obtain ⟨k, rest, s', es, htodo, -, -, rfl⟩ := m.step?_enter hstep
        have hne : j ≠ i := by
          rintro rfl
          cases hdone.symm.trans htodo
        refine ⟨⟨?_, ?_⟩, t ++ [(j, .enter k)], by simp [htrace], ?_⟩
        · simpa [Function.update_of_ne hne.symm] using hdone
        · intro p hp
          rcases List.mem_append.mp hp with hp | hp
          · exact hidle p hp
          · obtain ⟨e, -, rfl⟩ := List.mem_map.mp hp
            exact hne
        · exact List.forall_mem_append.mpr ⟨hsilent, by simpa using hne⟩
    | emit n =>
        obtain ⟨j, e, hget, rfl⟩ := m.step?_emit hstep
        have hne : j ≠ i := hidle _ (List.mem_of_getElem? hget)
        refine ⟨⟨hdone, fun p hp => hidle p (List.mem_of_mem_eraseIdx hp)⟩,
          t ++ [(j, .emit e)], by simp [htrace], ?_⟩
        exact List.forall_mem_append.mpr ⟨hsilent, by simpa using hne⟩

/-- A configuration together with a schedule that leads to it. -/
structure Run (s : σ) where
  schedule : List (Choice ι)
  final : Config ι κ ε σ
  ran : m.run? (m.start s) schedule = some final

/-- The run of a schedule whose choices are all available. -/
def Run.of {m : Machine ι κ ε σ} {s : σ} (schedule : List (Choice ι))
    (h : (m.run? (m.start s) schedule).isSome) : m.Run s where
  schedule
  final := (m.run? (m.start s) schedule).get h
  ran := (Option.some_get h).symm

/-! ## Program order -/

/-- The sections an operation has entered, followed by those it has not, are its program. -/
theorem run?_program {s : σ} {c : Config ι κ ε σ} {xs : List (Choice ι)}
    (h : m.run? (m.start s) xs = some c) (i : ι) :
    ((history c.trace).filter (fun p => p.1 = i)).map Prod.snd ++ c.todo i = m.program i := by
  refine m.run?_induction (motive := fun c =>
    ((history c.trace).filter (fun p => p.1 = i)).map Prod.snd ++ c.todo i = m.program i)
    h (by simp [start]) ?_
  intro a b x hstep ih
  cases x with
  | enter j =>
      obtain ⟨k, rest, s', es, htodo, -, -, rfl⟩ := m.step?_enter hstep
      by_cases hij : j = i
      · subst j
        simpa [htodo, List.append_assoc] using ih
      · have hne : i ≠ j := fun he => hij he.symm
        simpa [hij, Function.update_of_ne hne] using ih
  | emit n =>
      obtain ⟨j, e, -, rfl⟩ := m.step?_emit hstep
      simpa using ih

/-- An operation that started and completed entered exactly its program. -/
theorem history_of_complete {s : σ} {c : Config ι κ ε σ} {xs : List (Choice ι)}
    (h : m.run? (m.start s) xs = some c) (hc : c.Complete) {i : ι} {k : κ}
    (hi : (i, k) ∈ history c.trace) :
    (history c.trace).filter (fun p => p.1 = i) = (m.program i).map (i, ·) := by
  have hprogram := m.run?_program h i
  rw [hc.2 i k hi, List.append_nil] at hprogram
  have hsame : ∀ p ∈ (history c.trace).filter (fun p => p.1 = i),
      ((i, ·) ∘ Prod.snd) p = id p := by
    rintro ⟨j, k'⟩ hj
    have hji : j = i := by simpa using (List.mem_filter.mp hj).2
    simp [hji]
  rw [← hprogram, List.map_map, List.map_congr_left hsame, List.map_id]

/-! ## Linearization -/

/-- The sections of `h`, run one after another from `s`, lead to `s'` and leave `es`. -/
inductive Replays (s : σ) : List (ι × κ) → σ → List (ι × ε) → Prop where
  | nil : Replays s [] s []
  | snoc {h s₁ es i k s₂ es'} : Replays s h s₁ es → m.exec i k s₁ = some (s₂, es') →
      Replays s (h ++ [(i, k)]) s₂ (es ++ es'.map (i, ·))

/-- Under every interleaving the shared state is that of the sections run one after
another, and the effects emitted or pending are, up to order, those they left. -/
theorem run?_linearizes {s : σ} {c : Config ι κ ε σ} {xs : List (Choice ι)}
    (h : m.run? (m.start s) xs = some c) :
    ∃ es, m.Replays s (history c.trace) c.shared es ∧
      (emitted c.trace ++ c.pending).Perm es := by
  refine m.run?_induction (motive := fun c => ∃ es, m.Replays s (history c.trace) c.shared es ∧
    (emitted c.trace ++ c.pending).Perm es) h ⟨[], .nil, by simp [start]⟩ ?_
  rintro a b x hstep ⟨es, hreplay, hperm⟩
  cases x with
  | enter i =>
      obtain ⟨k, rest, s', es', -, -, hexec, rfl⟩ := m.step?_enter hstep
      refine ⟨es ++ es'.map (i, ·), ?_, ?_⟩
      · simpa using Replays.snoc hreplay hexec
      · simpa [List.append_assoc] using hperm.append_right (es'.map (i, ·))
  | emit n =>
      obtain ⟨i, e, hget, rfl⟩ := m.step?_emit hstep
      refine ⟨es, by simpa using hreplay, ?_⟩
      obtain ⟨hn, hget⟩ := List.getElem?_eq_some_iff.mp hget
      have hback : ((i, e) :: a.pending.eraseIdx n).Perm a.pending := by
        rw [← hget]
        exact List.getElem_cons_eraseIdx_perm hn
      simpa [List.append_assoc] using (hback.append_left (emitted a.trace)).trans hperm

/-! ## Serial runs -/

/-- Pending effects can always be emitted. -/
theorem run?_drain (c : Config ι κ ε σ) :
    ∃ xs c', m.run? c xs = some c' ∧ c'.shared = c.shared ∧ c'.todo = c.todo ∧
      c'.pending = [] ∧ history c'.trace = history c.trace := by
  rcases c with ⟨s, todo, pending, trace⟩
  induction pending generalizing trace with
  | nil => exact ⟨[], _, rfl, rfl, rfl, rfl, rfl⟩
  | cons p pending ih =>
      obtain ⟨xs, c', hrun, hshared, htodo, hpending, hhistory⟩ :=
        ih (trace ++ [(p.1, .emit p.2)])
      refine ⟨.emit 0 :: xs, c', hrun, hshared, htodo, hpending, ?_⟩
      simpa using hhistory

/-- An enabled section can run to its end while nothing else does. -/
theorem run?_serial {c : Config ι κ ε σ} {i : ι} {k : κ} {rest : List κ} {s' : σ}
    {es : List ε} (hidle : c.pending = []) (htodo : c.todo i = k :: rest)
    (hexec : m.exec i k c.shared = some (s', es)) :
    ∃ xs c', m.run? c xs = some c' ∧ c'.shared = s' ∧
      c'.pending = [] ∧ history c'.trace = history c.trace ++ [(i, k)] := by
  have hstep : m.step? c (.enter i) = some ⟨s', Function.update c.todo i rest,
      es.map (i, ·), c.trace ++ [(i, .enter k)]⟩ := by
    simp [step?, htodo, hidle, hexec]
  obtain ⟨xs, c', hrun, hshared, -, hpending, hhistory⟩ := m.run?_drain ⟨s',
    Function.update c.todo i rest, es.map (i, ·), c.trace ++ [(i, .enter k)]⟩
  refine ⟨.enter i :: xs, c', ?_, hshared, hpending, ?_⟩
  · rw [run?, hstep]
    exact hrun
  · simpa using hhistory

/-- A serial execution in program order is a run. -/
theorem Replays.run {s s' : σ} {h : List (ι × κ)} {es : List (ι × ε)}
    (hr : m.Replays s h s' es)
    (hprogram : ∀ i, (h.filter (fun p => p.1 = i)).map Prod.snd <+: m.program i) :
    ∃ xs c, m.run? (m.start s) xs = some c ∧ c.shared = s' ∧ c.pending = [] ∧
      history c.trace = h := by
  induction hr with
  | nil => exact ⟨[], _, rfl, rfl, rfl, rfl⟩
  | @snoc h s₁ es i k s₂ es' hr hexec ih =>
      have hfront : ∀ j, (h.filter (fun p => p.1 = j)).map Prod.snd <+: m.program j := by
        intro j
        refine List.IsPrefix.trans ?_ (hprogram j)
        rw [List.filter_append, List.map_append]
        exact List.prefix_append ..
      obtain ⟨xs, c, hrun, hshared, hidle, hhistory⟩ := ih hfront
      have htodo : ∃ rest, c.todo i = k :: rest := by
        have hrest := m.run?_program hrun i
        obtain ⟨rest, hk⟩ := hprogram i
        rw [hhistory] at hrest
        refine ⟨rest, List.append_cancel_left (hrest.trans ?_)⟩
        rw [← hk]
        simp
      obtain ⟨rest, htodo⟩ := htodo
      subst hshared
      obtain ⟨ys, c', hrun', hshared', hidle', hhistory'⟩ := m.run?_serial hidle htodo hexec
      refine ⟨xs ++ ys, c', ?_, hshared', hidle', ?_⟩
      · rw [run?_append, hrun]
        exact hrun'
      · rw [hhistory', hhistory]

theorem filter_fst_of_nodup {h : List (ι × κ)} {i : ι} {k : κ}
    (hnodup : (h.map Prod.fst).Nodup) (hmem : (i, k) ∈ h) :
    h.filter (fun p => p.1 = i) = [(i, k)] := by
  induction h with
  | nil => cases hmem
  | cons x h ih =>
      rw [List.map_cons, List.nodup_cons] at hnodup
      rcases List.mem_cons.mp hmem with rfl | hmem
      · rw [List.filter_cons_of_pos (by simp), List.filter_eq_nil_iff.mpr]
        intro p hp he
        exact hnodup.1 (List.mem_map.mpr ⟨p, hp, of_decide_eq_true he⟩)
      · have hne : x.1 ≠ i := by
          rintro rfl
          exact hnodup.1 (List.mem_map.mpr ⟨_, hmem, rfl⟩)
        rw [List.filter_cons_of_neg (by simpa using hne)]
        exact ih hnodup.2 hmem

/-- A serial execution of operations that are one section each is a complete run. -/
theorem Replays.completeRun {s s' : σ} {h : List (ι × κ)} {es : List (ι × ε)}
    (hr : m.Replays s h s' es) (hnodup : (h.map Prod.fst).Nodup)
    (hsingle : ∀ i k, (i, k) ∈ h → m.program i = [k]) :
    ∃ r : m.Run s, r.final.Complete ∧ history r.final.trace = h := by
  have hprogram : ∀ i, (h.filter (fun p => p.1 = i)).map Prod.snd <+: m.program i := by
    intro i
    by_cases hi : ∃ k, (i, k) ∈ h
    · obtain ⟨k, hk⟩ := hi
      rw [filter_fst_of_nodup hnodup hk, hsingle i k hk]
      exact List.prefix_rfl
    · rw [List.filter_eq_nil_iff.mpr]
      · exact List.nil_prefix
      · rintro ⟨j, k⟩ hj he
        exact hi ⟨k, of_decide_eq_true he ▸ hj⟩
  obtain ⟨xs, c, hrun, -, hidle, hhistory⟩ := hr.run m hprogram
  refine ⟨⟨xs, c, hrun⟩, ⟨hidle, ?_⟩, hhistory⟩
  intro i k hi
  have hrest := m.run?_program hrun i
  rw [hhistory] at hi hrest
  rw [filter_fst_of_nodup hnodup hi, hsingle i k hi] at hrest
  simpa using hrest

end Machine

end OtelBootstrap.Sections
