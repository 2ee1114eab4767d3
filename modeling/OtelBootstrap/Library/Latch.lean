import OtelBootstrap.Library.Occurrences

/-! # Latches

A latch lets at most one call launch something. Each call is answered with what it launched,
with nothing when the latch was taken, or with an error. -/

namespace OtelBootstrap.Latch

variable {α ε β : Type*}

/-- One call of a run, with the latch before and after it. -/
structure Entry (ε β : Type*) where
  before : Bool
  answer : Except ε (Option β)
  after : Bool
  deriving DecidableEq, Repr

namespace Entry

variable (entry : Entry ε β)

def launched : Bool :=
  match entry.answer with
  | .ok (some _) => true
  | _ => false

def ignored : Bool :=
  match entry.answer with
  | .ok none => true
  | _ => false

def failed : Bool :=
  match entry.answer with
  | .error _ => true
  | _ => false

end Entry

/-! ## Runs -/

section Run

variable (call : Bool → α → Except ε (Option β) × Bool)

def entry (taken : Bool) (a : α) : Entry ε β where
  before := taken
  answer := (call taken a).1
  after := (call taken a).2

/-- The latch after some calls. -/
def latch (taken : Bool) (calls : List α) : Bool :=
  calls.foldl (fun taken a => (call taken a).2) taken

def run (taken : Bool) : List α → List (Entry ε β)
  | [] => []
  | a :: calls => entry call taken a :: run (call taken a).2 calls

theorem run_append (taken : Bool) (calls more : List α) :
    run call taken (calls ++ more) =
      run call taken calls ++ run call (latch call taken calls) more := by
  induction calls generalizing taken with
  | nil => rfl
  | cons a calls ih => exact congrArg (entry call taken a :: ·) (ih _)

theorem latch_snoc (taken : Bool) (calls : List α) (a : α) :
    latch call taken (calls ++ [a]) = (call (latch call taken calls) a).2 :=
  List.foldl_concat ..

theorem run_snoc (taken : Bool) (calls : List α) (a : α) :
    run call taken (calls ++ [a]) =
      run call taken calls ++ [entry call (latch call taken calls) a] :=
  run_append call taken calls [a]

/-- In a run from a free latch, the latch tells whether something was launched. -/
structure Reflects (calls : List α) : Prop where
  launchedOnce : (run call false calls).countP Entry.launched ≤ 1
  ignoredAfter : Before Entry.ignored (fun earlier => ∃ e ∈ earlier, e.launched = true)
    (run call false calls)
  failedKeeps : ∀ e ∈ run call false calls, e.failed = true → e.after = e.before
  /-- While nothing is launched, a call is answered as it would be on a free latch. -/
  retries : (∀ e ∈ run call false calls, e.launched = false) →
    ∀ next, call (latch call false calls) next = call false next

end Run

/-! ## Taking the latch before the launch -/

section Take

variable (check : α → Except ε Unit) (launch : α → Except ε β)

/-- A call is checked, takes the latch and only then launches. -/
def take (taken : Bool) (a : α) : Except ε (Option β) × Bool :=
  match check a with
  | .error e => (.error e, taken)
  | .ok () =>
      if taken then (.ok none, true)
      else
        match launch a with
        | .error e => (.error e, true)
        | .ok b => (.ok (some b), true)

/-- Whether a call gets past its check. -/
def admitted (a : α) : Bool :=
  match check a with
  | .error _ => false
  | .ok () => true

section Rules

variable {check : α → Except ε Unit} {launch : α → Except ε β} {a : α}

theorem take_error {e : ε} (h : check a = .error e) (taken : Bool) :
    take check launch taken a = (.error e, taken) := by
  simp only [take, h]

theorem take_taken (h : check a = .ok ()) : take check launch true a = (.ok none, true) := by
  simp only [take, h, if_true]

theorem take_failed {e : ε} (h : check a = .ok ()) (hlaunch : launch a = .error e) :
    take check launch false a = (.error e, true) := by
  simp only [take, h, hlaunch, Bool.false_eq_true, if_false]

theorem take_launched {b : β} (h : check a = .ok ()) (hlaunch : launch a = .ok b) :
    take check launch false a = (.ok (some b), true) := by
  simp only [take, h, hlaunch, Bool.false_eq_true, if_false]

theorem admitted_iff : admitted check a = true ↔ check a = .ok () := by
  cases h : check a <;> simp [admitted, h]

theorem admitted_of_error {e : ε} (h : check a = .error e) : admitted check a = false := by
  simp only [admitted, h]

end Rules

theorem latch_of_take (taken : Bool) (a : α) :
    (take check launch taken a).2 = (taken || admitted check a) := by
  cases hcheck : check a with
  | error e => rw [take_error hcheck, admitted_of_error hcheck, Bool.or_false]
  | ok _ =>
      rw [admitted_iff.mpr hcheck, Bool.or_true]
      cases taken with
      | true => rw [take_taken hcheck]
      | false =>
          cases hlaunch : launch a with
          | error e => rw [take_failed hcheck hlaunch]
          | ok b => rw [take_launched hcheck hlaunch]

/-- The latch is taken by the first admitted call, whatever its launch does. -/
theorem latch_take (taken : Bool) (calls : List α) :
    latch (take check launch) taken calls = (taken || calls.any (admitted check)) := by
  induction calls generalizing taken with
  | nil => exact (Bool.or_false taken).symm
  | cons a calls ih =>
      calc latch (take check launch) taken (a :: calls)
          = ((take check launch taken a).2 || calls.any (admitted check)) := ih _
        _ = (taken || (a :: calls).any (admitted check)) := by
            rw [latch_of_take, List.any_cons, Bool.or_assoc]

/-- What holds of a run as long as the launch that took the latch succeeded. -/
structure Sound (taken : Bool) (log : List (Entry ε β)) : Prop where
  launches : log.countP Entry.launched = taken.toNat
  ignoredAfter : Before Entry.ignored (fun earlier => ∃ e ∈ earlier, e.launched = true) log
  failedKeeps : ∀ e ∈ log, e.failed = true → e.after = e.before

namespace Sound

variable {check launch} {taken : Bool} {log : List (Entry ε β)}

theorem nil : Sound false ([] : List (Entry ε β)) where
  launches := rfl
  ignoredAfter := Before.nil
  failedKeeps := by simp

theorem snoc (h : Sound taken log) {e : Entry ε β} {taken' : Bool}
    (hlaunched : taken.toNat + (if e.launched then 1 else 0) = taken'.toNat)
    (hignored : e.ignored = true → taken = true) (hfailed : e.failed = true → e.after = e.before) :
    Sound taken' (log ++ [e]) where
  launches := by rw [List.countP_append, h.launches, List.countP_singleton, hlaunched]
  ignoredAfter := by
    apply h.ignoredAfter.snoc
    intro he
    rw [← List.countP_pos_iff, h.launches, hignored he]
    exact Nat.one_pos
  failedKeeps := List.forall_mem_append.mpr ⟨h.failedKeeps, by simpa using hfailed⟩

/-- One more call keeps this, if it launches when it takes the latch. -/
theorem call (h : Sound taken log) (a : α)
    (hlaunches : taken = false → check a = .ok () → ∃ b, launch a = .ok b) :
    Sound (take check launch taken a).2 (log ++ [entry (take check launch) taken a]) := by
  cases hcheck : check a with
  | error e =>
      apply h.snoc
      all_goals simp [entry, take_error hcheck, Entry.launched, Entry.ignored]
  | ok _ =>
      cases taken with
      | true =>
          apply h.snoc
          all_goals simp [entry, take_taken hcheck, Entry.launched, Entry.failed]
      | false =>
          obtain ⟨b, hlaunch⟩ := hlaunches rfl hcheck
          apply h.snoc
          all_goals
            simp [entry, take_launched hcheck hlaunch, Entry.launched, Entry.ignored,
              Entry.failed]

end Sound

/-- The first admitted call, if there is one, launches. -/
def FirstLaunches (calls : List α) : Prop :=
  ∀ a, calls.find? (admitted check) = some a → ∃ b, launch a = .ok b

theorem sound_run {calls : List α} (h : FirstLaunches check launch calls) :
    Sound (latch (take check launch) false calls) (run (take check launch) false calls) := by
  induction calls using List.reverseRecOn with
  | nil => exact Sound.nil
  | append_singleton calls a ih =>
      rw [latch_snoc, run_snoc]
      have hbefore : FirstLaunches check launch calls := by
        intro b hb
        apply h b
        rw [List.find?_append, hb, Option.some_or]
      apply (ih hbefore).call
      intro hfree hcheck
      rw [latch_take, Bool.false_or, List.any_eq_false] at hfree
      apply h a
      rw [List.find?_append, List.find?_eq_none.mpr hfree, Option.none_or, List.find?_singleton,
        if_pos (admitted_iff.mpr hcheck)]

/-- A first admitted call that does not launch leaves the latch taken behind its error. -/
theorem exists_failed {calls : List α} {a : α} {e : ε}
    (hfirst : calls.find? (admitted check) = some a) (hlaunch : launch a = .error e) :
    ⟨false, .error e, true⟩ ∈ run (take check launch) false calls := by
  obtain ⟨hadmitted, front, back, rfl, hfront⟩ := List.find?_eq_some_iff_append.mp hfirst
  have hfree : latch (take check launch) false front = false := by
    rw [latch_take, Bool.false_or, List.any_eq_false]
    simpa using hfront
  rw [run_append, hfree]
  apply List.mem_append_right
  have hentry : entry (take check launch) false a = ⟨false, .error e, true⟩ := by
    rw [entry, take_failed (admitted_iff.mp hadmitted) hlaunch]
  rw [run, hentry]
  exact List.mem_cons_self

theorem reflects_take_iff (calls : List α) :
    Reflects (take check launch) calls ↔ FirstLaunches check launch calls := by
  constructor
  · intro h a hfirst
    cases hlaunch : launch a with
    | ok b => exact ⟨b, rfl⟩
    | error e =>
        have hkeeps := h.failedKeeps _ (exists_failed check launch hfirst hlaunch) rfl
        cases hkeeps
  · intro h
    have hsound := sound_run check launch h
    constructor
    · rw [hsound.launches]
      exact Bool.toNat_le _
    · exact hsound.ignoredAfter
    · exact hsound.failedKeeps
    · intro hnone next
      have hfree : latch (take check launch) false calls = false := by
        rw [← Bool.toNat_eq_zero, ← hsound.launches, List.countP_eq_zero]
        intro e he
        rw [hnone e he]
        exact Bool.false_ne_true
      rw [hfree]

end Take

end OtelBootstrap.Latch
