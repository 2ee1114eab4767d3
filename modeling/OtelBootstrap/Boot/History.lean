import Mathlib.Data.List.Basic
import OtelBootstrap.Boot.Equations
import OtelBootstrap.Boot.System

/-! # What a history of locked sections says

The functions below read the sections in the order in which they took the lock, and
never the state they left behind. -/

namespace OtelBootstrap.Boot

variable {ι : Type*} (timeline : Timeline)

/-! ## Phases, ready and attach -/

def recordOf : ι × Section ι → Option (ι × Phase)
  | (i, .record call) =>
      some (i, timeline.phaseOf call.name call.start call.end_ call.outcome)
  | _ => none

/-- The phases recorded, each with the operation that recorded it. -/
def recorded (h : List (ι × Section ι)) : List (ι × Phase) :=
  h.filterMap (recordOf timeline)

def readyOf : ι × Section ι → Option (SystemTime × Duration)
  | (_, .ready end_) => some (timeline.wall end_, end_ - timeline.origin)
  | _ => none

/-- The first ready: the only one that counts. -/
def firstReady (h : List (ι × Section ι)) : Option (SystemTime × Duration) :=
  h.findSome? (readyOf timeline)

def attachOf : ι × Section ι → Option Exporter
  | (_, .attach provider _ spanContext) => some (timeline.connect provider spanContext)
  | _ => none

/-- The first attach of a history, and what ran before and after it. -/
structure Attachment (ι : Type*) where
  before : List (ι × Section ι)
  op : ι
  exporter : Exporter
  after : List (ι × Section ι)

def attachment : List (ι × Section ι) → Option (Attachment ι)
  | [] => none
  | x :: h =>
      match attachOf timeline x with
      | some exporter => some ⟨[], x.1, exporter, h⟩
      | none => (attachment h).map fun a => { a with before := x :: a.before }

theorem recorded_append (g h : List (ι × Section ι)) :
    recorded timeline (g ++ h) = recorded timeline g ++ recorded timeline h := by
  simp [recorded]

theorem firstReady_snoc (h : List (ι × Section ι)) (x : ι × Section ι) :
    firstReady timeline (h ++ [x]) = (firstReady timeline h).or (readyOf timeline x) := by
  simp [firstReady, List.findSome?_append]

theorem attachment_snoc (h : List (ι × Section ι)) (x : ι × Section ι) :
    attachment timeline (h ++ [x]) =
      match attachment timeline h with
      | some a => some { a with after := a.after ++ [x] }
      | none => (attachOf timeline x).map fun exporter => ⟨h, x.1, exporter, []⟩ := by
  induction h with
  | nil => cases hx : attachOf timeline x <;> simp [attachment, hx]
  | cons y h ih =>
      simp only [List.cons_append, attachment]
      cases attachOf timeline y with
      | some exporter => rfl
      | none =>
          simp only [ih]
          cases attachment timeline h with
          | some a => rfl
          | none => cases attachOf timeline x <;> rfl

theorem attachment_snoc_of_some {h : List (ι × Section ι)} {a : Attachment ι}
    (ha : attachment timeline h = some a) (x : ι × Section ι) :
    attachment timeline (h ++ [x]) = some { a with after := a.after ++ [x] } := by
  rw [attachment_snoc, ha]

theorem attachment_snoc_of_not {h : List (ι × Section ι)} {x : ι × Section ι}
    (ha : attachment timeline h = none) (hx : attachOf timeline x = none) :
    attachment timeline (h ++ [x]) = none := by
  rw [attachment_snoc, ha, hx]
  rfl

/-- Only an attach attaches, and only once. -/
theorem attachment_exporter_snoc {h : List (ι × Section ι)} {x : ι × Section ι}
    (hx : attachOf timeline x = none) :
    (attachment timeline (h ++ [x])).map (·.exporter) =
      (attachment timeline h).map (·.exporter) := by
  cases ha : attachment timeline h with
  | none => simp [attachment_snoc_of_not timeline ha hx]
  | some a => simp [attachment_snoc_of_some timeline ha]

theorem attachment_isSome_snoc {h : List (ι × Section ι)} {x : ι × Section ι}
    (hx : attachOf timeline x = none) :
    (attachment timeline (h ++ [x])).isSome = (attachment timeline h).isSome := by
  simpa using congrArg Option.isSome (attachment_exporter_snoc timeline (h := h) hx)

/-- An attachment cuts the history at the first attach. -/
theorem attachment_eq_some {h : List (ι × Section ι)} {a : Attachment ι}
    (ha : attachment timeline h = some a) :
    ∃ k, h = a.before ++ (a.op, k) :: a.after ∧
      attachOf timeline (a.op, k) = some a.exporter ∧
      attachment timeline a.before = none := by
  induction h generalizing a with
  | nil => cases ha
  | cons x h ih =>
      rw [attachment] at ha
      cases hx : attachOf timeline x with
      | some exporter =>
          simp only [hx, Option.some.injEq] at ha
          subst a
          exact ⟨x.2, by simp, by simpa using hx, rfl⟩
      | none =>
          simp only [hx] at ha
          obtain ⟨b, hb, rfl⟩ := Option.map_eq_some_iff.mp ha
          obtain ⟨k, hh, hk, hnone⟩ := ih hb
          refine ⟨k, by simp [← hh], hk, ?_⟩
          simp [attachment, hx, hnone]

theorem attachment_append_of_some {g : List (ι × Section ι)} {a : Attachment ι}
    (ha : attachment timeline g = some a) (h : List (ι × Section ι)) :
    attachment timeline (g ++ h) = some { a with after := a.after ++ h } := by
  induction h using List.reverseRecOn with
  | nil => simpa using ha
  | append_singleton h x ih =>
      rw [← List.append_assoc, attachment_snoc, ih]
      simp

theorem attachment_eq_none {h : List (ι × Section ι)} :
    attachment timeline h = none ↔ ∀ x ∈ h, attachOf timeline x = none := by
  induction h with
  | nil => simp [attachment]
  | cons x h ih => cases hx : attachOf timeline x <;> simp [attachment, hx, ih]

/-! ## Closes -/

variable [DecidableEq ι]

/-- A close counts when it is unconditional, or runs for the handles that own the boot. -/
def closeOf (owner : ι) : ι × Section ι → Option Instant
  | (_, .close now) => some now
  | (_, .closeBoot handles now) => if handles = owner then some now else none
  | _ => none

/-- The first close after the attach. -/
def closedAt (h : List (ι × Section ι)) : Option Instant :=
  (attachment timeline h).bind fun a => a.after.findSome? (closeOf a.op)

/-- The root span is due to be ended: something was attached, and the boot is ready or
was closed since. -/
def Ended (h : List (ι × Section ι)) : Prop :=
  (attachment timeline h).isSome ∧
    ((firstReady timeline h).isSome ∨ (closedAt timeline h).isSome)

/-- A ready took the lock before every close that follows the attach. -/
def ReadyFirst (h : List (ι × Section ι)) : Prop :=
  ∃ before i end_ after, h = before ++ (i, .ready end_) :: after ∧
    closedAt timeline before = none

theorem closedAt_of_unattached {h : List (ι × Section ι)}
    (ha : attachment timeline h = none) : closedAt timeline h = none := by
  simp [closedAt, ha]

theorem closedAt_snoc_of_some {h : List (ι × Section ι)} {a : Attachment ι}
    (ha : attachment timeline h = some a) (x : ι × Section ι) :
    closedAt timeline (h ++ [x]) = (closedAt timeline h).or (closeOf a.op x) := by
  simp [closedAt, attachment_snoc_of_some timeline ha, ha, List.findSome?_append]

theorem closedAt_snoc_of_none {h : List (ι × Section ι)}
    (ha : attachment timeline h = none) (x : ι × Section ι) :
    closedAt timeline (h ++ [x]) = none := by
  rw [closedAt, attachment_snoc, ha]
  cases attachOf timeline x <;> rfl

theorem not_ended_of_unattached {h : List (ι × Section ι)}
    (ha : attachment timeline h = none) : ¬ Ended timeline h := by
  simp [Ended, ha]

theorem ended_snoc_of_some {h : List (ι × Section ι)} {a : Attachment ι}
    (ha : attachment timeline h = some a) (x : ι × Section ι) :
    Ended timeline (h ++ [x]) ↔
      Ended timeline h ∨ (readyOf timeline x).isSome ∨ (closeOf a.op x).isSome := by
  simp only [Ended, attachment_snoc_of_some timeline ha, ha, Option.isSome_some, true_and,
    firstReady_snoc, closedAt_snoc_of_some timeline ha, Option.isSome_or, Bool.or_eq_true]
  exact or_or_or_comm

theorem ended_snoc_of_none {h : List (ι × Section ι)}
    (ha : attachment timeline h = none) (x : ι × Section ι) :
    Ended timeline (h ++ [x]) ↔
      (attachOf timeline x).isSome ∧ (firstReady timeline h).isSome := by
  obtain ⟨i, k⟩ := x
  cases k <;>
    simp [Ended, attachment_snoc, ha, firstReady_snoc, closedAt_snoc_of_none timeline ha,
      attachOf, readyOf]

/-- Sections that neither attach, ready nor close leave the root span where it was. -/
theorem ended_snoc_of_neutral {h : List (ι × Section ι)} {x : ι × Section ι}
    (hattach : attachOf timeline x = none) (hready : readyOf timeline x = none)
    (hclose : ∀ a, attachment timeline h = some a → closeOf a.op x = none) :
    Ended timeline (h ++ [x]) ↔ Ended timeline h := by
  cases ha : attachment timeline h with
  | none => simp [ended_snoc_of_none timeline ha, hattach, not_ended_of_unattached timeline ha]
  | some a => simp [ended_snoc_of_some timeline ha, hready, hclose a ha]

/-- A close that counts once counts for good. -/
theorem closedAt_append_of_some {g : List (ι × Section ι)} {now : Instant}
    (hg : closedAt timeline g = some now) (h : List (ι × Section ι)) :
    closedAt timeline (g ++ h) = some now := by
  obtain ⟨a, ha, hclose⟩ := Option.bind_eq_some_iff.mp hg
  simp [closedAt, attachment_append_of_some timeline ha, List.findSome?_append, hclose]

theorem readyFirst_snoc (h : List (ι × Section ι)) (x : ι × Section ι) :
    ReadyFirst timeline (h ++ [x]) ↔
      ReadyFirst timeline h ∨
        ((readyOf timeline x).isSome ∧ closedAt timeline h = none) := by
  constructor
  · rintro ⟨before, i, end_, after, heq, hopen⟩
    rcases List.eq_nil_or_concat after with rfl | ⟨after, last, rfl⟩
    · obtain ⟨rfl, hx⟩ := List.append_inj' heq rfl
      obtain rfl := List.cons.inj hx |>.1
      exact Or.inr ⟨rfl, hopen⟩
    · have hcat : h ++ [x] = (before ++ (i, .ready end_) :: after) ++ [last] := by
        rw [heq]
        simp [List.concat_eq_append]
      obtain ⟨rfl, -⟩ := List.append_inj' hcat rfl
      exact Or.inl ⟨before, i, end_, after, rfl, hopen⟩
  · rintro (⟨before, i, end_, after, rfl, hopen⟩ | ⟨hx, hopen⟩)
    · exact ⟨before, i, end_, after ++ [x], by simp, hopen⟩
    · obtain ⟨i, k⟩ := x
      cases k with
      | ready end_ => exact ⟨h, i, end_, [], rfl, hopen⟩
      | _ => cases hx

theorem firstReady_of_readyFirst {h : List (ι × Section ι)} (hready : ReadyFirst timeline h) :
    (firstReady timeline h).isSome := by
  obtain ⟨before, i, end_, after, rfl, -⟩ := hready
  simp [firstReady, List.findSome?_append, readyOf]

theorem ended_append {g : List (ι × Section ι)} (hg : Ended timeline g)
    (h : List (ι × Section ι)) : Ended timeline (g ++ h) := by
  obtain ⟨hattach, hend⟩ := hg
  obtain ⟨a, ha⟩ := Option.isSome_iff_exists.mp hattach
  refine ⟨by simp [attachment_append_of_some timeline ha], ?_⟩
  rcases hend with hready | hclose
  · refine Or.inl ?_
    obtain ⟨r, hr⟩ := Option.isSome_iff_exists.mp hready
    simp only [firstReady] at hr ⊢
    simp [List.findSome?_append, hr]
  · obtain ⟨now, hnow⟩ := Option.isSome_iff_exists.mp hclose
    exact Or.inr (by simp [closedAt_append_of_some timeline hnow])

/-- A history makes its root due at one place only. -/
theorem ended_unique {before after before' after' : List (ι × Section ι)}
    {x x' : ι × Section ι} (h : before ++ x :: after = before' ++ x' :: after')
    (hopen : ¬ Ended timeline before) (hdue : Ended timeline (before ++ [x]))
    (hopen' : ¬ Ended timeline before') (hdue' : Ended timeline (before' ++ [x'])) :
    before = before' := by
  have hcut : ∀ {g g' t t' : List (ι × Section ι)} {y y' : ι × Section ι} (c),
      g' = g ++ c → y :: t = c ++ y' :: t' → Ended timeline (g ++ [y]) →
      ¬ Ended timeline g' → g = g' := by
    intro g g' t t' y y' c hg ht hdue hopen
    cases c with
    | nil => simpa using hg.symm
    | cons z c =>
        obtain ⟨rfl, -⟩ := List.cons.inj ht
        refine absurd ?_ hopen
        rw [hg, List.append_cons]
        exact ended_append timeline hdue c
  rcases List.append_eq_append_iff.mp h with ⟨c, hc, hrest⟩ | ⟨c, hc, hrest⟩
  · exact hcut c hc hrest hdue hopen'
  · exact (hcut c hc hrest hdue' hopen).symm

end OtelBootstrap.Boot
