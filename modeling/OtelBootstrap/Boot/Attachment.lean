import OtelBootstrap.Boot.Exports
import OtelBootstrap.Boot.Root

/-! # What the moment of the attach decides

A boot of recordings and one ready, attached at two different moments. -/

namespace OtelBootstrap.Boot

open Sections

variable {ι : Type*} [DecidableEq ι] {timeline : Timeline} {ops : ι → Op ι}

def Section.isRecord : Section ι → Bool
  | .record _ => true
  | _ => false

variable (timeline) in
/-- The recordings that precede both the ready and the attach, or lie between them: those
that the summary of the root counts. -/
def counted (beforeReady beforeAttach : List (ι × Section ι)) : ℕ :=
  max (recorded timeline beforeReady).length (recorded timeline beforeAttach).length

omit [DecidableEq ι] in
/-- Recordings are nothing to a reading that looks for other sections. -/
theorem eq_none_of_records {β : Type*} {f : ι × Section ι → Option β}
    (hf : ∀ i call, f (i, .record call) = none) {h : List (ι × Section ι)}
    (hrecords : ∀ x ∈ h, x.2.isRecord) : ∀ x ∈ h, f x = none := by
  rintro ⟨i, k⟩ hx
  have hk := hrecords _ hx
  cases k with
  | record call => exact hf i call
  | _ => cases hk

omit [DecidableEq ι] in
theorem attachment_of_records {h : List (ι × Section ι)} (hrecords : ∀ x ∈ h, x.2.isRecord) :
    attachment timeline h = none := by
  rw [attachment_eq_none]
  exact eq_none_of_records (fun _ _ => rfl) hrecords

variable (timeline) in
omit [DecidableEq ι] in
theorem firstReady_of_records {h : List (ι × Section ι)} (hrecords : ∀ x ∈ h, x.2.isRecord) :
    firstReady timeline h = none := by
  rw [firstReady, List.findSome?_eq_none_iff]
  exact eq_none_of_records (fun _ _ => rfl) hrecords

theorem closes_of_records {h : List (ι × Section ι)} (hrecords : ∀ x ∈ h, x.2.isRecord)
    (owner : ι) : h.findSome? (closeOf owner) = none := by
  rw [List.findSome?_eq_none_iff]
  exact eq_none_of_records (fun _ _ => rfl) hrecords

variable (timeline) in
omit [DecidableEq ι] in
theorem length_recorded_of_records {h : List (ι × Section ι)}
    (hrecords : ∀ x ∈ h, x.2.isRecord) : (recorded timeline h).length = h.length := by
  induction h with
  | nil => rfl
  | cons x h ih =>
      rcases x with ⟨i, k⟩
      have hk := hrecords _ (List.mem_cons_self ..)
      cases k with
      | record call =>
          have hrest := ih fun y hy => hrecords y (List.mem_cons_of_mem _ hy)
          simpa [recorded, recordOf] using hrest
      | _ => cases hk

/-! ## One boot -/

section Boot

variable {h l₁ l₂ pre post : List (ι × Section ι)} {i j : ι} {end_ : Instant}
  {provider : SdkTracerProvider} {serviceName : String} {spanContext : SpanContext}

omit [DecidableEq ι] in
/-- Nor is the one ready to a reading that looks for neither. -/
theorem eq_none_of_base {β : Type*} {f : ι × Section ι → Option β}
    (hf : ∀ i call, f (i, .record call) = none) (hready : f (j, .ready end_) = none)
    (hbase : l₁ ++ l₂ = pre ++ (j, .ready end_) :: post)
    (hrecords : ∀ x ∈ pre ++ post, x.2.isRecord) : ∀ x ∈ l₁ ++ l₂, f x = none := by
  have hnone := eq_none_of_records hf hrecords
  rw [List.forall_mem_append] at hnone
  rw [hbase, List.forall_mem_append, List.forall_mem_cons]
  exact ⟨hnone.1, hready, hnone.2⟩

variable (timeline) in
omit [DecidableEq ι] in
theorem attachment_of_boot (hh : h = l₁ ++ (i, .attach provider serviceName spanContext) :: l₂)
    (hbase : l₁ ++ l₂ = pre ++ (j, .ready end_) :: post)
    (hrecords : ∀ x ∈ pre ++ post, x.2.isRecord) :
    attachment timeline h = some ⟨l₁, i, timeline.connect provider spanContext, l₂⟩ := by
  have hfront : attachment timeline l₁ = none := by
    rw [attachment_eq_none]
    intro x hx
    exact eq_none_of_base (fun _ _ => rfl) rfl hbase hrecords x (List.mem_append_left _ hx)
  have hsnoc : attachment timeline (l₁ ++ [(i, .attach provider serviceName spanContext)]) =
      some ⟨l₁, i, timeline.connect provider spanContext, []⟩ := by
    rw [attachment_snoc, hfront]
    rfl
  rw [hh, List.append_cons, attachment_append_of_some timeline hsnoc]
  rfl

theorem closedAt_of_boot (hh : h = l₁ ++ (i, .attach provider serviceName spanContext) :: l₂)
    (hbase : l₁ ++ l₂ = pre ++ (j, .ready end_) :: post)
    (hrecords : ∀ x ∈ pre ++ post, x.2.isRecord) {g t : List (ι × Section ι)}
    (hg : h = g ++ t) : closedAt timeline g = none := by
  have hwhole : closedAt timeline h = none := by
    rw [closedAt, attachment_of_boot timeline hh hbase hrecords, Option.bind_some,
      List.findSome?_eq_none_iff]
    intro x hx
    exact eq_none_of_base (fun _ _ => rfl) rfl hbase hrecords x (List.mem_append_right _ hx)
  cases hc : closedAt timeline g with
  | none => rfl
  | some now =>
      have hsome := closedAt_append_of_some timeline hc t
      rw [← hg, hwhole] at hsome
      cases hsome

omit [DecidableEq ι] in
theorem firstReady_of_boot (hh : h = l₁ ++ (i, .attach provider serviceName spanContext) :: l₂)
    (hbase : l₁ ++ l₂ = pre ++ (j, .ready end_) :: post)
    (hrecords : ∀ x ∈ pre ++ post, x.2.isRecord) :
    firstReady timeline h = some (timeline.wall end_, end_ - timeline.origin) := by
  have hsame : firstReady timeline h = firstReady timeline (l₁ ++ l₂) := by
    rw [hh, firstReady, firstReady, List.findSome?_append, List.findSome?_append]
    rfl
  have hpre : firstReady timeline pre = none :=
    firstReady_of_records timeline fun x hx => hrecords x (List.mem_append_left _ hx)
  rw [firstReady] at hpre
  rw [hsame, hbase, firstReady, List.findSome?_append, hpre]
  rfl

variable (timeline) in
omit [DecidableEq ι] in
theorem recorded_of_boot (hbase : l₁ ++ l₂ = pre ++ (j, .ready end_) :: post) :
    recorded timeline l₁ ++ recorded timeline l₂ =
      recorded timeline pre ++ recorded timeline post := by
  rw [← recorded_append, hbase, recorded_append]
  rfl

variable (timeline) in
omit [DecidableEq ι] in
/-- No more phases than fit the buffer are recorded before the attach. -/
theorem recorded_le_of_boot (hbase : l₁ ++ l₂ = pre ++ (j, .ready end_) :: post)
    (hrecords : ∀ x ∈ pre ++ post, x.2.isRecord) (hbound : (pre ++ post).length ≤ maxPhases) :
    (recorded timeline l₁).length ≤ maxPhases := by
  have hparts := congrArg List.length (recorded_of_boot timeline hbase)
  rw [← recorded_append timeline pre post, length_recorded_of_records timeline hrecords,
    List.length_append] at hparts
  omega

variable (timeline i j end_ provider serviceName spanContext) in
/-- A ready after the attach makes the root due. -/
theorem due_of_late_ready {c : List (ι × Section ι)} (hl₁ : ∀ x ∈ l₁, x.2.isRecord)
    (hc : ∀ x ∈ c, x.2.isRecord) :
    ¬ Ended timeline (l₁ ++ (i, .attach provider serviceName spanContext) :: c) ∧
      Ended timeline
        (l₁ ++ (i, .attach provider serviceName spanContext) :: c ++ [(j, .ready end_)]) := by
  have hattach : attachment timeline (l₁ ++ (i, .attach provider serviceName spanContext) :: c) =
      some ⟨l₁, i, timeline.connect provider spanContext, c⟩ := by
    have hsnoc : attachment timeline (l₁ ++ [(i, .attach provider serviceName spanContext)]) =
        some ⟨l₁, i, timeline.connect provider spanContext, []⟩ := by
      rw [attachment_snoc, attachment_of_records hl₁]
      rfl
    rw [List.append_cons, attachment_append_of_some timeline hsnoc]
    rfl
  refine ⟨?_, ?_⟩
  · have hready : firstReady timeline
        (l₁ ++ (i, .attach provider serviceName spanContext) :: c) = none := by
      have hfirst := firstReady_of_records timeline hl₁
      have hrest := firstReady_of_records timeline hc
      rw [firstReady] at hfirst hrest ⊢
      rw [List.findSome?_append, hfirst, List.findSome?_cons_of_isNone rfl, hrest]
      rfl
    simp [Ended, hready, closedAt, hattach, closes_of_records hc]
  · rw [ended_snoc_of_some timeline hattach]
    exact Or.inr (Or.inl rfl)

variable (timeline i j end_ provider serviceName spanContext) in
/-- An attach after the ready makes the root due. -/
theorem due_of_late_attach {d : List (ι × Section ι)}
    (hpre : ∀ x ∈ pre, x.2.isRecord) (hd : ∀ x ∈ d, x.2.isRecord) :
    ¬ Ended timeline (pre ++ (j, .ready end_) :: d) ∧
      Ended timeline
        (pre ++ (j, .ready end_) :: d ++ [(i, .attach provider serviceName spanContext)]) := by
  have hattach : attachment timeline (pre ++ (j, .ready end_) :: d) = none := by
    rw [attachment_eq_none]
    intro x hx
    rcases List.mem_append.mp hx with hx | hx
    · exact (attachment_eq_none timeline).mp (attachment_of_records hpre) x hx
    · rcases List.mem_cons.mp hx with rfl | hx
      · rfl
      · exact (attachment_eq_none timeline).mp (attachment_of_records hd) x hx
  refine ⟨not_ended_of_unattached timeline hattach, ?_⟩
  rw [ended_snoc_of_none timeline hattach]
  refine ⟨rfl, ?_⟩
  have hfirst := firstReady_of_records timeline hpre
  rw [firstReady] at hfirst ⊢
  rw [List.findSome?_append, hfirst]
  rfl

variable (timeline) in
/-- The root becomes due at the ready or at the attach, whichever comes later. -/
theorem due_of_boot (hh : h = l₁ ++ (i, .attach provider serviceName spanContext) :: l₂)
    (hbase : l₁ ++ l₂ = pre ++ (j, .ready end_) :: post)
    (hrecords : ∀ x ∈ pre ++ post, x.2.isRecord) :
    ∃ g y t, h = g ++ y :: t ∧ ¬ Ended timeline g ∧ Ended timeline (g ++ [y]) ∧
      (recorded timeline g).length = counted timeline pre l₁ := by
  have hpre : ∀ x ∈ pre, x.2.isRecord := fun x hx => hrecords x (List.mem_append_left _ hx)
  have hlate : ∀ c, pre = l₁ ++ c → l₂ = c ++ (j, .ready end_) :: post →
      ∃ g y t, h = g ++ y :: t ∧ ¬ Ended timeline g ∧ Ended timeline (g ++ [y]) ∧
        (recorded timeline g).length = counted timeline pre l₁ := by
    intro c hc hl₂
    subst hc
    obtain ⟨hopen, hdue⟩ := due_of_late_ready timeline i j end_ provider serviceName spanContext
      (fun x hx => hpre x (List.mem_append_left _ hx))
      fun x hx => hpre x (List.mem_append_right _ hx)
    refine ⟨_, _, post, ?_, hopen, hdue, ?_⟩
    · rw [hh, hl₂]
      simp
    · have hcons : recorded timeline ((i, .attach provider serviceName spanContext) :: c) =
          recorded timeline c := rfl
      simp only [counted, recorded_append, hcons, List.length_append]
      omega
  rcases List.append_eq_append_iff.mp hbase with ⟨c, hc, hl₂⟩ | ⟨c, hc, hpost⟩
  · exact hlate c hc hl₂
  · cases c with
    | nil => exact hlate [] (by simpa using hc.symm) (by simpa using hpost.symm)
    | cons x d =>
        obtain ⟨rfl, hrest⟩ := List.cons.inj hpost
        have hd : ∀ x ∈ d, x.2.isRecord := by
          intro x hx
          apply hrecords
          rw [hrest]
          exact List.mem_append_right _ (List.mem_append_left _ hx)
        obtain ⟨hopen, hdue⟩ := due_of_late_attach timeline i j end_ provider serviceName
          spanContext hpre hd
        refine ⟨_, _, l₂, by rw [hh, hc], hopen, hdue, ?_⟩
        have hcons : recorded timeline ((j, .ready end_) :: d) = recorded timeline d := rfl
        simp only [counted, hc, recorded_append, hcons, List.length_append]
        omega

/-- The root of a boot that became ready once: it ended as ready, at the ready. -/
theorem rootEnds_of_boot (hh : h = l₁ ++ (i, .attach provider serviceName spanContext) :: l₂)
    (hbase : l₁ ++ l₂ = pre ++ (j, .ready end_) :: post)
    (hrecords : ∀ x ∈ pre ++ post, x.2.isRecord) {ends : List RootEnd}
    (hspec : RootSpec timeline h ends) :
    ends = [⟨timeline.connect provider spanContext, timeline.wall end_, "ready",
      min maxPhases (counted timeline pre l₁),
      UInt64.ofNat (counted timeline pre l₁ - maxPhases)⟩] := by
  obtain ⟨g, y, t, hg, hopen, hdue, hcount⟩ := due_of_boot timeline hh hbase hrecords
  have hended : Ended timeline h := by
    rw [hg, List.append_cons]
    exact ended_append timeline hdue t
  obtain ⟨before, x, after, a, time, outcome, hh', hopen', hdue', ha, hends, rfl⟩ :=
    hspec.once hended
  have hbefore : before = g := ended_unique timeline (hh'.symm.trans hg) hopen' hdue' hopen hdue
  have hattach := attachment_of_boot timeline hh hbase hrecords
  obtain rfl := Option.some.inj (ha.symm.trans hattach)
  have hfirst : ReadyFirst timeline h := by
    have hmem : (j, .ready end_) ∈ h := by
      have hin : (j, .ready end_) ∈ l₁ ++ l₂ := by simp [hbase]
      rw [hh]
      rcases List.mem_append.mp hin with hin | hin
      · exact List.mem_append_left _ hin
      · exact List.mem_append_right _ (List.mem_cons_of_mem _ hin)
    obtain ⟨u, v, huv⟩ := List.append_of_mem hmem
    exact ⟨u, j, end_, v, huv, closedAt_of_boot hh hbase hrecords huv⟩
  obtain ⟨⟨at_, hready⟩, rfl⟩ := hends.ready hfirst
  rw [firstReady_of_boot hh hbase hrecords] at hready
  obtain ⟨rfl, -⟩ := Prod.mk.inj (Option.some.inj hready)
  rw [summary, hbefore, hcount]

omit [DecidableEq ι] in
/-- Every phase of a boot that fits the buffer is exported, whenever it was attached. -/
theorem exportable_of_boot (hh : h = l₁ ++ (i, .attach provider serviceName spanContext) :: l₂)
    (hbase : l₁ ++ l₂ = pre ++ (j, .ready end_) :: post)
    (hrecords : ∀ x ∈ pre ++ post, x.2.isRecord) (hbound : (pre ++ post).length ≤ maxPhases) :
    (exportable timeline h).map Prod.snd =
      (recorded timeline pre ++ recorded timeline post).map fun p =>
        (timeline.connect provider spanContext, p.2) := by
  have hlength := recorded_le_of_boot timeline hbase hrecords hbound
  rw [exportable, attachment_of_boot timeline hh hbase hrecords, ← recorded_of_boot timeline hbase]
  simp [List.take_of_length_le hlength, Function.comp_def]

end Boot

/-! ## Two attach positions -/

/-- The spans of the exported phases. -/
def phaseSpans (es : List (ι × Effect)) : List Span :=
  (exports es).map fun x => (exportPhase x.2.1 x.2.2).1

def rootSpans (es : List (ι × Effect)) : List Span :=
  (rootEnds es).map RootEnd.span

omit [DecidableEq ι] in
theorem counted_le_of_boot {pre post l₁ l₂ : List (ι × Section ι)} {j : ι} {end_ : Instant}
    (hbase : l₁ ++ l₂ = pre ++ (j, .ready end_) :: post)
    (hrecords : ∀ x ∈ pre ++ post, x.2.isRecord) (hbound : (pre ++ post).length ≤ maxPhases) :
    counted timeline pre l₁ ≤ maxPhases := by
  have hlength := recorded_le_of_boot timeline hbase hrecords hbound
  have hpre := length_recorded_of_records timeline
    fun x hx => hrecords x (List.mem_append_left post hx)
  rw [List.length_append] at hbound
  rw [counted]
  omega

/-- The count is all that the summary of two such roots can differ in. -/
theorem span_eq_iff {exporter : Exporter} {end_ : SystemTime} {n m : ℕ}
    (hn : n ≤ maxPhases) (hm : m ≤ maxPhases) :
    (RootEnd.mk exporter end_ "ready" (min maxPhases n) (UInt64.ofNat (n - maxPhases))).span =
      (RootEnd.mk exporter end_ "ready" (min maxPhases m)
        (UInt64.ofNat (m - maxPhases))).span ↔ n = m := by
  have hn' : n - maxPhases = 0 := Nat.sub_eq_zero_of_le hn
  have hm' : m - maxPhases = 0 := Nat.sub_eq_zero_of_le hm
  rw [Nat.min_eq_right hn, Nat.min_eq_right hm, hn', hm']
  constructor
  · intro h
    have hattributes := congrArg Span.attributes h
    simpa [RootEnd.span, endRootSpan, Span.setAttribute, Span.endWithTimestamp,
      i64OrMax_of_le hn, i64OrMax_of_le hm] using hattributes
  · rintro rfl
    rfl

/-- Two complete runs of one boot that attach at different moments export the same phases
and the same root exactly when both attaches leave the same recordings before the later of
ready and attach. -/
theorem same_trace_iff (r r' : (machine timeline ops).Run {})
    (hdone : r.final.Complete) (hdone' : r'.final.Complete)
    {pre post l₁ l₂ l₁' l₂' : List (ι × Section ι)} {i j : ι} {end_ : Instant}
    {provider : SdkTracerProvider} {serviceName : String} {spanContext : SpanContext}
    (hrecords : ∀ x ∈ pre ++ post, x.2.isRecord) (hbound : (pre ++ post).length ≤ maxPhases)
    (hh : history r.final.trace = l₁ ++ (i, .attach provider serviceName spanContext) :: l₂)
    (hbase : l₁ ++ l₂ = pre ++ (j, .ready end_) :: post)
    (hh' : history r'.final.trace =
      l₁' ++ (i, .attach provider serviceName spanContext) :: l₂')
    (hbase' : l₁' ++ l₂' = pre ++ (j, .ready end_) :: post) :
    ((phaseSpans (emitted r.final.trace)).Perm (phaseSpans (emitted r'.final.trace)) ∧
        rootSpans (emitted r.final.trace) = rootSpans (emitted r'.final.trace)) ↔
      counted timeline pre l₁ = counted timeline pre l₁' := by
  have hspans : ∀ es : List (ι × Effect), phaseSpans es =
      ((exports es).map Prod.snd).map fun x => (exportPhase x.1 x.2).1 := by
    intro es
    rw [phaseSpans, List.map_map]
    rfl
  have hphases : (phaseSpans (emitted r.final.trace)).Perm
      (phaseSpans (emitted r'.final.trace)) := by
    rw [hspans, hspans]
    apply List.Perm.map
    have hexports := (emitted_of_complete r hdone).1.map Prod.snd
    have hexports' := (emitted_of_complete r' hdone').1.map Prod.snd
    rw [exportable_of_boot hh hbase hrecords hbound] at hexports
    rw [exportable_of_boot hh' hbase' hrecords hbound] at hexports'
    exact hexports.trans hexports'.symm
  have hroot : rootSpans (emitted r.final.trace) = rootSpans (emitted r'.final.trace) ↔
      counted timeline pre l₁ = counted timeline pre l₁' := by
    rw [rootSpans, rootSpans,
      rootEnds_of_boot hh hbase hrecords (rootSpec_of_complete r hdone),
      rootEnds_of_boot hh' hbase' hrecords (rootSpec_of_complete r' hdone'), List.map_singleton,
      List.map_singleton, List.singleton_inj]
    exact span_eq_iff (counted_le_of_boot hbase hrecords hbound)
      (counted_le_of_boot hbase' hrecords hbound)
  rw [hroot]
  exact and_iff_right hphases

/-- A boot that is ready before its last phase. -/
def warmOps : Party → Op Party
  | .first => .ready 7
  | .second => .endGuard "warm" 8 .finish 9
  | .third => .flush ⟨0⟩ "svc" ⟨1, 2⟩

def warmTimeline : Timeline :=
  ⟨0, .processStart, 0, "exe"⟩

/-- Attached first: the root ends at the ready. -/
def attachedFirst : (machine warmTimeline warmOps).Run {} :=
  .of [.enter .third, .enter .first, .emit 0, .emit 0, .emit 0, .enter .second, .emit 0,
    .emit 0] rfl

/-- Attached last: the root is ended by the attach, after one more phase. -/
def attachedLast : (machine warmTimeline warmOps).Run {} :=
  .of [.enter .first, .emit 0, .enter .second, .emit 0, .enter .third, .emit 0, .emit 0,
    .emit 0] rfl

theorem warm_complete : attachedFirst.final.Complete ∧ attachedLast.final.Complete :=
  ⟨⟨rfl, fun i _ _ => match i with | .first => rfl | .second => rfl | .third => rfl⟩,
    rfl, fun i _ _ => match i with | .first => rfl | .second => rfl | .third => rfl⟩

theorem attach_position_shows :
    attachedFirst.final.Complete ∧ attachedLast.final.Complete ∧
      rootSpans (emitted attachedFirst.final.trace) ≠
        rootSpans (emitted attachedLast.final.trace) :=
  ⟨warm_complete.1, warm_complete.2, by decide⟩

theorem warm_trace_iff :
    ((phaseSpans (emitted attachedFirst.final.trace)).Perm
          (phaseSpans (emitted attachedLast.final.trace)) ∧
        rootSpans (emitted attachedFirst.final.trace) =
          rootSpans (emitted attachedLast.final.trace)) ↔ 0 = 1 := by
  have hfirst : history attachedFirst.final.trace = [] ++ (.third, .attach ⟨0⟩ "svc" ⟨1, 2⟩) ::
      [(.first, .ready 7), (.second, .record ⟨"warm", 8, 9, .ok⟩)] := rfl
  have hlast : history attachedLast.final.trace = [(.first, .ready 7),
      (.second, .record ⟨"warm", 8, 9, .ok⟩)] ++ (.third, .attach ⟨0⟩ "svc" ⟨1, 2⟩) :: [] := rfl
  have hrecords : ∀ x ∈ ([] ++ [(.second, .record ⟨"warm", 8, 9, .ok⟩)] :
      List (Party × Section Party)), x.2.isRecord := by decide
  exact same_trace_iff attachedFirst attachedLast warm_complete.1 warm_complete.2 hrecords
    (by decide) hfirst rfl hlast rfl

end OtelBootstrap.Boot
