import AlphaMonitor.Lib.Peak
import AlphaMonitor.Shock.Engine

/-!
# Pending shocks and their final signals

Cooldown and window are equally long, and a bar is looked at by the detectors before the
pending shocks.  So a detector that fires at the very bar that ends a window replaces the
pending shock, and its final signal never comes.

## Main results

- `Track.run_pairs`: the final signals of one pending shock, over a whole run of its type
- `pairsOnce_iff`: a pending shock is made final once just in case its detector does not
  fire at the first bar after its window
-/

namespace AlphaMonitor.Shock

open Lib (keepPeak peakOf IsPeak)

/-! ## Final signals -/

/-- The final shock of a signal, if it is one of the type and the trigger. -/
def ShockSignal.finalOf (shockType : ShockType) (triggerTsMs : ℤ) : ShockSignal → Option ShockFinal
  | .final shock =>
    if shock.shockType = shockType ∧ shock.triggerTsMs = triggerTsMs then some shock else none
  | .pending _ => none

/-- The final signals of a type and a trigger. -/
def finalsOf (shockType : ShockType) (triggerTsMs : ℤ) (signals : List ShockSignal) :
    List ShockFinal :=
  signals.filterMap (ShockSignal.finalOf shockType triggerTsMs)

theorem finalsOf_append (shockType : ShockType) (triggerTsMs : ℤ) (xs ys : List ShockSignal) :
    finalsOf shockType triggerTsMs (xs ++ ys) =
      finalsOf shockType triggerTsMs xs ++ finalsOf shockType triggerTsMs ys :=
  List.filterMap_append

theorem finalsOf_singleton {shockType : ShockType} {triggerTsMs : ℤ} {final : ShockFinal}
    (htype : final.shockType = shockType) (htrigger : final.triggerTsMs = triggerTsMs) :
    finalsOf shockType triggerTsMs [.final final] = [final] := by
  have hfound : ShockSignal.finalOf shockType triggerTsMs (.final final) = some final :=
    if_pos ⟨htype, htrigger⟩
  unfold finalsOf
  rw [List.filterMap_cons_some hfound, List.filterMap_nil]

/-- Final signals of a type are among the signals of the type. -/
theorem finalsOf_signalsOf (shockType : ShockType) (triggerTsMs : ℤ) (signals : List ShockSignal) :
    finalsOf shockType triggerTsMs (signalsOf shockType signals) =
      finalsOf shockType triggerTsMs signals := by
  unfold finalsOf signalsOf
  rw [List.filterMap_filter]
  congr 1
  funext signal
  cases signal with
  | pending shock => exact ite_self none
  | final shock =>
    by_cases htype : shock.shockType = shockType
    · exact if_pos (decide_eq_true htype)
    · refine (if_neg ?_).trans (if_neg fun hboth => htype hboth.1).symm
      exact fun htrue => htype (of_decide_eq_true htrue)

/-- The trigger of a final signal. -/
def ShockSignal.finalTrigger : ShockSignal → Option ℤ
  | .final shock => some shock.triggerTsMs
  | .pending _ => none

theorem finalsOf_eq_nil {shockType : ShockType} {triggerTsMs : ℤ} {signals : List ShockSignal}
    (h : ∀ signal ∈ signals, signal.finalTrigger ≠ some triggerTsMs) :
    finalsOf shockType triggerTsMs signals = [] := by
  unfold finalsOf
  rw [List.filterMap_eq_nil_iff]
  intro signal hsignal
  have hne := h signal hsignal
  cases signal with
  | pending shock => rfl
  | final shock =>
    refine if_neg fun hboth => hne ?_
    exact congrArg some hboth.2

namespace Track

variable (shockType : ShockType) {track : Track} {tick : Tick}

/-! ## Triggers -/

/-- The trigger of the pending shock has the property. -/
def Triggered (P : ℤ → Prop) (track : Track) : Prop :=
  ∀ pending ∈ track.pending, P pending.triggerTsMs

/-- Triggers come from the times of bars, and so do those of final signals. -/
theorem Triggered.next {P : ℤ → Prop} (h : track.Triggered P) (htick : P tick.tsMs) :
    (track.next shockType tick).Triggered P ∧
      ∀ signal ∈ track.signals shockType tick, ∀ trigger ∈ signal.finalTrigger, P trigger := by
  have hscheduled : (track.schedule shockType tick).1.Triggered P ∧
      ∀ signal ∈ (track.schedule shockType tick).2, signal.finalTrigger = none := by
    unfold schedule
    split
    · exact ⟨h, fun signal hsignal => by cases hsignal⟩
    · split
      · exact ⟨h, fun signal hsignal => by cases hsignal⟩
      · constructor
        · intro pending hpending
          cases hpending
          exact htick
        · intro signal hsignal
          cases hsignal
          rfl
  unfold Track.next Track.signals
  generalize (track.schedule shockType tick).2 = found at hscheduled ⊢
  generalize (track.schedule shockType tick).1 = scheduled at hscheduled ⊢
  obtain ⟨htriggered, hfound⟩ := hscheduled
  have hsettled : (scheduled.settle tick).1.Triggered P ∧
      ∀ signal ∈ (scheduled.settle tick).2, ∀ trigger ∈ signal.finalTrigger, P trigger := by
    unfold settle
    cases hpending : scheduled.pending with
    | none =>
      refine ⟨?_, fun signal hsignal => by cases hsignal⟩
      dsimp only
      exact htriggered
    | some pending =>
      have htrigger := htriggered pending hpending
      rw [← (ShockEngine.follow_frame tick.tsMs pending tick.metric).2.1] at htrigger
      dsimp only
      split
      · constructor
        · intro pending' hnone
          cases hnone
        · intro signal hsignal trigger hfinal
          cases hsignal
          cases hfinal
          exact htrigger
      · constructor
        · intro pending' hsome
          cases hsome
          exact htrigger
        · intro signal hsignal
          cases hsignal
  refine ⟨hsettled.1, ?_⟩
  intro signal hsignal trigger hfinal
  rcases List.mem_append.mp hsignal with hsignal | hsignal
  · rw [hfound signal (Option.mem_toList.mp hsignal)] at hfinal
    cases hfinal
  · exact hsettled.2 signal (Option.mem_toList.mp hsignal) trigger hfinal

theorem Triggered.run {P : ℤ → Prop} {ticks : List Tick} (h : track.Triggered P)
    (hticks : ∀ tick ∈ ticks, P tick.tsMs) :
    (track.run shockType ticks).1.Triggered P ∧
      ∀ signal ∈ (track.run shockType ticks).2, ∀ trigger ∈ signal.finalTrigger, P trigger := by
  induction ticks generalizing track with
  | nil => exact ⟨h, fun signal hsignal => by cases hsignal⟩
  | cons tick rest ih =>
    obtain ⟨hnext, hsignals⟩ := h.next shockType (hticks tick List.mem_cons_self)
    obtain ⟨hrest, hlater⟩ := ih hnext fun other hother =>
      hticks other (List.mem_cons_of_mem tick hother)
    refine ⟨hrest, ?_⟩
    intro signal hsignal
    rcases List.mem_append.mp hsignal with hsignal | hsignal
    · exact hsignals signal hsignal
    · exact hlater signal hsignal

/-! ## The life of one pending shock -/

/-- The metrics of some bars, with their times. -/
def points (ticks : List Tick) : List (ℤ × ℚ) :=
  ticks.filterMap fun tick => tick.metric.map fun value => (tick.tsMs, value)

/-- A pending shock after some bars. -/
def followAll (pending : PendingShock) (ticks : List Tick) : PendingShock :=
  ticks.foldl (fun pending tick => pending.follow tick.tsMs tick.metric) pending

/-- A bar in the cooldown only moves the peak. -/
theorem next_of_cooldown {pending : PendingShock} {trigger : ℤ}
    (hpending : track = ⟨some trigger, some pending⟩)
    (hexpires : pending.expiresTsMs = trigger + peakWindowMs)
    (htick : tick.tsMs < trigger + peakWindowMs) :
    track.next shockType tick =
        ⟨some trigger, some (pending.follow tick.tsMs tick.metric)⟩ ∧
      track.signals shockType tick = [] := by
  have hcool : inCooldown (some trigger) tick.tsMs = true := by
    refine decide_eq_true ?_
    unfold cooldownMs
    unfold peakWindowMs at htick
    omega
  have hopen : ¬ tick.tsMs ≥ (pending.follow tick.tsMs tick.metric).expiresTsMs := by
    rw [(ShockEngine.follow_frame tick.tsMs pending tick.metric).2.2, hexpires]
    exact not_le.mpr htick
  have hschedule : track.schedule shockType tick = (track, none) := by
    unfold schedule
    rw [hpending]
    cases tick.detection with
    | none => rfl
    | some detection => exact if_pos hcool
  have hsettle : track.settle tick =
      (⟨some trigger, some (pending.follow tick.tsMs tick.metric)⟩, none) := by
    unfold settle
    rw [hpending]
    exact if_neg hopen
  unfold next signals
  rw [hschedule]
  dsimp only
  rw [hsettle]
  exact ⟨rfl, rfl⟩

/-- The same for all bars in the cooldown. -/
theorem run_of_cooldown {pending : PendingShock} {trigger : ℤ} {ticks : List Tick}
    (hpending : track = ⟨some trigger, some pending⟩)
    (hexpires : pending.expiresTsMs = trigger + peakWindowMs)
    (hticks : ∀ tick ∈ ticks, tick.tsMs < trigger + peakWindowMs) :
    track.run shockType ticks = (⟨some trigger, some (followAll pending ticks)⟩, []) := by
  induction ticks generalizing track pending with
  | nil =>
    rw [hpending]
    rfl
  | cons tick rest ih =>
    obtain ⟨hnext, hsignals⟩ := next_of_cooldown shockType hpending hexpires
      (hticks tick List.mem_cons_self)
    have hexpires' : (pending.follow tick.tsMs tick.metric).expiresTsMs = trigger + peakWindowMs :=
      (ShockEngine.follow_frame tick.tsMs pending tick.metric).2.2.trans hexpires
    have hrest := ih hnext hexpires' fun other hother =>
      hticks other (List.mem_cons_of_mem tick hother)
    rw [run, hsignals, hrest]
    rfl

/-- The bar that triggers a shock: its metric is the first peak. -/
theorem next_of_trigger {shock : ShockPending}
    (hshock : ShockSignal.pending shock ∈ track.signals shockType tick)
    (hmetric : ∀ detection ∈ tick.detection, ∀ value ∈ tick.metric,
      value = detection.1.magnitude) :
    ∃ pending : PendingShock,
      shock = pending.announce ∧ pending.shockType = shockType ∧
        pending.triggerTsMs = tick.tsMs ∧ pending.peakTsMs = tick.tsMs ∧
        pending.expiresTsMs = tick.tsMs + peakWindowMs ∧
        track.next shockType tick = ⟨some tick.tsMs, some pending⟩ ∧
        track.signals shockType tick = [.pending shock] := by
  unfold signals at hshock
  rcases List.mem_append.mp hshock with hfound | hfinal
  · have hscheduled := Option.mem_toList.mp hfound
    unfold schedule at hscheduled
    cases hdetection : tick.detection with
    | none =>
      rw [hdetection] at hscheduled
      cases hscheduled
    | some detection =>
      obtain ⟨detection, startTsMs⟩ := detection
      rw [hdetection] at hscheduled
      dsimp only at hscheduled
      by_cases hcool : inCooldown track.last tick.tsMs = true
      · rw [if_pos hcool] at hscheduled
        cases hscheduled
      · rw [if_neg hcool] at hscheduled
        cases hscheduled
        have hschedule : track.schedule shockType tick =
            (⟨some tick.tsMs, some (newPending shockType tick.tsMs startTsMs detection)⟩,
              some (.pending (newPending shockType tick.tsMs startTsMs detection).announce)) := by
          unfold schedule
          rw [hdetection]
          exact if_neg hcool
        have hfollow : (newPending shockType tick.tsMs startTsMs detection).follow tick.tsMs
            tick.metric = newPending shockType tick.tsMs startTsMs detection := by
          unfold PendingShock.follow
          split
          · cases hvalue : tick.metric with
            | none => rfl
            | some value =>
              have hsame := hmetric _ hdetection value hvalue
              refine if_neg ?_
              rw [hsame]
              exact lt_irrefl _
          · rfl
        have hopen : ¬ tick.tsMs ≥
            (newPending shockType tick.tsMs startTsMs detection).expiresTsMs := by
          show ¬ tick.tsMs ≥ tick.tsMs + peakWindowMs
          unfold peakWindowMs
          omega
        refine ⟨newPending shockType tick.tsMs startTsMs detection, rfl, rfl, rfl, rfl, rfl, ?_, ?_⟩
        · unfold next settle
          rw [hschedule]
          dsimp only
          rw [hfollow, if_neg hopen]
        · unfold signals settle
          rw [hschedule]
          dsimp only
          rw [hfollow, if_neg hopen]
          rfl
  · -- a final signal is no pending one
    have hsettled := Option.mem_toList.mp hfinal
    unfold settle at hsettled
    split at hsettled
    · cases hsettled
    · dsimp only at hsettled
      split at hsettled <;> cases hsettled

/-- The first bar after the window: the shock is made final, unless the detector fires. -/
theorem next_of_expired {pending : PendingShock} {trigger : ℤ}
    (hpending : track = ⟨some trigger, some pending⟩)
    (hexpires : pending.expiresTsMs = trigger + peakWindowMs)
    (htick : trigger + peakWindowMs ≤ tick.tsMs) :
    (tick.detection = none →
        track.signals shockType tick =
            [.final (pending.follow tick.tsMs tick.metric).finalize] ∧
          (track.next shockType tick).pending = none) ∧
      (tick.detection ≠ none →
        (∀ signal ∈ track.signals shockType tick, signal.finalTrigger = none) ∧
          ∃ later, (track.next shockType tick).pending = some later ∧
            later.triggerTsMs = tick.tsMs) := by
  have hwarm : ¬ inCooldown (some trigger) tick.tsMs = true := by
    intro hcool
    have hlt := of_decide_eq_true hcool
    unfold cooldownMs at hlt
    unfold peakWindowMs at htick
    omega
  constructor
  · intro hnone
    have hover : tick.tsMs ≥ (pending.follow tick.tsMs tick.metric).expiresTsMs := by
      rw [(ShockEngine.follow_frame tick.tsMs pending tick.metric).2.2, hexpires]
      exact htick
    have hschedule : track.schedule shockType tick = (track, none) := by
      unfold schedule
      rw [hnone]
    have hsettle : track.settle tick =
        (⟨some trigger, none⟩, some (.final (pending.follow tick.tsMs tick.metric).finalize)) := by
      unfold settle
      rw [hpending]
      exact if_pos hover
    unfold next signals
    rw [hschedule]
    dsimp only
    rw [hsettle]
    exact ⟨rfl, rfl⟩
  · intro hsome
    obtain ⟨⟨detection, startTsMs⟩, hdetection⟩ := Option.ne_none_iff_exists'.mp hsome
    have hschedule : track.schedule shockType tick =
        (⟨some tick.tsMs, some (newPending shockType tick.tsMs startTsMs detection)⟩,
          some (.pending (newPending shockType tick.tsMs startTsMs detection).announce)) := by
      unfold schedule
      rw [hdetection, hpending]
      exact if_neg hwarm
    have hframe := ShockEngine.follow_frame tick.tsMs
      (newPending shockType tick.tsMs startTsMs detection) tick.metric
    have hopen : ¬ tick.tsMs ≥ ((newPending shockType tick.tsMs startTsMs detection).follow
        tick.tsMs tick.metric).expiresTsMs := by
      rw [hframe.2.2]
      show ¬ tick.tsMs ≥ tick.tsMs + peakWindowMs
      unfold peakWindowMs
      omega
    unfold next signals settle
    rw [hschedule]
    dsimp only
    rw [if_neg hopen]
    refine ⟨?_, _, rfl, hframe.2.1⟩
    intro signal hsignal
    rcases List.mem_append.mp hsignal with hsignal | hsignal
    · cases Option.mem_toList.mp hsignal
      rfl
    · cases Option.mem_toList.mp hsignal

/-! ## Peaks -/

/-- The peak of a pending shock. -/
def peak (pending : PendingShock) : ℤ × ℚ := (pending.peakTsMs, pending.peakValue)

theorem follow_eq (pending : PendingShock) (tsMs : ℤ) (metric : Option ℚ) :
    pending.follow tsMs metric =
      { pending with
        peakTsMs := (peakOf (peak pending) ((metric.map fun value => (tsMs, value)).toList.filter
          fun point => point.1 ≤ pending.expiresTsMs)).1
        peakValue := (peakOf (peak pending) ((metric.map fun value => (tsMs, value)).toList.filter
          fun point => point.1 ≤ pending.expiresTsMs)).2 } := by
  unfold PendingShock.follow peak
  cases metric with
  | none =>
    dsimp only [Option.map_none, Option.toList_none, List.filter_nil]
    split <;> rfl
  | some value =>
    dsimp only [Option.map_some, Option.toList_some]
    by_cases hopen : tsMs ≤ pending.expiresTsMs
    · rw [if_pos hopen, List.filter_cons_of_pos (by simpa using hopen), List.filter_nil]
      unfold peakOf keepPeak
      dsimp only [List.foldl_cons, List.foldl_nil]
      by_cases hlarger : value > pending.peakValue
      · rw [if_pos hlarger, if_pos hlarger]
      · rw [if_neg hlarger, if_neg hlarger]
    · rw [if_neg hopen, List.filter_cons_of_neg (by simpa using hopen), List.filter_nil]
      rfl

/-- A pending shock keeps the peak of the metrics of its window. -/
theorem followAll_eq (pending : PendingShock) (ticks : List Tick) :
    followAll pending ticks =
      { pending with
        peakTsMs := (peakOf (peak pending)
          ((points ticks).filter fun point => point.1 ≤ pending.expiresTsMs)).1
        peakValue := (peakOf (peak pending)
          ((points ticks).filter fun point => point.1 ≤ pending.expiresTsMs)).2 } := by
  induction ticks generalizing pending with
  | nil => rfl
  | cons tick rest ih =>
    have hpoints : points (tick :: rest) =
        (tick.metric.map fun value => (tick.tsMs, value)).toList ++ points rest := by
      unfold points
      cases hmetric : tick.metric <;> simp [hmetric]
    have hcons : followAll pending (tick :: rest) =
        followAll (pending.follow tick.tsMs tick.metric) rest := rfl
    rw [hcons, ih, (ShockEngine.follow_frame tick.tsMs pending tick.metric).2.2, hpoints,
      List.filter_append]
    have hpeak : peak (pending.follow tick.tsMs tick.metric) = peakOf (peak pending)
        ((tick.metric.map fun value => (tick.tsMs, value)).toList.filter
          fun point => point.1 ≤ pending.expiresTsMs) := by
      rw [follow_eq]
      rfl
    have hsplit : ∀ xs ys : List (ℤ × ℚ),
        peakOf (peak pending) (xs ++ ys) = peakOf (peakOf (peak pending) xs) ys := by
      intro xs ys
      exact List.foldl_append
    rw [hpeak, hsplit, follow_eq]

end Track

/-! ## One pending shock in a run -/

/-- The final signal of a pending shock, with the peak of the values. -/
structure FinalOf (shock : ShockPending) (values : List (ℤ × ℚ)) (final : ShockFinal) : Prop where
  shockType : final.shockType = shock.shockType
  triggerTsMs : final.triggerTsMs = shock.triggerTsMs
  startTsMs : final.startTsMs = shock.startTsMs
  direction : final.direction = shock.direction
  noiseFlag : final.noiseFlag = shock.noiseFlag
  context : final.context = shock.context
  isPeak : IsPeak values (final.peakTsMs, final.magnitude)

/-- Exactly one final signal has the key of the pending shock, and it has the peak. -/
def PairsOnce (shock : ShockPending) (values : List (ℤ × ℚ)) (signals : List ShockSignal) : Prop :=
  ∃ final, finalsOf shock.shockType shock.triggerTsMs signals = [final] ∧
    FinalOf shock values final

namespace Track

variable {shockType : ShockType} {track : Track}

theorem run_append (track : Track) (xs ys : List Tick) :
    track.run shockType (xs ++ ys) =
      (((track.run shockType xs).1.run shockType ys).1,
        (track.run shockType xs).2 ++ ((track.run shockType xs).1.run shockType ys).2) := by
  induction xs generalizing track with
  | nil => rfl
  | cons tick rest ih =>
    rw [List.cons_append, run, ih, run]
    dsimp only
    rw [List.append_assoc]

/-- The values that a shock is measured by: its own, and the later metrics of its window. -/
def windowValues (shock : ShockPending) (later : List (ℤ × ℚ)) : List (ℤ × ℚ) :=
  (shock.triggerTsMs, shock.magnitude) ::
    later.filter fun point => point.1 ≤ shock.triggerTsMs + peakWindowMs

theorem exists_tick_of_mem_points {ticks : List Tick} {point : ℤ × ℚ}
    (h : point ∈ points ticks) : ∃ tick ∈ ticks, tick.tsMs = point.1 := by
  obtain ⟨tick, htick, hpoint⟩ := List.mem_filterMap.mp h
  obtain ⟨value, _, hvalue⟩ := Option.map_eq_some_iff.mp hpoint
  refine ⟨tick, htick, ?_⟩
  rw [← hvalue]

theorem points_sorted {ticks : List Tick} (h : ticks.Pairwise fun a b => a.tsMs < b.tsMs) :
    (points ticks).Pairwise fun a b => a.1 < b.1 := by
  unfold points
  rw [List.pairwise_filterMap]
  refine h.imp ?_
  intro tick other hlt point hpoint point' hpoint'
  obtain ⟨value, _, rfl⟩ := Option.map_eq_some_iff.mp hpoint
  obtain ⟨value', _, rfl⟩ := Option.map_eq_some_iff.mp hpoint'
  exact hlt

/-- A shock that was followed through its window is final with the peak of the window. -/
theorem finalOf_followAll {pending : PendingShock} {ticks later : List Tick} {trigger : ℤ}
    (htrigger : pending.triggerTsMs = trigger) (hpeak : pending.peakTsMs = trigger)
    (hexpires : pending.expiresTsMs = trigger + peakWindowMs)
    (hsorted : (ticks ++ later).Pairwise fun a b => a.tsMs < b.tsMs)
    (hticks : ∀ tick ∈ ticks, trigger < tick.tsMs)
    (hlater : ∀ tick ∈ later, trigger + peakWindowMs < tick.tsMs) :
    FinalOf pending.announce (windowValues pending.announce (points (ticks ++ later)))
      (followAll pending ticks).finalize := by
  have hvalues : windowValues pending.announce (points (ticks ++ later)) =
      [peak pending] ++ (points ticks).filter fun point => point.1 ≤ pending.expiresTsMs := by
    have hpoints : points (ticks ++ later) = points ticks ++ points later := List.filterMap_append
    have hnil : ((points later).filter fun point => point.1 ≤ pending.expiresTsMs) = [] := by
      refine List.filter_eq_nil_iff.mpr fun point hpoint => ?_
      obtain ⟨tick, htick, hts⟩ := exists_tick_of_mem_points hpoint
      have hover := hlater tick htick
      rw [decide_eq_true_eq, ← hts, hexpires]
      exact not_le.mpr hover
    unfold windowValues PendingShock.announce peak
    dsimp only
    rw [hpoints, htrigger, ← hexpires, List.filter_append, hnil, List.append_nil, hpeak]
    rfl
  rw [hvalues, followAll_eq]
  refine ⟨rfl, rfl, rfl, rfl, rfl, rfl, ?_⟩
  refine Lib.peakOf_isPeak (Lib.isPeak_singleton (peak pending)) ?_
  refine List.pairwise_cons.mpr ⟨?_, (points_sorted (List.pairwise_append.mp hsorted).1).filter _⟩
  intro point hpoint
  obtain ⟨tick, htick, hts⟩ := exists_tick_of_mem_points (List.mem_of_mem_filter hpoint)
  show pending.peakTsMs < point.1
  rw [hpeak, ← hts]
  exact hticks tick htick

/-- The final signals of a pending shock, over a whole run of its type. -/
theorem run_pairs {before window later : List Tick} {trigger last : Tick} {shock : ShockPending}
    (hstart : track.pending = none)
    (hsorted : (before ++ trigger :: (window ++ last :: later)).Pairwise
      fun a b => a.tsMs < b.tsMs)
    (hshock : ShockSignal.pending shock ∈ (track.run shockType before).1.signals shockType trigger)
    (hmetric : ∀ detection ∈ trigger.detection, ∀ value ∈ trigger.metric,
      value = detection.1.magnitude)
    (hwindow : ∀ tick ∈ window, tick.tsMs < shock.triggerTsMs + peakWindowMs)
    (hlast : shock.triggerTsMs + peakWindowMs ≤ last.tsMs) :
    PairsOnce shock (windowValues shock (points (window ++ last :: later)))
        (track.run shockType (before ++ trigger :: (window ++ last :: later))).2 ↔
      last.detection = none := by
  obtain ⟨pending, rfl, htype, htrigger, hpeak, hexpires, hnext, hsignals⟩ :=
    next_of_trigger shockType hshock hmetric
  have htriggerTs : pending.announce.triggerTsMs = trigger.tsMs := htrigger
  have hannounced : pending.announce.shockType = shockType := htype
  rw [htriggerTs] at hwindow hlast
  obtain ⟨_, htail, hearlier⟩ := List.pairwise_append.mp hsorted
  obtain ⟨hafter, hrest⟩ := List.pairwise_cons.mp htail
  obtain ⟨_, hlastLater, hwindowLater⟩ := List.pairwise_append.mp hrest
  obtain ⟨hlater, _⟩ := List.pairwise_cons.mp hlastLater
  -- before the trigger there are final signals of earlier triggers only
  have hbefore : finalsOf shockType trigger.tsMs (track.run shockType before).2 = [] := by
    have htriggered : track.Triggered (· < trigger.tsMs) := by
      intro other hother
      rw [hstart] at hother
      cases hother
    have hticks : ∀ tick ∈ before, tick.tsMs < trigger.tsMs :=
      fun tick htick => hearlier tick htick trigger List.mem_cons_self
    obtain ⟨_, hfinals⟩ := htriggered.run shockType hticks
    exact finalsOf_eq_nil fun signal hsignal htrigger =>
      lt_irrefl _ (hfinals signal hsignal _ htrigger)
  have hcool := run_of_cooldown shockType hnext hexpires hwindow
  have hexpires' : (followAll pending window).expiresTsMs = trigger.tsMs + peakWindowMs := by
    rw [followAll_eq]
    exact hexpires
  have hstate : (⟨some trigger.tsMs, some (followAll pending window)⟩ : Track) =
      ⟨some trigger.tsMs, some (followAll pending window)⟩ := rfl
  obtain ⟨hquiet, hfires⟩ := next_of_expired shockType hstate hexpires' hlast
  -- after the last bar there are final signals of later triggers only
  have hlaterNil : ((next shockType ⟨some trigger.tsMs, some (followAll pending window)⟩
      last).Triggered (trigger.tsMs < ·)) →
      finalsOf shockType trigger.tsMs ((next shockType
        ⟨some trigger.tsMs, some (followAll pending window)⟩ last).run shockType later).2 = [] := by
    intro htriggered
    have hticks : ∀ tick ∈ later, trigger.tsMs < tick.tsMs :=
      fun tick htick => hafter tick (List.mem_append_right _ (List.mem_cons_of_mem last htick))
    obtain ⟨_, hfinals⟩ := htriggered.run shockType hticks
    exact finalsOf_eq_nil fun signal hsignal htrigger =>
      lt_irrefl _ (hfinals signal hsignal _ htrigger)
  have hrun : finalsOf shockType trigger.tsMs
      (track.run shockType (before ++ trigger :: (window ++ last :: later))).2 =
      finalsOf shockType trigger.tsMs (signals shockType
        ⟨some trigger.tsMs, some (followAll pending window)⟩ last) ++
      finalsOf shockType trigger.tsMs ((next shockType
        ⟨some trigger.tsMs, some (followAll pending window)⟩ last).run shockType later).2 := by
    rw [run_append, run, hnext, hsignals, ← hnext, run_append, hcool, run]
    dsimp only
    rw [finalsOf_append, hbefore, finalsOf_append, finalsOf_append, finalsOf_append]
    rfl
  unfold PairsOnce
  rw [hannounced, htriggerTs, hrun]
  constructor
  · rintro ⟨final, honly, _⟩
    by_contra hsome
    obtain ⟨hnoFinal, next, hpendingNext, htriggerNext⟩ := hfires hsome
    have hnil : finalsOf shockType trigger.tsMs (signals shockType
        ⟨some trigger.tsMs, some (followAll pending window)⟩ last) = [] := by
      refine finalsOf_eq_nil fun signal hsignal htrigger => ?_
      rw [hnoFinal signal hsignal] at htrigger
      cases htrigger
    rw [hnil, List.nil_append, hlaterNil] at honly
    · cases honly
    · intro other hother
      rw [hpendingNext] at hother
      cases hother
      rw [htriggerNext]
      exact hafter last (List.mem_append_right _ List.mem_cons_self)
  · intro hnone
    obtain ⟨hfinal, hidle⟩ := hquiet hnone
    have hfollowed : (followAll pending window).follow last.tsMs last.metric =
        followAll pending (window ++ [last]) := by
      unfold followAll
      rw [List.foldl_concat]
    have hframe := followAll_eq pending (window ++ [last])
    rw [hfinal, hfollowed, hlaterNil, List.append_nil]
    · refine ⟨(followAll pending (window ++ [last])).finalize, ?_, ?_⟩
      · apply finalsOf_singleton
        · rw [hframe]
          exact htype
        · rw [hframe]
          exact htrigger
      · rw [List.append_cons] at hrest hafter ⊢
        refine finalOf_followAll htrigger hpeak hexpires hrest ?_ ?_
        · exact fun tick htick => hafter tick (List.mem_append_left _ htick)
        · exact fun tick htick => lt_of_le_of_lt hlast (hlater tick htick)
    · intro other hother
      rw [hidle] at hother
      cases hother

end Track

namespace ShockEngine

variable (math : FloatMath)

/-! ## Runs of the engine -/

theorem exists_bar_of_mem_ticks {shockType : ShockType} {seen : Seen} {bars : List ShockBar}
    {tick : Tick} (h : tick ∈ ticks math shockType seen bars) :
    ∃ bar ∈ bars, bar.micro ≠ none ∧ bar.tsMs = tick.tsMs := by
  induction bars generalizing seen with
  | nil => cases h
  | cons bar rest ih =>
    rw [ticks_cons] at h
    rcases List.mem_append.mp h with hfirst | hrest
    · obtain ⟨micro, hmicro, rfl⟩ := Option.map_eq_some_iff.mp (Option.mem_toList.mp hfirst)
      refine ⟨bar, List.mem_cons_self, ?_, rfl⟩
      rw [hmicro]
      exact Option.some_ne_none micro
    · obtain ⟨other, hother, hfields⟩ := ih hrest
      exact ⟨other, List.mem_cons_of_mem bar hother, hfields⟩

theorem ticks_sorted (shockType : ShockType) {seen : Seen} {bars : List ShockBar}
    (h : bars.Pairwise fun a b => a.barSecond < b.barSecond) :
    (ticks math shockType seen bars).Pairwise fun a b => a.tsMs < b.tsMs := by
  induction bars generalizing seen with
  | nil => exact List.Pairwise.nil
  | cons bar rest ih =>
    obtain ⟨hfirst, hrest⟩ := List.pairwise_cons.mp h
    rw [ticks_cons]
    cases bar.micro with
    | none => exact ih hrest
    | some micro =>
      refine List.pairwise_cons.mpr ⟨?_, ih hrest⟩
      intro tick htick
      obtain ⟨other, hother, _, hts⟩ := exists_bar_of_mem_ticks math htick
      have hlt := hfirst other hother
      rw [← hts]
      show bar.barSecond * 1000 < other.barSecond * 1000
      omega

/-- The metric of a type in some bars that follow the ones seen, with the times of the bars;
bars without a micro price have none. -/
def metricPoints (shockType : ShockType) (seen : Seen) (bars : List ShockBar) : List (ℤ × ℚ) :=
  Track.points (ticks math shockType seen bars)

/-- What the detector of a type finds at a bar that follows some others. -/
def detectAt (earlier : List ShockBar) (bar : ShockBar) (micro : ℚ) (shockType : ShockType) :
    Option Detection :=
  ((seenAfter math Seen.empty earlier).push math bar micro).hist.detect math bar micro shockType

/-- A pending shock gets its final signal, once and with the peak of its window, just in case
its detector does not fire at the first bar with a micro price at the end of the window. -/
theorem pairsOnce_iff {before window later : List ShockBar} {trigger last : ShockBar}
    {lastMicro : ℚ} {shock : ShockPending}
    (hsorted : (before ++ trigger :: (window ++ last :: later)).Pairwise
      fun a b => a.barSecond < b.barSecond)
    (hshock : ShockSignal.pending shock ∈ ((run math new before).1.onBar math trigger).2)
    (hwindow : ∀ bar ∈ window, bar.micro ≠ none → bar.tsMs < shock.triggerTsMs + peakWindowMs)
    (hlast : last.micro = some lastMicro)
    (hover : shock.triggerTsMs + peakWindowMs ≤ last.tsMs) :
    PairsOnce shock
        (Track.windowValues shock (metricPoints math shock.shockType
          (seenAfter math Seen.empty (before ++ [trigger])) (window ++ last :: later)))
        (run math new (before ++ trigger :: (window ++ last :: later))).2 ↔
      detectAt math (before ++ trigger :: window) last lastMicro shock.shockType = none := by
  obtain ⟨micro, hmicro⟩ : ∃ micro, trigger.micro = some micro := by
    cases hnone : trigger.micro with
    | none =>
      rw [onBar_of_none math hnone] at hshock
      cases hshock
    | some micro => exact ⟨micro, rfl⟩
  obtain ⟨hseen, hkeyed, htracks⟩ := run_track math before keyed_new
  obtain ⟨_, _, htypes⟩ := onBar_of_micro math hkeyed hmicro
  obtain ⟨htrack, _⟩ := htracks shock.shockType
  obtain ⟨_, hsignals⟩ := htypes shock.shockType
  rw [htrack, hseen] at hsignals
  have hown : ShockSignal.pending shock ∈
      signalsOf shock.shockType ((run math new before).1.onBar math trigger).2 :=
    List.mem_filter.mpr ⟨hshock, decide_eq_true rfl⟩
  rw [hsignals] at hown
  -- the bars of the run as ticks of the type
  set pushed := seenAfter math Seen.empty (before ++ [trigger]) with hpushed
  set reached := seenAfter math Seen.empty (before ++ trigger :: window) with hreached
  have hpush : pushed = (seenAfter math Seen.empty before).push math trigger micro := by
    rw [hpushed, seenAfter_append, seenAfter, hmicro]
    rfl
  have hreach : reached = seenAfter math pushed window := by
    rw [hreached, List.append_cons, seenAfter_append]
  have hrest : ticks math shock.shockType pushed (window ++ last :: later) =
      ticks math shock.shockType pushed window ++
        barTick math reached last lastMicro shock.shockType ::
          ticks math shock.shockType (reached.push math last lastMicro) later := by
    rw [ticks_append, ← hreach, ticks_cons, hlast]
    rfl
  have hticks : ticks math shock.shockType Seen.empty
      (before ++ trigger :: (window ++ last :: later)) =
      ticks math shock.shockType Seen.empty before ++
        barTick math (seenAfter math Seen.empty before) trigger micro shock.shockType ::
          ticks math shock.shockType pushed (window ++ last :: later) := by
    rw [ticks_append, ticks_cons, hmicro, hpush]
    rfl
  have hsortedTicks := @ticks_sorted math shock.shockType Seen.empty _ hsorted
  rw [hticks, hrest] at hsortedTicks
  have hmetric : ∀ detection ∈ (barTick math (seenAfter math Seen.empty before) trigger micro
      shock.shockType).detection, ∀ value ∈ (barTick math (seenAfter math Seen.empty before) trigger
        micro shock.shockType).metric, value = detection.1.magnitude := by
    intro detection hdetection value hvalue
    obtain ⟨found, hfound, rfl⟩ := Option.map_eq_some_iff.mp hdetection
    have hsome : ((seenAfter math Seen.empty before).push math trigger micro).hist.metric math
        trigger shock.shockType = some value := hvalue
    have hmagnitude := Histories.detect_magnitude _ _ _ _ hfound
      (by rw [hsome]; exact Option.some_ne_none value)
    rw [hsome] at hmagnitude
    exact Option.some.inj hmagnitude
  have hwindowTicks : ∀ tick ∈ ticks math shock.shockType pushed window,
      tick.tsMs < shock.triggerTsMs + peakWindowMs := by
    intro tick htick
    obtain ⟨bar, hbar, hpriced, hts⟩ := exists_bar_of_mem_ticks math htick
    rw [← hts]
    exact hwindow bar hbar hpriced
  have hstart : (new.track shock.shockType).pending = none := rfl
  have hpairs := Track.run_pairs hstart hsortedTicks hown hmetric hwindowTicks hover
  obtain ⟨_, _, hrun⟩ := run_track math (before ++ trigger :: (window ++ last :: later)) keyed_new
  have hfinals : finalsOf shock.shockType shock.triggerTsMs
      (run math new (before ++ trigger :: (window ++ last :: later))).2 =
      finalsOf shock.shockType shock.triggerTsMs ((new.track shock.shockType).run shock.shockType
        (ticks math shock.shockType Seen.empty
          (before ++ trigger :: (window ++ last :: later)))).2 := by
    rw [← finalsOf_signalsOf, (hrun shock.shockType).2]
    rfl
  have hdetection : (barTick math reached last lastMicro shock.shockType).detection = none ↔
      detectAt math (before ++ trigger :: window) last lastMicro shock.shockType = none :=
    Option.map_eq_none_iff
  rw [← hdetection, ← hpairs]
  unfold PairsOnce metricPoints
  rw [hfinals, hticks, hrest]

/-! ## Samples -/

/-- Logarithm and root, right for one and for squares. -/
def sampleMath : FloatMath where
  ln := fun value => value - 1
  sqrt := fun value => (Nat.sqrt value.num.toNat : ℚ) / Nat.sqrt value.den

/-- A bar with a steady price and some new quotes. -/
def quoteBar (barSecond addUpdates1s : ℤ) : ShockBar where
  barSecond := barSecond
  microPx := some (1 / 2)
  tickPx := some (1 / 1000)
  addUpdates1s := addUpdates1s
  cancelUpdates1s := 0
  volumeNotional1s := 0
  buyNotional1s := 0
  sellNotional1s := 0
  cvdDelta1s := 0
  ofi1s := 0
  levelsCrossed1s := 0
  tradeCount1s := 0
  tradeSideMissingCount1s := 0
  maxTradeNotional1s := 0
  wallPull := none

/-- The burst of quotes of a token's first bar. -/
def firstBurst : ShockPending where
  shockType := .quoteBurstAdd
  direction := 0
  noiseFlag := 0
  startTsMs := 1700000000000
  triggerTsMs := 1700000000000
  magnitude := 5
  context := [("q_add", .num 5), ("z", .num 0), ("p99", .num 5)]

/-- After ten seconds the quotes have calmed down. -/
theorem pairsOnce_calm :
    PairsOnce firstBurst
        (Track.windowValues firstBurst (metricPoints sampleMath .quoteBurstAdd
          (seenAfter sampleMath Seen.empty ([] ++ [quoteBar 1700000000 5]))
          ([] ++ quoteBar 1700000010 0 :: [])))
        (run sampleMath new ([] ++ quoteBar 1700000000 5 :: ([] ++ quoteBar 1700000010 0 :: []))).2 :=
  (pairsOnce_iff sampleMath (by decide) (by decide +kernel)
    (fun bar hbar => by cases hbar)
    (show (quoteBar 1700000010 0).micro = some (1 / 2) by decide +kernel)
    (by decide)).mpr (by decide +kernel)

/-- With as many new quotes after ten seconds the detector fires again, and the first shock
never gets its final signal. -/
theorem burst_overwritten :
    ¬ ∀ (math : FloatMath) (before window later : List ShockBar) (trigger last : ShockBar)
      (lastMicro : ℚ) (shock : ShockPending),
      (before ++ trigger :: (window ++ last :: later)).Pairwise
        (fun a b => a.barSecond < b.barSecond) →
      ShockSignal.pending shock ∈ ((run math new before).1.onBar math trigger).2 →
      (∀ bar ∈ window, bar.micro ≠ none → bar.tsMs < shock.triggerTsMs + peakWindowMs) →
      last.micro = some lastMicro → shock.triggerTsMs + peakWindowMs ≤ last.tsMs →
      PairsOnce shock
        (Track.windowValues shock (metricPoints math shock.shockType
          (seenAfter math Seen.empty (before ++ [trigger])) (window ++ last :: later)))
        (run math new (before ++ trigger :: (window ++ last :: later))).2 := by
  intro hall
  obtain ⟨final, honly, _⟩ := hall sampleMath [] [] [] (quoteBar 1700000000 5)
    (quoteBar 1700000010 5) (1 / 2) firstBurst (by decide) (by decide +kernel)
    (fun bar hbar => by cases hbar) (by decide +kernel) (by decide)
  have hnone : finalsOf .quoteBurstAdd 1700000000000 (run sampleMath new
      [quoteBar 1700000000 5, quoteBar 1700000010 5]).2 = [] := by decide +kernel
  have honly' : finalsOf .quoteBurstAdd 1700000000000 (run sampleMath new
      [quoteBar 1700000000 5, quoteBar 1700000010 5]).2 = [final] := honly
  rw [hnone] at honly'
  cases honly'

end ShockEngine

end AlphaMonitor.Shock
