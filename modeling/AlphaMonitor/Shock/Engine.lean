import AlphaMonitor.Shock.Detectors

/-!
# The shock engine

A detector that fires makes a pending shock, unless one of its type was made in the last
ten seconds.  A pending shock follows the peak of its metric for ten seconds and is then
made final.  Every bar is first looked at by the detectors and then by the pending shocks.

## Main definitions

- `ShockEngine.onBar`: what a bar does to the engine, and the signals it gives
- `Track`, `Track.tick`: the same for one type of shock
-/

namespace AlphaMonitor.Shock

def cooldownMs : ℤ := 10000
def peakWindowMs : ℤ := 10000
def weakThresholdFactor : ℚ := 7 / 10
def metricHistoryMax : ℕ := 120

/-! ## Signals -/

/-- `ShockPending`. -/
structure ShockPending where
  shockType : ShockType
  (direction noiseFlag startTsMs triggerTsMs : ℤ)
  magnitude : ℚ
  context : List (String × ContextValue)
  deriving DecidableEq, Repr

/-- `ShockFinal`. -/
structure ShockFinal where
  shockType : ShockType
  (direction noiseFlag startTsMs triggerTsMs peakTsMs : ℤ)
  magnitude : ℚ
  context : List (String × ContextValue)
  deriving DecidableEq, Repr

/-- `ShockSignal`. -/
inductive ShockSignal where
  | pending (shock : ShockPending)
  | final (shock : ShockFinal)
  deriving DecidableEq, Repr

/-! ## The engine -/

/-- `MetricPoint`. -/
structure MetricPoint where
  tsMs : ℤ
  value : ℚ
  deriving DecidableEq, Repr

/-- `PendingShock`. -/
structure PendingShock where
  shockType : ShockType
  (direction noiseFlag startTsMs triggerTsMs peakTsMs : ℤ)
  peakValue : ℚ
  context : List (String × ContextValue)
  expiresTsMs : ℤ
  deriving DecidableEq, Repr

/-- What the engine has seen of the bars: histories, and the recorded metrics of each type,
newest first. -/
structure Seen where
  hist : Histories
  metricHistory : ShockType → List MetricPoint

/-- `ShockEngine`. -/
structure ShockEngine where
  seen : Seen
  lastTriggerMs : ShockType → Option ℤ
  pending : ShockType → Option PendingShock

namespace Seen

def empty : Seen := ⟨Histories.empty, fun _ => []⟩

/-- Histories, windows and recorded metrics after a bar with this micro price. -/
def push (math : FloatMath) (seen : Seen) (bar : ShockBar) (micro : ℚ) : Seen :=
  let hist := seen.hist.push math bar micro
  { hist := hist
    metricHistory := fun shockType =>
      pushSome metricHistoryMax ((hist.metric math bar shockType).map (MetricPoint.mk bar.tsMs))
        (seen.metricHistory shockType) }

/-- `find_start_ts`: since when the metric has been at the weak threshold. -/
def findStartTs (seen : Seen) (shockType : ShockType) (weakThreshold : ℚ) (fallback : ℤ) : ℤ :=
  -- the history is newest first: the run of strong points that ends with the bar
  let strong := (seen.metricHistory shockType).takeWhile fun point =>
    decide (point.value ≥ weakThreshold)
  (strong.getLast?.map MetricPoint.tsMs).getD fallback

/-- The start of a shock that is detected now. -/
def startTs (seen : Seen) (shockType : ShockType) (tsMs : ℤ) (strongThreshold : ℚ) : ℤ :=
  -- a detector without a threshold starts its shocks at the bar itself
  if strongThreshold > 0 then
    seen.findStartTs shockType (strongThreshold * weakThresholdFactor) tsMs
  else tsMs

end Seen

/-- A new pending shock. -/
def newPending (shockType : ShockType) (tsMs startTsMs : ℤ) (detection : Detection) :
    PendingShock where
  shockType := shockType
  direction := detection.direction
  noiseFlag := detection.noiseFlag
  startTsMs := startTsMs
  triggerTsMs := tsMs
  peakTsMs := tsMs
  peakValue := detection.magnitude
  context := detection.context
  expiresTsMs := tsMs + peakWindowMs

namespace PendingShock

/-- The signal of a new pending shock. -/
def announce (pending : PendingShock) : ShockPending where
  shockType := pending.shockType
  direction := pending.direction
  noiseFlag := pending.noiseFlag
  startTsMs := pending.startTsMs
  triggerTsMs := pending.triggerTsMs
  magnitude := pending.peakValue
  context := pending.context

/-- The peak of the window, where a larger metric takes its place. -/
def follow (pending : PendingShock) (tsMs : ℤ) (metric : Option ℚ) : PendingShock :=
  -- a peak on the last instant of the window still counts
  if tsMs ≤ pending.expiresTsMs then
    match metric with
    | some value =>
      if value > pending.peakValue then { pending with peakValue := value, peakTsMs := tsMs }
      else pending
    | none => pending
  else pending

/-- The signal of a shock whose window is over. -/
def finalize (pending : PendingShock) : ShockFinal where
  shockType := pending.shockType
  direction := pending.direction
  noiseFlag := pending.noiseFlag
  startTsMs := pending.startTsMs
  triggerTsMs := pending.triggerTsMs
  peakTsMs := pending.peakTsMs
  magnitude := pending.peakValue
  context := pending.context

end PendingShock

/-- A shock of the type was made less than the cooldown ago. -/
def inCooldown (last : Option ℤ) (tsMs : ℤ) : Bool :=
  last.any fun last => decide (tsMs - last < cooldownMs)

namespace ShockEngine

def new : ShockEngine := ⟨Seen.empty, fun _ => none, fun _ => none⟩

variable (engine : ShockEngine)

/-- `schedule_shock`. -/
def scheduleShock (shockType : ShockType) (tsMs : ℤ) (detection : Detection) :
    ShockEngine × Option ShockSignal :=
  -- the cooldown is kept by type, and starts when a shock is made
  if inCooldown (engine.lastTriggerMs shockType) tsMs then (engine, none)
  else
    let startTsMs := engine.seen.startTs shockType tsMs detection.strongThreshold
    let pending := newPending shockType tsMs startTsMs detection
    ({ engine with
        lastTriggerMs := Function.update engine.lastTriggerMs shockType (some tsMs)
        pending := Function.update engine.pending shockType (some pending) },
      some (.pending pending.announce))

/-- A detector that fires schedules its shock. -/
def scheduleIf (shockType : ShockType) (tsMs : ℤ) (detection : Option Detection) :
    ShockEngine × Option ShockSignal :=
  match detection with
  | some detection => engine.scheduleShock shockType tsMs detection
  | none => (engine, none)

/-- A step for each of some types, one after the other. -/
def eachType (step : ShockType → ShockEngine → ShockEngine × Option ShockSignal) :
    List ShockType → ShockEngine → ShockEngine × List ShockSignal
  | [], engine => (engine, [])
  | shockType :: rest, engine =>
    let (engine, found) := step shockType engine
    let (engine, signals) := eachType step rest engine
    (engine, found.toList ++ signals)

/-- One key of `finalize_pending`. -/
def finalizeOne (shockType : ShockType) (tsMs : ℤ) (metric : Option ℚ) :
    ShockEngine × Option ShockSignal :=
  match engine.pending shockType with
  | none => (engine, none)
  | some pending =>
    let pending := pending.follow tsMs metric
    -- the metric of the closing bar has been taken into account already
    if tsMs ≥ pending.expiresTsMs then
      ({ engine with pending := Function.update engine.pending shockType none },
        some (.final pending.finalize))
    else
      ({ engine with pending := Function.update engine.pending shockType (some pending) }, none)

/-- `on_bar`.  The source goes through the pending shocks in the order of its hash map, on
which only the order of the final signals depends. -/
def onBar (math : FloatMath) (bar : ShockBar) : ShockEngine × List ShockSignal :=
  match bar.micro with
  -- without a micro price the bar is not even recorded
  | none => (engine, [])
  | some micro =>
    let seen := engine.seen.push math bar micro
    let engine := { engine with seen := seen }
    let detect := seen.hist.detect math bar micro
    let metric := seen.hist.metric math bar
    -- the detectors come first: a shock made by this bar is followed from this bar on
    let (engine, pendings) :=
      eachType (fun shockType engine => engine.scheduleIf shockType bar.tsMs (detect shockType))
        ShockType.all engine
    let (engine, finals) :=
      eachType (fun shockType engine => engine.finalizeOne shockType bar.tsMs (metric shockType))
        ShockType.all engine
    (engine, pendings ++ finals)

/-- The engine and all signals after some bars. -/
def run (math : FloatMath) : ShockEngine → List ShockBar → ShockEngine × List ShockSignal
  | engine, [] => (engine, [])
  | engine, bar :: rest =>
    let (engine, signals) := engine.onBar math bar
    let (engine, later) := run math engine rest
    (engine, signals ++ later)

end ShockEngine

/-! ## One type of shock -/

/-- What a bar means to one type of shock: its detection with the start found for it, and
its metric. -/
structure Tick where
  tsMs : ℤ
  detection : Option (Detection × ℤ)
  metric : Option ℚ

/-- The part of the engine that belongs to one type of shock. -/
structure Track where
  last : Option ℤ
  pending : Option PendingShock

namespace Track

variable (shockType : ShockType) (track : Track) (tick : Tick)

/-- The detector of the type has been asked. -/
def schedule : Track × Option ShockSignal :=
  match tick.detection with
  | none => (track, none)
  | some (detection, startTsMs) =>
    if inCooldown track.last tick.tsMs then (track, none)
    else
      let pending := newPending shockType tick.tsMs startTsMs detection
      (⟨some tick.tsMs, some pending⟩, some (.pending pending.announce))

/-- The pending shock of the type has seen the bar. -/
def settle : Track × Option ShockSignal :=
  match track.pending with
  | none => (track, none)
  | some pending =>
    let pending := pending.follow tick.tsMs tick.metric
    if tick.tsMs ≥ pending.expiresTsMs then (⟨track.last, none⟩, some (.final pending.finalize))
    else (⟨track.last, some pending⟩, none)

/-- The type after a bar. -/
def next : Track := ((track.schedule shockType tick).1.settle tick).1

/-- The signals that the type gives at a bar. -/
def signals : List ShockSignal :=
  (track.schedule shockType tick).2.toList ++ ((track.schedule shockType tick).1.settle tick).2.toList

/-- The pending shock is one of the type. -/
def Keyed : Prop := ∀ pending ∈ track.pending, pending.shockType = shockType

end Track

/-- The type of a signal. -/
def ShockSignal.shockType : ShockSignal → ShockType
  | .pending shock => shock.shockType
  | .final shock => shock.shockType

/-- The signals of one type. -/
def signalsOf (shockType : ShockType) (signals : List ShockSignal) : List ShockSignal :=
  signals.filter fun signal => decide (signal.shockType = shockType)

theorem signalsOf_append (shockType : ShockType) (xs ys : List ShockSignal) :
    signalsOf shockType (xs ++ ys) = signalsOf shockType xs ++ signalsOf shockType ys :=
  List.filter_append xs ys

theorem signalsOf_toList_same {shockType : ShockType} {found : Option ShockSignal}
    (h : ∀ signal ∈ found, signal.shockType = shockType) :
    signalsOf shockType found.toList = found.toList := by
  refine List.filter_eq_self.mpr fun signal hsignal => ?_
  exact decide_eq_true (h signal (Option.mem_toList.mp hsignal))

theorem signalsOf_toList_other {shockType other : ShockType} {found : Option ShockSignal}
    (hne : shockType ≠ other) (h : ∀ signal ∈ found, signal.shockType = other) :
    signalsOf shockType found.toList = [] := by
  refine List.filter_eq_nil_iff.mpr fun signal hsignal => ?_
  rw [h signal (Option.mem_toList.mp hsignal), decide_eq_true_eq]
  exact Ne.symm hne

namespace ShockEngine

def track (engine : ShockEngine) (shockType : ShockType) : Track :=
  ⟨engine.lastTriggerMs shockType, engine.pending shockType⟩

/-- Every pending shock is stored under its own type. -/
def Keyed (engine : ShockEngine) : Prop := ∀ shockType, (engine.track shockType).Keyed shockType

/-- A step of one type does `act` to it and leaves the other types alone. -/
structure LocalStep (seen : Seen)
    (step : ShockType → ShockEngine → ShockEngine × Option ShockSignal)
    (act : ShockType → Track → Track × Option ShockSignal) : Prop where
  frame : ∀ shockType engine, (step shockType engine).1.seen = engine.seen
  own : ∀ shockType engine, engine.seen = seen →
    ((step shockType engine).1.track shockType, (step shockType engine).2) =
      act shockType (engine.track shockType)
  other : ∀ shockType other engine, other ≠ shockType →
    (step shockType engine).1.track other = engine.track other
  keyed : ∀ shockType track, track.Keyed shockType → (act shockType track).1.Keyed shockType ∧
    ∀ signal ∈ (act shockType track).2, signal.shockType = shockType

/-- Each type has its own step, whatever the other types do. -/
theorem LocalStep.eachType {seen : Seen}
    {step : ShockType → ShockEngine → ShockEngine × Option ShockSignal}
    {act : ShockType → Track → Track × Option ShockSignal} (h : LocalStep seen step act)
    {types : List ShockType} (hnodup : types.Nodup) {engine : ShockEngine}
    (hseen : engine.seen = seen) (hkeyed : engine.Keyed) :
    (eachType step types engine).1.seen = seen ∧ (eachType step types engine).1.Keyed ∧
      ∀ shockType,
        ((eachType step types engine).1.track shockType,
            signalsOf shockType (eachType step types engine).2) =
          if shockType ∈ types then
            ((act shockType (engine.track shockType)).1,
              (act shockType (engine.track shockType)).2.toList)
          else (engine.track shockType, []) := by
  induction types generalizing engine with
  | nil => exact ⟨hseen, hkeyed, fun shockType => rfl⟩
  | cons first rest ih =>
    obtain ⟨hfirst, hrest⟩ := List.nodup_cons.mp hnodup
    have hown := h.own first engine hseen
    obtain ⟨hkeyedAct, hsignal⟩ := h.keyed first (engine.track first) (hkeyed first)
    rw [← hown] at hkeyedAct hsignal
    have hseen' : (step first engine).1.seen = seen := (h.frame first engine).trans hseen
    -- the first type stays keyed by its own step, the others are not touched
    have hkeyed' : (step first engine).1.Keyed := by
      intro shockType
      by_cases hsame : shockType = first
      · rw [hsame]
        exact hkeyedAct
      · rw [h.other first shockType engine hsame]
        exact hkeyed shockType
    obtain ⟨hseenRest, hkeyedRest, hall⟩ := ih hrest hseen' hkeyed'
    refine ⟨hseenRest, hkeyedRest, ?_⟩
    intro shockType
    have hrestOf := hall shockType
    show ((ShockEngine.eachType step rest (step first engine).1).1.track shockType,
      signalsOf shockType ((step first engine).2.toList ++
        (ShockEngine.eachType step rest (step first engine).1).2)) = _
    rw [signalsOf_append]
    -- the first type: the rest of the list does not contain it
    by_cases hsame : shockType = first
    · subst hsame
      rw [if_neg hfirst] at hrestOf
      obtain ⟨htrack, hsignals⟩ := Prod.mk.inj hrestOf
      rw [if_pos List.mem_cons_self, htrack, hsignals, signalsOf_toList_same hsignal,
        List.append_nil, ← hown]
    · -- another type: the first step neither moves its track nor signals for it
      rw [h.other first shockType engine hsame] at hrestOf
      obtain ⟨htrack, hsignals⟩ := Prod.mk.inj hrestOf
      rw [signalsOf_toList_other hsame hsignal, List.nil_append, ← Prod.mk.eta
        (p := ((ShockEngine.eachType step rest (step first engine).1).1.track shockType,
          signalsOf shockType (ShockEngine.eachType step rest (step first engine).1).2)),
        hrestOf]
      refine if_congr ?_ rfl rfl
      rw [List.mem_cons]
      exact ⟨Or.inr, fun hmem => hmem.resolve_left hsame⟩

/-! ### The two passes of `on_bar` -/

section
variable (seen : Seen) (tsMs : ℤ) (detect : ShockType → Option Detection)
    (metric : ShockType → Option ℚ)

/-- What a bar means to a type, by what the engine has seen up to the bar itself. -/
def tickOf (shockType : ShockType) : Tick where
  tsMs := tsMs
  detection := (detect shockType).map fun detection =>
    (detection, seen.startTs shockType tsMs detection.strongThreshold)
  metric := metric shockType

theorem scheduleIf_local :
    LocalStep seen (fun shockType engine => engine.scheduleIf shockType tsMs (detect shockType))
      fun shockType track => track.schedule shockType (tickOf seen tsMs detect metric shockType) where
  frame := by
    intro shockType engine
    unfold scheduleIf scheduleShock
    cases detect shockType with
    | none => rfl
    | some detection =>
      dsimp only
      split <;> rfl
  own := by
    rintro shockType engine rfl
    unfold scheduleIf scheduleShock Track.schedule tickOf
    cases detect shockType with
    | none => rfl
    | some detection =>
      dsimp only [Option.map_some]
      by_cases hcool : inCooldown (engine.lastTriggerMs shockType) tsMs = true
      · rw [if_pos hcool]
        exact (if_pos hcool).symm
      · rw [if_neg hcool]
        refine Eq.trans ?_ (if_neg hcool).symm
        unfold track
        dsimp only
        rw [Function.update_self, Function.update_self]
  other := by
    intro shockType other engine hne
    unfold scheduleIf scheduleShock
    cases detect shockType with
    | none => rfl
    | some detection =>
      dsimp only
      split
      · rfl
      · unfold track
        dsimp only
        rw [Function.update_of_ne hne, Function.update_of_ne hne]
  keyed := by
    intro shockType track hkeyed
    unfold Track.schedule tickOf
    cases detect shockType with
    | none => exact ⟨hkeyed, fun signal hsignal => by cases hsignal⟩
    | some detection =>
      dsimp only [Option.map_some]
      split
      · exact ⟨hkeyed, fun signal hsignal => by cases hsignal⟩
      · constructor
        · intro pending hpending
          cases hpending
          rfl
        · intro signal hsignal
          cases hsignal
          rfl

theorem follow_frame (pending : PendingShock) (value : Option ℚ) :
    (pending.follow tsMs value).shockType = pending.shockType ∧
      (pending.follow tsMs value).triggerTsMs = pending.triggerTsMs ∧
      (pending.follow tsMs value).expiresTsMs = pending.expiresTsMs := by
  unfold PendingShock.follow
  split
  · cases value with
    | none => exact ⟨rfl, rfl, rfl⟩
    | some value =>
      dsimp only
      split <;> exact ⟨rfl, rfl, rfl⟩
  · exact ⟨rfl, rfl, rfl⟩

theorem finalizeOne_local :
    LocalStep seen (fun shockType engine => engine.finalizeOne shockType tsMs (metric shockType))
      fun shockType track => track.settle (tickOf seen tsMs detect metric shockType) where
  frame := by
    intro shockType engine
    unfold finalizeOne
    cases engine.pending shockType with
    | none => rfl
    | some pending =>
      dsimp only
      split <;> rfl
  own := by
    rintro shockType engine rfl
    unfold finalizeOne Track.settle tickOf track
    cases hpending : engine.pending shockType with
    | none =>
      dsimp only
      rw [hpending]
    | some pending =>
      dsimp only
      split
      · dsimp only
        rw [Function.update_self]
      · dsimp only
        rw [Function.update_self]
  other := by
    intro shockType other engine hne
    unfold finalizeOne
    cases engine.pending shockType with
    | none => rfl
    | some pending =>
      dsimp only
      split
      · unfold track
        dsimp only
        rw [Function.update_of_ne hne]
      · unfold track
        dsimp only
        rw [Function.update_of_ne hne]
  keyed := by
    intro shockType track hkeyed
    unfold Track.settle tickOf
    cases hpending : track.pending with
    | none =>
      refine ⟨?_, fun signal hsignal => by cases hsignal⟩
      intro pending hsome
      rw [hpending] at hsome
      cases hsome
    | some pending =>
      have htype : (pending.follow tsMs (metric shockType)).shockType = shockType :=
        (follow_frame tsMs pending _).1.trans (hkeyed pending hpending)
      dsimp only
      split
      · refine ⟨fun pending' hnone => (by cases hnone), ?_⟩
        intro signal hsignal
        cases hsignal
        exact htype
      · refine ⟨?_, fun signal hsignal => by cases hsignal⟩
        intro pending' hsome
        cases hsome
        exact htype

end

/-! ### Bars and runs -/

section
variable (math : FloatMath)

/-- What a bar means to a type, after the bars that were seen. -/
def barTick (seen : Seen) (bar : ShockBar) (micro : ℚ) (shockType : ShockType) : Tick :=
  let seen := seen.push math bar micro
  tickOf seen bar.tsMs (seen.hist.detect math bar micro) (seen.hist.metric math bar) shockType

/-- A bar does to each type what it means to the type. -/
theorem onBar_of_micro {engine : ShockEngine} (hkeyed : engine.Keyed) {bar : ShockBar} {micro : ℚ}
    (hmicro : bar.micro = some micro) :
    (engine.onBar math bar).1.seen = engine.seen.push math bar micro ∧
      (engine.onBar math bar).1.Keyed ∧
      ∀ shockType,
        (engine.onBar math bar).1.track shockType =
            (engine.track shockType).next shockType (barTick math engine.seen bar micro shockType) ∧
          signalsOf shockType (engine.onBar math bar).2 =
            (engine.track shockType).signals shockType
              (barTick math engine.seen bar micro shockType) := by
  have hschedule := scheduleIf_local (engine.seen.push math bar micro) bar.tsMs
    ((engine.seen.push math bar micro).hist.detect math bar micro)
    ((engine.seen.push math bar micro).hist.metric math bar)
  have hfinalize := finalizeOne_local (engine.seen.push math bar micro) bar.tsMs
    ((engine.seen.push math bar micro).hist.detect math bar micro)
    ((engine.seen.push math bar micro).hist.metric math bar)
  have hnodup := ShockType.all_nodup
  have hseen : ({ engine with seen := engine.seen.push math bar micro } : ShockEngine).seen =
      engine.seen.push math bar micro := rfl
  obtain ⟨hseen₁, hkeyed₁, htypes₁⟩ := hschedule.eachType hnodup hseen hkeyed
  obtain ⟨hseen₂, hkeyed₂, htypes₂⟩ := hfinalize.eachType hnodup hseen₁ hkeyed₁
  unfold onBar
  rw [hmicro]
  refine ⟨hseen₂, hkeyed₂, ?_⟩
  intro shockType
  have hfirst := htypes₁ shockType
  have hsecond := htypes₂ shockType
  rw [if_pos (ShockType.mem_all shockType)] at hfirst hsecond
  obtain ⟨htrack₁, hsignals₁⟩ := Prod.mk.inj hfirst
  obtain ⟨htrack₂, hsignals₂⟩ := Prod.mk.inj hsecond
  rw [htrack₁] at htrack₂ hsignals₂
  refine ⟨htrack₂, ?_⟩
  dsimp only
  rw [signalsOf_append, hsignals₁, hsignals₂]
  rfl

/-- A bar without a micro price is passed over. -/
theorem onBar_of_none {engine : ShockEngine} {bar : ShockBar} (hmicro : bar.micro = none) :
    engine.onBar math bar = (engine, []) := by
  unfold onBar
  rw [hmicro]

/-- What was seen after some bars. -/
def seenAfter : Seen → List ShockBar → Seen
  | seen, [] => seen
  | seen, bar :: rest => seenAfter (bar.micro.elim seen (seen.push math bar)) rest

/-- What some bars mean to a type. -/
def ticks (shockType : ShockType) : Seen → List ShockBar → List Tick
  | _, [] => []
  | seen, bar :: rest =>
    match bar.micro with
    | none => ticks shockType seen rest
    | some micro =>
      barTick math seen bar micro shockType :: ticks shockType (seen.push math bar micro) rest

end

end ShockEngine

namespace Track

variable (shockType : ShockType)

/-- The type and its signals after some bars. -/
def run : Track → List Tick → Track × List ShockSignal
  | track, [] => (track, [])
  | track, tick :: rest =>
    let (later, signals) := run (track.next shockType tick) rest
    (later, track.signals shockType tick ++ signals)

end Track

namespace ShockEngine

theorem keyed_new : new.Keyed := by
  intro shockType pending hpending
  cases hpending

/-- Each type of a run is a run of its own. -/
theorem run_track (math : FloatMath) (bars : List ShockBar) {engine : ShockEngine}
    (hkeyed : engine.Keyed) :
    (run math engine bars).1.seen = seenAfter math engine.seen bars ∧
      (run math engine bars).1.Keyed ∧
      ∀ shockType,
        (run math engine bars).1.track shockType =
            ((engine.track shockType).run shockType (ticks math shockType engine.seen bars)).1 ∧
          signalsOf shockType (run math engine bars).2 =
            ((engine.track shockType).run shockType
              (ticks math shockType engine.seen bars)).2 := by
  induction bars generalizing engine with
  | nil => exact ⟨rfl, hkeyed, fun shockType => ⟨rfl, rfl⟩⟩
  | cons bar rest ih =>
    have hrun : run math engine (bar :: rest) =
        ((run math (engine.onBar math bar).1 rest).1,
          (engine.onBar math bar).2 ++ (run math (engine.onBar math bar).1 rest).2) := rfl
    rw [hrun]
    unfold seenAfter ticks
    cases hmicro : bar.micro with
    | none =>
      rw [onBar_of_none math hmicro]
      exact ih hkeyed
    | some micro =>
      obtain ⟨hseen, hkeyed', htypes⟩ := onBar_of_micro math hkeyed hmicro
      obtain ⟨hseenRest, hkeyedRest, hrest⟩ := ih hkeyed'
      rw [hseen] at hseenRest hrest
      refine ⟨hseenRest, hkeyedRest, ?_⟩
      intro shockType
      obtain ⟨htrack, hsignals⟩ := htypes shockType
      obtain ⟨htrackRest, hsignalsRest⟩ := hrest shockType
      rw [htrack] at htrackRest hsignalsRest
      refine ⟨htrackRest, ?_⟩
      rw [signalsOf_append, hsignals, hsignalsRest]
      rfl

theorem ticks_cons (math : FloatMath) (shockType : ShockType) (seen : Seen) (bar : ShockBar)
    (rest : List ShockBar) :
    ticks math shockType seen (bar :: rest) =
      (bar.micro.map fun micro => barTick math seen bar micro shockType).toList ++
        ticks math shockType (bar.micro.elim seen (seen.push math bar)) rest := by
  rw [ticks]
  cases bar.micro <;> rfl

theorem ticks_append (math : FloatMath) (shockType : ShockType) (seen : Seen)
    (xs ys : List ShockBar) :
    ticks math shockType seen (xs ++ ys) =
      ticks math shockType seen xs ++ ticks math shockType (seenAfter math seen xs) ys := by
  induction xs generalizing seen with
  | nil => rfl
  | cons bar rest ih =>
    rw [List.cons_append, ticks_cons, ticks_cons, ih, List.append_assoc]
    rfl

theorem seenAfter_append (math : FloatMath) (seen : Seen) (xs ys : List ShockBar) :
    seenAfter math seen (xs ++ ys) = seenAfter math (seenAfter math seen xs) ys := by
  induction xs generalizing seen with
  | nil => rfl
  | cons bar rest ih => exact ih _

end ShockEngine

end AlphaMonitor.Shock
