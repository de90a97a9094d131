import AlphaMonitor.Shard.BarAt

/-!
# What a bar depends on

The bar of a second is made when the watermark is two seconds ahead, from the book
as it is then.  It depends on its own and earlier seconds only where no event of a
later second is handled before it is made.

## Main results

- `bar_eq_barAt`: a bar that was made in time is the one that the messages up to its
  second determine
- `noLookAhead_of_inTime`: so two runs with the same messages up to a second make the
  same bar of it
-/

namespace AlphaMonitor.Shard

/-! ## The messages up to a second -/

/-- The message concerns the token, and a second up to `barSecond`. -/
def isUpTo (tokenKey : String) (barSecond : ℤ) : ShardMessage → Bool
  | .event event => decide (event.tokenKey = tokenKey) && decide (event.barSecond ≤ barSecond)
  | .tick second => decide (second ≤ barSecond)

/-- The messages of a run that concern the token and a second up to `barSecond`. -/
def messagesUpTo (tokenKey : String) (barSecond : ℤ) (es : List (ShardEnv × ShardMessage)) :
    List ShardMessage :=
  (es.map Prod.snd).filter (isUpTo tokenKey barSecond)

/-- What messages make of a token, whatever the surroundings. -/
def replay (cfg : ShardConfig) (tokenKey : String) (messages : List ShardMessage) : TokenTrack :=
  messages.foldl (fun track message => track.handle cfg calmEnv tokenKey message) TokenTrack.start

/-- The message comes in time for the bar of a second: an event up to that second before the
watermark passes it, an event of a later second after the bar is made. -/
def InTime (tokenKey : String) (barSecond : ℤ) (st : TokenState) : ShardMessage → Prop
  | .event event => event.tokenKey = tokenKey →
      if event.barSecond ≤ barSecond then st.watermarkSecond ≤ barSecond
      else barSecond ≤ st.lastFlushedSecond
  | .tick _ => True

instance (tokenKey : String) (barSecond : ℤ) (st : TokenState) (message : ShardMessage) :
    Decidable (InTime tokenKey barSecond st message) := by
  cases message <;> unfold InTime <;> infer_instance

/-- Each message of the token comes in time. -/
def StepInTime (tokenKey : String) (barSecond : ℤ) (worker : ShardWorker)
    (e : ShardEnv × ShardMessage) : Prop :=
  ∀ st ∈ worker.state tokenKey, InTime tokenKey barSecond st e.2

instance (tokenKey : String) (barSecond : ℤ) (worker : ShardWorker)
    (e : ShardEnv × ShardMessage) : Decidable (StepInTime tokenKey barSecond worker e) :=
  inferInstanceAs (Decidable (∀ st ∈ worker.state tokenKey, InTime tokenKey barSecond st e.2))

namespace TokenTrack

variable (cfg : ShardConfig) (env : ShardEnv) (tokenKey : String)

/-- What is sent, but for the labels. -/
theorem send_alike (track : TokenTrack) (st : TokenState) :
    (∃ side drops, (track.send cfg env tokenKey st).state =
        some ((st.flushReady cfg tokenKey).1.relabel side drops)) ∧
      ∃ new, (track.send cfg env tokenKey st).bars = track.bars ++ new ∧
        ∀ bar ∈ new, st.lastFlushedSecond < bar.barSecond ∧
          bar.barSecond ≤ st.watermarkSecond - lateEventBufferSecs ∧
          bar.view = (st.barAt cfg tokenKey bar.barSecond).view := by
  obtain ⟨hsame, hbars⟩ := ShardWorker.emitAll_spec env (st.flushReady cfg tokenKey).1
    (st.flushReady cfg tokenKey).2
  refine ⟨⟨_, _, congrArg some hsame⟩, _, rfl, ?_⟩
  intro bar hbar
  obtain ⟨flushed, hflushed, hview⟩ := ShardWorker.exists_flushed hbars hbar
  obtain ⟨hlow, hhigh, hat⟩ := TokenState.mem_flushReady cfg tokenKey hflushed
  have hsecond : bar.barSecond = flushed.barSecond := by rw [hview.fields]
  rw [hsecond, ← hat]
  exact ⟨hlow, hhigh, hview.view⟩

/-! ## A token whose messages all come in time -/

variable (barSecond : ℤ)

/-- The clock has not passed the second. -/
def Before (track : TokenTrack) : Prop :=
  ∀ st ∈ track.state, st.watermarkSecond ≤ barSecond ∧ st.lastFlushedSecond < barSecond

/-- Until the clock passes the second, the token is what the messages up to it make of it. -/
structure InStep (track replayed : TokenTrack) : Prop where
  state : ∃ side drops, track.state = replayed.state.map (·.relabel side drops)
  dirty : ∀ st ∈ replayed.state, 0 < st.watermarkSecond → track.dirty = replayed.dirty
  bars : ∀ bar ∈ track.bars, bar.barSecond < barSecond

/-- Then the bar of the second is the one that those messages determine, if it is made. -/
structure Passed (track replayed : TokenTrack) : Prop where
  clock : ∃ st, track.state = some st ∧ barSecond < st.watermarkSecond ∧
    (barSecond ≤ st.lastFlushedSecond ∨ track.dirty = false)
  bars : ∀ bar ∈ track.bars, bar.barSecond = barSecond →
    ∃ st ∈ replayed.state, bar.view = (st.barAt cfg tokenKey barSecond).view

/-- A token and the replay of its messages up to a second. -/
structure Follows (track replayed : TokenTrack) : Prop where
  before : replayed.Before barSecond
  phase : track.InStep barSecond replayed ∨ track.Passed cfg tokenKey barSecond replayed

variable {cfg env tokenKey barSecond} {track replayed : TokenTrack}

/-! ### Events up to the second -/

/-- The clock after an event up to the second that comes in time. -/
theorem before_handleEvent {st : TokenState} {event : Event}
    (hst : st.watermarkSecond ≤ barSecond ∧ st.lastFlushedSecond < barSecond ∨
      ∃ venue side now, st = TokenState.new venue side event.barSecond now)
    (hle : event.barSecond ≤ barSecond) :
    (st.handleEvent event).state.watermarkSecond ≤ barSecond ∧
      (st.handleEvent event).state.lastFlushedSecond < barSecond := by
  -- either the second is barred and the clock stands, or the watermark takes the event's second
  rcases st.clock_handleEvent event with ⟨hclock, hmark, hflushed⟩ | ⟨_, hmark, hflushed⟩
  · rw [hmark, hflushed]
    rcases hst with ⟨hmark', hflushed'⟩ | ⟨venue, side, now, rfl⟩
    · omega
    · have hmark' : (TokenState.new venue side event.barSecond now).watermarkSecond =
          max event.barSecond 0 := rfl
      have hflushed' : (TokenState.new venue side event.barSecond now).lastFlushedSecond =
          max event.barSecond 0 - 1 := rfl
      omega
  · omega

theorem Before.send {st : TokenState} (hmark : st.watermarkSecond ≤ barSecond)
    (hflushed : st.lastFlushedSecond < barSecond) :
    (track.send cfg env tokenKey st).Before barSecond := by
  obtain ⟨⟨side, drops, hstate⟩, _⟩ := send_alike cfg env tokenKey track st
  have hbuffer : lateEventBufferSecs = 2 := rfl
  intro sent hsent
  rw [hstate] at hsent
  cases hsent
  obtain ⟨hmark', hflushed'⟩ := st.clock_flushReady cfg tokenKey
  show (st.flushReady cfg tokenKey).1.watermarkSecond ≤ barSecond ∧
    (st.flushReady cfg tokenKey).1.lastFlushedSecond < barSecond
  omega

/-- Two tokens whose states differ in labels send alike. -/
theorem InStep.send {env' : ShardEnv} {st : TokenState} {side : TokenSide} {drops : ℤ}
    (hmark : st.watermarkSecond ≤ barSecond) (hbars : ∀ bar ∈ track.bars, bar.barSecond < barSecond)
    (hdirty : track.dirty = replayed.dirty) :
    (track.send cfg env tokenKey (st.relabel side drops)).InStep barSecond
      (replayed.send cfg env' tokenKey st) := by
  obtain ⟨⟨side₁, drops₁, hstate₁⟩, new, hnew, hsent⟩ :=
    send_alike cfg env tokenKey track (st.relabel side drops)
  obtain ⟨⟨side₂, drops₂, hstate₂⟩, _⟩ := send_alike cfg env' tokenKey replayed st
  refine ⟨⟨side₁, drops₁, ?_⟩, ?_, ?_⟩
  · rw [hstate₁, hstate₂, TokenState.flushReady_relabel]
    rfl
  · intro _ _ _
    exact hdirty
  · rw [hnew]
    -- older bars stay below the second, and the new ones are two seconds behind the watermark
    intro bar hbar
    rcases List.mem_append.mp hbar with hold | hfresh
    · exact hbars bar hold
    · have hhigh := (hsent bar hfresh).2.1
      have hmark' : (st.relabel side drops).watermarkSecond = st.watermarkSecond := rfl
      have hbuffer : lateEventBufferSecs = 2 := rfl
      omega

/-- The states that an event is handled in differ in labels, and in a time that it overwrites. -/
theorem InStep.stateFor (h : track.InStep barSecond replayed) (env' : ShardEnv) (event : Event) :
    ∃ side drops, ((track.stateFor env tokenKey event).handleEvent event).state =
      ((replayed.stateFor env' tokenKey event).handleEvent event).state.relabel side drops := by
  obtain ⟨side, drops, hstate⟩ := h.state
  unfold TokenTrack.stateFor
  rw [hstate]
  cases replayed.state with
  | none =>
    -- a new state is built from the event, up to the label and the starting time
    set st := TokenState.new event.venue ((env'.tokenSides tokenKey).getD .unknown)
      event.barSecond env'.now
    refine ⟨(env.tokenSides tokenKey).getD .unknown, 0, ?_⟩
    have hnew : TokenState.new event.venue ((env.tokenSides tokenKey).getD .unknown)
        event.barSecond env.now =
        { st.relabel ((env.tokenSides tokenKey).getD .unknown) 0 with
          lastEventLocalTsMs := env.now } := rfl
    simp only [Option.map_none, Option.getD_none]
    rw [hnew, TokenState.handleEvent_forget, TokenState.handleEvent_relabel]
  | some st =>
    refine ⟨side, drops, ?_⟩
    simp only [Option.map_some, Option.getD_some]
    exact TokenState.handleEvent_relabel side drops st event

theorem Follows.takeEvent (hbefore : replayed.Before barSecond)
    (h : track.InStep barSecond replayed) {event : Event} (hle : event.barSecond ≤ barSecond) :
    (track.takeEvent cfg env tokenKey event).Follows cfg tokenKey barSecond
      (replayed.takeEvent cfg calmEnv tokenKey event) := by
  obtain ⟨side, drops, halike⟩ := @InStep.stateFor env tokenKey _ _ _ h calmEnv event
  have hclock : ((replayed.stateFor calmEnv tokenKey event).handleEvent event).state.watermarkSecond
        ≤ barSecond ∧
      ((replayed.stateFor calmEnv tokenKey event).handleEvent event).state.lastFlushedSecond
        < barSecond := by
    apply before_handleEvent ?_ hle
    cases hstate : replayed.state with
    | none => exact Or.inr ⟨_, _, _, replayed.stateFor_none calmEnv tokenKey event hstate⟩
    | some st =>
      left
      rw [replayed.stateFor_some calmEnv tokenKey event hstate]
      exact hbefore st hstate
  refine ⟨Before.send hclock.1 hclock.2, Or.inl ?_⟩
  simp only [TokenTrack.takeEvent, halike]
  exact InStep.send hclock.1 h.bars rfl

/-! ### Ticks -/

theorem clock_advance (st : TokenState) (tick : ℤ) :
    (st.advance tick).lastFlushedSecond = st.lastFlushedSecond ∧
      (st.watermarkSecond ≤ 0 ∧ (st.advance tick).watermarkSecond = st.watermarkSecond ∨
        0 < st.watermarkSecond ∧
          (st.advance tick).watermarkSecond = max st.watermarkSecond tick) := by
  unfold TokenState.advance
  split
  · rename_i h
    exact ⟨rfl, Or.inr ⟨h.1, (max_eq_right (le_of_lt h.2)).symm⟩⟩
  · rename_i h
    refine ⟨rfl, ?_⟩
    by_cases hclock : 0 < st.watermarkSecond
    · right
      refine ⟨hclock, (max_eq_left ?_).symm⟩
      by_contra hlater
      exact h ⟨hclock, not_le.mp hlater⟩
    · exact Or.inl ⟨not_lt.mp hclock, rfl⟩

theorem advance_relabel (side : TokenSide) (drops tick : ℤ) (st : TokenState) :
    (st.relabel side drops).advance tick = (st.advance tick).relabel side drops := by
  unfold TokenState.advance TokenState.relabel
  simp only
  split <;> rfl

/-- A tick up to the second leaves the replay where it is, as far as the second's bar goes. -/
theorem Before.takeTick (h : replayed.Before barSecond) {tick : ℤ} (hle : tick ≤ barSecond) :
    (replayed.takeTick cfg env tokenKey tick).Before barSecond ∧
      ∀ st ∈ replayed.state, ∃ st' ∈ (replayed.takeTick cfg env tokenKey tick).state,
        (st'.barAt cfg tokenKey barSecond).view = (st.barAt cfg tokenKey barSecond).view := by
  cases hstate : replayed.state with
  | none =>
    refine ⟨?_, fun st hst => by cases hst⟩
    intro st hst
    have hnone : (replayed.takeTick cfg env tokenKey tick).state = none := by
      simp only [TokenTrack.takeTick, hstate]
    rw [hnone] at hst
    cases hst
  | some st =>
    obtain ⟨hmark, hflushed⟩ := h st hstate
    obtain ⟨hflushed', hmark'⟩ := clock_advance st tick
    rw [TokenTrack.takeTick_of_state cfg env tokenKey replayed tick hstate]
    refine ⟨Before.send (by omega) (by omega), ?_⟩
    intro st' hst'
    cases hst'
    obtain ⟨⟨side, drops, hsent⟩, _⟩ := send_alike cfg env tokenKey
      { replayed with dirty := false } (st.advance tick)
    -- the tick is no later than the second, so the flush stops short of it
    refine ⟨_, hsent, ?_⟩
    have hbuffer : lateEventBufferSecs = 2 := rfl
    rw [TokenState.barAt_relabel, TokenState.barAt_flushReady cfg tokenKey (by omega) (by omega),
      TokenState.barAt_advance]

theorem InStep.takeTick (hbefore : replayed.Before barSecond)
    (h : track.InStep barSecond replayed) {tick : ℤ} (hle : tick ≤ barSecond) :
    (track.takeTick cfg env tokenKey tick).InStep barSecond
      (replayed.takeTick cfg calmEnv tokenKey tick) := by
  obtain ⟨side, drops, hstate⟩ := h.state
  cases hreplayed : replayed.state with
  | none =>
    rw [hreplayed] at hstate
    simp only [TokenTrack.takeTick, hstate, hreplayed, Option.map_none]
    refine ⟨⟨side, drops, rfl⟩, ?_, h.bars⟩
    intro st hst
    cases hst
  | some st =>
    obtain ⟨hmark, _⟩ := hbefore st hreplayed
    obtain ⟨_, hmark'⟩ := clock_advance st tick
    rw [hreplayed, Option.map_some] at hstate
    rw [TokenTrack.takeTick_of_state cfg env tokenKey track tick hstate,
      TokenTrack.takeTick_of_state cfg calmEnv tokenKey replayed tick hreplayed, advance_relabel]
    exact InStep.send (by omega) h.bars rfl

/-- Where the clock does not run, ticks only mark the token as clean. -/
theorem handle_tick_idle (hidle : ∀ st ∈ track.state, st.watermarkSecond ≤ 0) (tick : ℤ) :
    ∃ dirty, track.handle cfg env tokenKey (.tick tick) = { track with dirty := dirty } := by
  simp only [TokenTrack.handle]
  split
  · refine ⟨false, ?_⟩
    cases hstate : track.state with
    | none => simp only [TokenTrack.takeTick, hstate]
    | some st =>
      have hst := hidle st hstate
      have hsame : st.advance tick = st := by
        unfold TokenState.advance
        rw [if_neg (fun h => absurd h.1 (not_lt.mpr hst))]
      have hready : st.flushReady cfg tokenKey = (st, []) := by
        unfold TokenState.flushReady
        simp only
        rw [if_pos (Or.inl hst)]
      rw [TokenTrack.takeTick_of_state cfg env tokenKey track tick hstate, hsame]
      simp only [TokenTrack.send, hready, ShardWorker.emitAll, List.append_nil, ← hstate]
  · exact ⟨track.dirty, rfl⟩

theorem InStep.redirty (h : track.InStep barSecond replayed)
    (hidle : ∀ st ∈ replayed.state, st.watermarkSecond ≤ 0) (dirty dirty' : Bool) :
    InStep barSecond { track with dirty := dirty } { replayed with dirty := dirty' } :=
  ⟨h.state, fun st hst hclock => absurd hclock (not_lt.mpr (hidle st hst)), h.bars⟩

theorem InStep.idle (h : track.InStep barSecond replayed)
    (hidle : ∀ st ∈ replayed.state, st.watermarkSecond ≤ 0) :
    ∀ st ∈ track.state, st.watermarkSecond ≤ 0 := by
  obtain ⟨side, drops, hstate⟩ := h.state
  intro st hst
  rw [hstate, Option.mem_def, Option.map_eq_some_iff] at hst
  obtain ⟨st', hst', rfl⟩ := hst
  exact hidle st' hst'

/-- A tick up to the second. -/
theorem InStep.handleTick (hbefore : replayed.Before barSecond)
    (h : track.InStep barSecond replayed) {tick : ℤ} (hle : tick ≤ barSecond) :
    (track.handle cfg env tokenKey (.tick tick)).InStep barSecond
      (replayed.handle cfg calmEnv tokenKey (.tick tick)) := by
  by_cases hidle : ∀ st ∈ replayed.state, st.watermarkSecond ≤ 0
  · obtain ⟨dirty, htrack⟩ :=
      @handle_tick_idle cfg env tokenKey track (h.idle hidle) tick
    obtain ⟨dirty', hreplayed⟩ := @handle_tick_idle cfg calmEnv tokenKey replayed hidle tick
    rw [htrack, hreplayed]
    exact h.redirty hidle dirty dirty'
  · simp only [not_forall, not_le] at hidle
    obtain ⟨st, hst, hclock⟩ := hidle
    have hdirty := h.dirty st hst hclock
    simp only [TokenTrack.handle, hdirty]
    split
    · exact h.takeTick hbefore hle
    · exact h

/-- A tick after the second makes its bar, or leaves the token clean and the bar unmade. -/
theorem InStep.tickAfter (hbefore : replayed.Before barSecond)
    (h : track.InStep barSecond replayed) {tick : ℤ} (hlater : barSecond < tick) :
    (track.handle cfg env tokenKey (.tick tick)).InStep barSecond replayed ∨
      (track.handle cfg env tokenKey (.tick tick)).Passed cfg tokenKey barSecond replayed := by
  by_cases hidle : ∀ st ∈ replayed.state, st.watermarkSecond ≤ 0
  · left
    obtain ⟨dirty, htrack⟩ := @handle_tick_idle cfg env tokenKey track (h.idle hidle) tick
    rw [htrack]
    exact h.redirty hidle dirty replayed.dirty
  · simp only [not_forall, not_le] at hidle
    obtain ⟨st, hst, hclock⟩ := hidle
    obtain ⟨hmark, hflushed⟩ := hbefore st hst
    obtain ⟨side, drops, hstate⟩ := h.state
    rw [Option.mem_def.mp hst, Option.map_some] at hstate
    simp only [TokenTrack.handle]
    split
    · right
      rw [TokenTrack.takeTick_of_state cfg env tokenKey track tick hstate, advance_relabel]
      obtain ⟨⟨side', drops', hsent⟩, new, hnew, hbars⟩ := send_alike cfg env tokenKey
        { track with dirty := false } ((st.advance tick).relabel side drops)
      obtain ⟨hflushed', hmark'⟩ := clock_advance st tick
      have hafter : (st.advance tick).watermarkSecond = tick := by omega
      refine ⟨⟨_, hsent, ?_, Or.inr rfl⟩, ?_⟩
      · have hready := (((st.advance tick).relabel side drops).clock_flushReady cfg tokenKey).1
        show barSecond < (((st.advance tick).relabel side drops).flushReady cfg
          tokenKey).1.watermarkSecond
        rw [hready]
        show barSecond < (st.advance tick).watermarkSecond
        omega
      · rw [hnew]
        intro bar hbar hsecond
        rcases List.mem_append.mp hbar with hold | hfresh
        · have hearly := h.bars bar hold
          omega
        · refine ⟨st, hst, ?_⟩
          rw [(hbars bar hfresh).2.2, hsecond, TokenState.barAt_relabel, TokenState.barAt_advance]
    · exact Or.inl h

/-! ### After the second -/

/-- What is sent from a state that has barred the second. -/
theorem Passed.send {st : TokenState}
    (hold : ∀ bar ∈ track.bars, bar.barSecond = barSecond →
      ∃ st ∈ replayed.state, bar.view = (st.barAt cfg tokenKey barSecond).view)
    (hmark : barSecond < st.watermarkSecond) (hflushed : barSecond ≤ st.lastFlushedSecond) :
    (track.send cfg env tokenKey st).Passed cfg tokenKey barSecond replayed := by
  obtain ⟨⟨side, drops, hsent⟩, new, hnew, hbars⟩ := send_alike cfg env tokenKey track st
  obtain ⟨hready, hready'⟩ := st.clock_flushReady cfg tokenKey
  refine ⟨⟨_, hsent, ?_, Or.inl ?_⟩, ?_⟩
  · show barSecond < (st.flushReady cfg tokenKey).1.watermarkSecond
    omega
  · show barSecond ≤ (st.flushReady cfg tokenKey).1.lastFlushedSecond
    omega
  · rw [hnew]
    intro bar hbar hsecond
    -- a bar of the second is an old one: the flush starts above it
    rcases List.mem_append.mp hbar with hmem | hfresh
    · exact hold bar hmem hsecond
    · have hlow := (hbars bar hfresh).1
      omega

/-- Once the clock has passed the second, its bar is made or will not be made. -/
theorem Passed.handle (h : track.Passed cfg tokenKey barSecond replayed) {message : ShardMessage}
    (hmessage : ∀ st ∈ track.state, InTime tokenKey barSecond st message) :
    (track.handle cfg env tokenKey message).Passed cfg tokenKey barSecond replayed := by
  obtain ⟨st, hstate, hmark, hmade⟩ := h.clock
  cases message with
  | event event =>
    simp only [TokenTrack.handle]
    split
    · rename_i hkey
      have htime := hmessage st hstate hkey
      -- an event up to the second would have come late, against `InTime`
      have hlater : ¬ event.barSecond ≤ barSecond := by
        intro hle
        rw [if_pos hle] at htime
        omega
      rw [if_neg hlater] at htime
      rw [TokenTrack.takeEvent, track.stateFor_some env tokenKey event hstate]
      have hclock := st.clock_handleEvent event
      exact Passed.send h.bars (by omega) (by omega)
    · exact h
  | tick tick =>
    simp only [TokenTrack.handle]
    split
    · rename_i hdirty
      have hflushed : barSecond ≤ st.lastFlushedSecond := by
        -- a clean token is not ticked, so the second has been barred
        rcases hmade with hmade | hclean
        · exact hmade
        · rw [hdirty] at hclean
          cases hclean
      have hclock := clock_advance st tick
      rw [TokenTrack.takeTick_of_state cfg env tokenKey track tick hstate]
      exact Passed.send h.bars (by omega) (by omega)
    · exact h

/-- The replay goes on with ticks up to the second. -/
theorem Passed.replayTick (h : track.Passed cfg tokenKey barSecond replayed)
    (hbefore : replayed.Before barSecond) {tick : ℤ} (hle : tick ≤ barSecond) :
    track.Passed cfg tokenKey barSecond (replayed.handle cfg calmEnv tokenKey (.tick tick)) := by
  simp only [TokenTrack.handle]
  split
  · obtain ⟨_, hbar⟩ := @Before.takeTick cfg calmEnv tokenKey barSecond replayed hbefore tick hle
    refine ⟨h.clock, ?_⟩
    intro bar hmem hsecond
    obtain ⟨st, hst, hview⟩ := h.bars bar hmem hsecond
    obtain ⟨st', hst', hsame⟩ := hbar st hst
    exact ⟨st', hst', hview.trans hsame.symm⟩
  · exact h

/-- An event of a later second: the token's first one, since it comes in time. -/
theorem InStep.eventAfter (hbefore : replayed.Before barSecond)
    (h : track.InStep barSecond replayed) {event : Event} (hkey : event.tokenKey = tokenKey)
    (hlater : barSecond < event.barSecond)
    (hmessage : ∀ st ∈ track.state, InTime tokenKey barSecond st (.event event)) :
    (track.takeEvent cfg env tokenKey event).Passed cfg tokenKey barSecond replayed := by
  obtain ⟨side, drops, hstate⟩ := h.state
  cases hreplayed : replayed.state with
  | none =>
    rw [hreplayed, Option.map_none] at hstate
    rw [TokenTrack.takeEvent, track.stateFor_none env tokenKey event hstate]
    set st := TokenState.new event.venue ((env.tokenSides tokenKey).getD .unknown) event.barSecond
      env.now
    have hmark : st.watermarkSecond = max event.barSecond 0 := rfl
    have hflushed : st.lastFlushedSecond = max event.barSecond 0 - 1 := rfl
    have hclock := st.clock_handleEvent event
    apply Passed.send ?_ (by omega) (by omega)
    intro bar hbar hsecond
    -- no bar of the second has been made in step
    have hearly := h.bars bar hbar
    omega
  | some st =>
    rw [hreplayed, Option.map_some] at hstate
    -- a later event while the second is still open contradicts `InTime`
    have htime := hmessage _ hstate hkey
    rw [if_neg (not_le.mpr hlater)] at htime
    have hflushed := (hbefore st hreplayed).2
    have hsame : (st.relabel side drops).lastFlushedSecond = st.lastFlushedSecond := rfl
    omega

/-! ### Runs -/

/-- One message: the replay takes it if it concerns the token and a second up to the given one. -/
theorem Follows.handle (h : track.Follows cfg tokenKey barSecond replayed) {message : ShardMessage}
    (hmessage : ∀ st ∈ track.state, InTime tokenKey barSecond st message) :
    (track.handle cfg env tokenKey message).Follows cfg tokenKey barSecond
      (if isUpTo tokenKey barSecond message then replayed.handle cfg calmEnv tokenKey message
        else replayed) := by
  cases message with
  | event event =>
    by_cases hkey : event.tokenKey = tokenKey
    · by_cases hle : event.barSecond ≤ barSecond
      · have hup : isUpTo tokenKey barSecond (.event event) = true := by simp [isUpTo, hkey, hle]
        rw [if_pos hup]
        simp only [TokenTrack.handle, if_pos hkey]
        -- the replay takes the event too
        rcases h.phase with hstep | hpassed
        · exact Follows.takeEvent h.before hstep hle
        · obtain ⟨st, hstate, hmark, _⟩ := hpassed.clock
          have htime := hmessage st hstate hkey
          rw [if_pos hle] at htime
          omega
      · have hup : ¬ isUpTo tokenKey barSecond (.event event) = true := by simp [isUpTo, hle]
        rw [if_neg hup]
        refine ⟨h.before, Or.inr ?_⟩
        -- the replay leaves the event out
        rcases h.phase with hstep | hpassed
        · simp only [TokenTrack.handle, if_pos hkey]
          exact hstep.eventAfter h.before hkey (not_le.mp hle) hmessage
        · exact hpassed.handle hmessage
    · have hup : ¬ isUpTo tokenKey barSecond (.event event) = true := by simp [isUpTo, hkey]
      rw [if_neg hup]
      simp only [TokenTrack.handle, if_neg hkey]
      exact h
  | tick tick =>
    -- ticks up to the second go to both, later ones to the run alone
    by_cases hle : tick ≤ barSecond
    · have hup : isUpTo tokenKey barSecond (.tick tick) = true := by simp [isUpTo, hle]
      rw [if_pos hup]
      refine ⟨?_, ?_⟩
      · simp only [TokenTrack.handle]
        split
        · exact (Before.takeTick h.before hle).1
        · exact h.before
      · rcases h.phase with hstep | hpassed
        · exact Or.inl (hstep.handleTick h.before hle)
        · exact Or.inr ((hpassed.handle hmessage).replayTick h.before hle)
    · have hup : ¬ isUpTo tokenKey barSecond (.tick tick) = true := by simp [isUpTo, hle]
      rw [if_neg hup]
      refine ⟨h.before, ?_⟩
      rcases h.phase with hstep | hpassed
      · exact hstep.tickAfter h.before (not_le.mp hle)
      · exact Or.inr (hpassed.handle hmessage)

end TokenTrack

theorem replay_append (cfg : ShardConfig) (tokenKey : String) (barSecond : ℤ)
    (es : List (ShardEnv × ShardMessage)) (e : ShardEnv × ShardMessage) :
    replay cfg tokenKey (messagesUpTo tokenKey barSecond (es ++ [e])) =
      if isUpTo tokenKey barSecond e.2 then
        (replay cfg tokenKey (messagesUpTo tokenKey barSecond es)).handle cfg calmEnv tokenKey e.2
      else replay cfg tokenKey (messagesUpTo tokenKey barSecond es) := by
  unfold messagesUpTo replay
  rw [List.map_append, List.filter_append, List.foldl_append]
  cases hup : isUpTo tokenKey barSecond e.2 with
  | true => simp [hup]
  | false => simp [hup]

/-- In a run whose messages come in time, the bar of the second is the one that the messages
up to that second determine. -/
theorem bar_eq_barAt {cfg : ShardConfig} {tokenKey : String} {barSecond : ℤ}
    {es : List (ShardEnv × ShardMessage)} {worker : ShardWorker}
    (hrun : (shardMachine cfg).run (ShardWorker.start cfg) es = some worker)
    (hmeets : (shardMachine cfg).RunMeets (StepInTime tokenKey barSecond)
      (ShardWorker.start cfg) es) :
    ∀ bar ∈ worker.barsOf tokenKey, bar.barSecond = barSecond →
      ∃ st ∈ (replay cfg tokenKey (messagesUpTo tokenKey barSecond es)).state,
        bar.view = (st.barAt cfg tokenKey barSecond).view := by
  have hfollows : (worker.config = cfg ∧ worker.dirtyTokens.Nodup) ∧
      (worker.track tokenKey).Follows cfg tokenKey barSecond
        (replay cfg tokenKey (messagesUpTo tokenKey barSecond ([] ++ es))) := by
    -- the invariant compares the worker with the replay of what it has taken so far
    refine @Lib.Machine.hist_of_runMeets _ _ (shardMachine cfg)
      (fun hist w => (w.config = cfg ∧ w.dirtyTokens.Nodup) ∧
        (w.track tokenKey).Follows cfg tokenKey barSecond
          (replay cfg tokenKey (messagesUpTo tokenKey barSecond hist)))
      _ ?_ [] es _ _ ?_ hmeets hrun
    · rintro hist w ⟨env, message⟩ w' ⟨⟨hcfg, hnodup⟩, hfollows⟩ htime hstep
      cases hstep
      obtain ⟨hcfg', hnodup'⟩ := w.handle_frame env message hnodup
      refine ⟨⟨hcfg'.trans hcfg, hnodup'⟩, ?_⟩
      rw [w.track_handle env message tokenKey hnodup, replay_append, hcfg]
      exact hfollows.handle htime
    · refine ⟨⟨rfl, List.nodup_nil⟩, ?_, Or.inl ⟨⟨.unknown, 0, rfl⟩, ?_, ?_⟩⟩
      · intro st hst
        cases hst
      · intro st hst
        cases hst
      · intro bar hbar
        cases hbar
  intro bar hbar hsecond
  -- in step, no bar of the second has been made yet
  rcases hfollows.2.phase with hstep | hpassed
  · have hearly := hstep.bars bar hbar
    omega
  · exact hpassed.bars bar hbar hsecond

/-- Two runs whose messages come in time, and are the same up to a second, make the same bar
of that second. -/
theorem noLookAhead_of_inTime {cfg : ShardConfig} {tokenKey : String} {barSecond : ℤ}
    {es es' : List (ShardEnv × ShardMessage)} {worker worker' : ShardWorker}
    (hrun : (shardMachine cfg).run (ShardWorker.start cfg) es = some worker)
    (hrun' : (shardMachine cfg).run (ShardWorker.start cfg) es' = some worker')
    (hmeets : (shardMachine cfg).RunMeets (StepInTime tokenKey barSecond)
      (ShardWorker.start cfg) es)
    (hmeets' : (shardMachine cfg).RunMeets (StepInTime tokenKey barSecond)
      (ShardWorker.start cfg) es')
    (hagree : messagesUpTo tokenKey barSecond es = messagesUpTo tokenKey barSecond es')
    {bar bar' : Bars1sToken} (hbar : bar ∈ worker.barsOf tokenKey)
    (hbar' : bar' ∈ worker'.barsOf tokenKey) (hsecond : bar.barSecond = barSecond)
    (hsecond' : bar'.barSecond = barSecond) : bar.view = bar'.view := by
  obtain ⟨st, hst, hview⟩ := bar_eq_barAt hrun hmeets bar hbar hsecond
  obtain ⟨st', hst', hview'⟩ := bar_eq_barAt hrun' hmeets' bar' hbar' hsecond'
  rw [hagree, Option.mem_def, Option.mem_def.mp hst'] at hst
  cases hst
  rw [hview, hview']

/-- A book at second 100, then ticks only. -/
def quietRun : List (ShardEnv × ShardMessage) :=
  [(calmEnv, .event (eventAt .polymarket .bookSnapshot smallBook 100200)), (calmEnv, .tick 102)]

/-- The same with a new bid at second 103, after second 100 is barred. -/
def laterBidRun : List (ShardEnv × ShardMessage) :=
  quietRun ++ [(calmEnv, .event (eventAt .polymarket .bookDelta higherBid 103500))]

/-- The same with the new bid at second 101, before second 100 is barred. -/
def earlyBidRun : List (ShardEnv × ShardMessage) :=
  [(calmEnv, .event (eventAt .polymarket .bookSnapshot smallBook 100200)),
    (calmEnv, .event (eventAt .polymarket .bookDelta higherBid 101500)), (calmEnv, .tick 102)]

/-- The worker at the end of a run. -/
def workerAfter (es : List (ShardEnv × ShardMessage)) : ShardWorker :=
  es.foldl (fun worker e => worker.handle e.1 e.2) (ShardWorker.start exampleConfig)

theorem quietRun_bars : (workerAfter quietRun).barsOf "token" ≠ [] := by decide +kernel

theorem earlyBidRun_bars : (workerAfter earlyBidRun).barsOf "token" ≠ [] := by decide +kernel

theorem laterBidRun_bars : (workerAfter laterBidRun).barsOf "token" ≠ [] := by decide +kernel

/-- A bid of second 103 leaves the bar of second 100 as it is. -/
theorem noLookAhead_laterBid :
    (((workerAfter quietRun).barsOf "token").head quietRun_bars).view =
      (((workerAfter laterBidRun).barsOf "token").head laterBidRun_bars).view :=
  @noLookAhead_of_inTime exampleConfig "token" 100 quietRun laterBidRun _ _ rfl rfl
    (by decide +kernel) (by decide +kernel) (by decide +kernel) _ _
    (List.head_mem quietRun_bars) (List.head_mem laterBidRun_bars) (by decide +kernel)
    (by decide +kernel)

/-- A bid of second 101 is in the bar of second 100. -/
theorem bar_sees_later_bid :
    ¬ ∀ (cfg : ShardConfig) (tokenKey : String) (barSecond : ℤ)
      (es es' : List (ShardEnv × ShardMessage)) (worker worker' : ShardWorker),
      (shardMachine cfg).run (ShardWorker.start cfg) es = some worker →
      (shardMachine cfg).run (ShardWorker.start cfg) es' = some worker' →
      messagesUpTo tokenKey barSecond es = messagesUpTo tokenKey barSecond es' →
      ∀ bar ∈ worker.barsOf tokenKey, ∀ bar' ∈ worker'.barsOf tokenKey,
        bar.barSecond = barSecond → bar'.barSecond = barSecond →
          bar.bestBidPxState = bar'.bestBidPxState := by
  intro hall
  have hsame := hall exampleConfig "token" 100 quietRun earlyBidRun (workerAfter quietRun)
    (workerAfter earlyBidRun) rfl rfl (by decide +kernel) _ (List.head_mem quietRun_bars) _
    (List.head_mem earlyBidRun_bars) (by decide +kernel) (by decide +kernel)
  revert hsame
  decide +kernel

end AlphaMonitor.Shard
