import AlphaMonitor.Lib.LateClock
import AlphaMonitor.Shard.Completeness

/-!
# The clock of a token

Watermark and last flushed second of a token are a clock that sees the seconds of its events,
and of the ticks that find it dirty.

## Main results

- `TokenTrack.Runs.takeEvent`, `TokenTrack.Runs.takeTick`: what a message does to the clock
- `ShardWorker.handled_handleEvent`: how an event is handed on
-/

namespace AlphaMonitor.Shard

open Lib (LateClock Windows)

namespace TokenTrack

/-- The clock of the token runs, and this is what it shows. -/
def Runs (track : TokenTrack) (clock : LateClock) : Prop :=
  ∃ st, track.state = some st ∧ 0 < st.watermarkSecond ∧
    clock = ⟨st.watermarkSecond, st.lastFlushedSecond⟩

variable (cfg : ShardConfig) (env : ShardEnv) (tokenKey : String)
variable {track : TokenTrack} {clock : LateClock}

/-- Sending what is due closes it. -/
theorem runs_send (track : TokenTrack) {st : TokenState} (hclock : 0 < st.watermarkSecond) :
    (track.send cfg env tokenKey st).Runs ⟨st.watermarkSecond,
      max st.lastFlushedSecond (st.watermarkSecond - lateEventBufferSecs)⟩ := by
  obtain ⟨sent, hstate, hsent⟩ := send_windows cfg env tokenKey track st
  refine ⟨sent, hstate, ?_⟩
  rcases hsent with ⟨hnot, hwin, -⟩ | ⟨⟨-, hdue⟩, hwin, -⟩
  · simp only [TokenState.windows, Windows.mk.injEq] at hwin
    obtain ⟨hmark, hflushed, -⟩ := hwin
    rw [hmark, hflushed, max_eq_left (hnot.resolve_left (not_le.mpr hclock))]
    exact ⟨hclock, rfl⟩
  · simp only [TokenState.windows, Windows.close, Windows.mk.injEq] at hwin
    obtain ⟨hmark, hflushed, -⟩ := hwin
    rw [hmark, hflushed, max_eq_right hdue.le]
    exact ⟨hclock, rfl⟩

/-- A clock that runs sees the second of an event. -/
theorem Runs.takeEvent (h : track.Runs clock) (event : Event) :
    (track.takeEvent cfg env tokenKey event).Runs
      (clock.see lateEventBufferSecs event.barSecond) := by
  obtain ⟨st, hstate, hclock, rfl⟩ := h
  unfold TokenTrack.takeEvent
  rw [track.stateFor_some env tokenKey event hstate]
  rcases st.clock_handleEvent event with ⟨-, hmark, hflushed⟩ | ⟨hidle, -, -⟩
  · have hafter : 0 < (st.handleEvent event).state.watermarkSecond := by
      rw [hmark]
      exact lt_of_lt_of_le hclock (le_max_left _ _)
    have hsent := runs_send cfg env tokenKey { track with
      dirty := true
      handled := track.handled ++
        [((st.handleEvent event).event, (st.handleEvent event).second)] } hafter
    rw [hmark, hflushed] at hsent
    exact hsent
  · omega

/-- A clock that does not run starts with the event. -/
theorem runs_takeEvent_first (hidle : ∀ st ∈ track.state, st.watermarkSecond ≤ 0) {event : Event}
    (hsecond : 0 < event.barSecond) :
    (track.takeEvent cfg env tokenKey event).Runs ⟨event.barSecond, event.barSecond - 1⟩ := by
  unfold TokenTrack.takeEvent
  have hstart : ((track.stateFor env tokenKey event).handleEvent event).state.watermarkSecond =
        event.barSecond ∧
      ((track.stateFor env tokenKey event).handleEvent event).state.lastFlushedSecond =
        event.barSecond - 1 := by
    cases hstate : track.state with
    | none =>
      -- a new state has the second of the event already
      rw [track.stateFor_none env tokenKey event hstate]
      have hnew : max event.barSecond 0 = event.barSecond := max_eq_left hsecond.le
      rcases (TokenState.new event.venue ((env.tokenSides tokenKey).getD .unknown) event.barSecond
        env.now).clock_handleEvent event with ⟨-, hmark, hflushed⟩ | ⟨-, hmark, hflushed⟩
      · refine ⟨?_, ?_⟩
        · rw [hmark]
          show max (max event.barSecond 0) event.barSecond = _
          rw [hnew, max_self]
        · rw [hflushed]
          show max event.barSecond 0 - 1 = _
          rw [hnew]
      · exact ⟨hmark, hflushed⟩
    | some st =>
      rw [track.stateFor_some env tokenKey event hstate]
      have hle := hidle st hstate
      rcases st.clock_handleEvent event with ⟨hclock, -, -⟩ | ⟨-, hmark, hflushed⟩
      · omega
      · exact ⟨hmark, hflushed⟩
  obtain ⟨hmark, hflushed⟩ := hstart
  generalize (track.stateFor env tokenKey event).handleEvent event = result at hmark hflushed
  have hsent := runs_send cfg env tokenKey
    { track with dirty := true, handled := track.handled ++ [(result.event, result.second)] }
    (hmark ▸ hsecond)
  have hbuffer : lateEventBufferSecs = 2 := rfl
  rw [hmark, hflushed, max_eq_left (by omega)] at hsent
  exact hsent

/-- A clock that runs sees the second of a tick, if the token is dirty. -/
theorem Runs.takeTick (h : track.Runs clock) (barSecond : ℤ) :
    (track.takeTick cfg env tokenKey barSecond).Runs (clock.see lateEventBufferSecs barSecond) := by
  obtain ⟨st, hstate, hclock, rfl⟩ := h
  rw [track.takeTick_of_state cfg env tokenKey barSecond hstate]
  have hwindows := st.advance_windows barSecond hclock
  simp only [TokenState.windows, Windows.see, Windows.mk.injEq] at hwindows
  obtain ⟨hmark, hflushed, -⟩ := hwindows
  have hafter : 0 < (st.advance barSecond).watermarkSecond := by
    rw [hmark]
    exact lt_of_lt_of_le hclock (le_max_left _ _)
  have hsent := runs_send cfg env tokenKey { track with dirty := false } hafter
  rw [hmark, hflushed] at hsent
  exact hsent

end TokenTrack

/-! ## How an event is handed on -/

namespace ShardWorker

variable (env : ShardEnv) (worker : ShardWorker)

/-- An event that is handled is counted in its second, unless that is closed. -/
theorem handled_handleEvent (event : Event) : ∃ entry : Event × Option ℤ,
    (worker.handleEvent env event).handled = worker.handled ++ [entry] ∧
      (entry.1.flags.outOfOrder = true ↔ event.flags.outOfOrder = true ∨ entry.2 = none) ∧
      ∀ clock, (worker.track event.tokenKey).Runs clock →
        entry.2 = if event.barSecond ≤ clock.closed then none else some event.barSecond := by
  refine ⟨_, rfl, ?_, ?_⟩
  · rw [TokenState.handleEvent_eq]
    simp only [TokenState.classify]
    split
    · rename_i hnone
      simp [hnone]
    · rename_i hsome
      simp [hsome]
  · rintro clock ⟨st, hstate, hclock, rfl⟩
    have hst : worker.state event.tokenKey = some st := hstate
    rw [hst, Option.getD_some]
    rcases st.handleEvent_windows event hclock with ⟨hlate, hnone, -⟩ | ⟨hopen, hsome, -⟩
    · rw [hnone, if_pos hlate]
    · rw [hsome, if_neg (not_le.mpr hopen)]

/-! ## Several events of one token -/

/-- Events are handled one after the other. -/
def handleEvents (events : List Event) : ShardWorker :=
  events.foldl (fun worker event => worker.handleEvent env event) worker

theorem handled_handleEvents (events : List Event) :
    ∃ entries, (worker.handleEvents env events).handled = worker.handled ++ entries := by
  induction events generalizing worker with
  | nil => exact ⟨[], (List.append_nil _).symm⟩
  | cons event rest ih =>
    obtain ⟨entry, hentry, -⟩ := worker.handled_handleEvent env event
    obtain ⟨entries, hentries⟩ := ih (worker.handleEvent env event)
    refine ⟨entry :: entries, ?_⟩
    show ((worker.handleEvent env event).handleEvents env rest).handled = _
    rw [hentries, hentry, List.append_assoc]
    rfl

theorem dirtyTokens_handleEvents (events : List Event) (hnodup : worker.dirtyTokens.Nodup) :
    (worker.handleEvents env events).dirtyTokens.Nodup := by
  induction events generalizing worker with
  | nil => exact hnodup
  | cons event rest ih =>
    exact ih (worker.handleEvent env event) (worker.handle_frame env (.event event) hnodup).2

variable {worker} {tokenKey : String} {start clock : LateClock} {bound : ℤ}

/-- An event of the token itself. -/
theorem runs_handleEvent (h : (worker.track tokenKey).Runs clock) {event : Event}
    (hkey : event.tokenKey = tokenKey) :
    ((worker.handleEvent env event).track tokenKey).Runs
      (clock.see lateEventBufferSecs event.barSecond) := by
  rw [worker.track_handleEvent env event tokenKey]
  simp only [TokenTrack.handle, hkey, if_true]
  exact h.takeEvent worker.config env tokenKey event

/-- Events up to the bound. -/
theorem runs_handleEvents {events : List Event} (h : (worker.track tokenKey).Runs clock)
    (hsince : start.Since lateEventBufferSecs bound clock)
    (hstart : start.Settled lateEventBufferSecs)
    (hevents : ∀ event ∈ events, event.tokenKey = tokenKey → event.barSecond ≤ bound) :
    ∃ clock', ((worker.handleEvents env events).track tokenKey).Runs clock' ∧
      start.Since lateEventBufferSecs bound clock' := by
  induction events generalizing worker clock with
  | nil => exact ⟨clock, h, hsince⟩
  | cons event rest ih =>
    obtain ⟨hfirst, hrest⟩ := List.forall_mem_cons.mp hevents
    show ∃ clock', (((worker.handleEvent env event).handleEvents env rest).track tokenKey).Runs
      clock' ∧ _
    by_cases hkey : event.tokenKey = tokenKey
    · exact ih (runs_handleEvent env h hkey) (hsince.see hstart (hfirst hkey)) hrest
    · have hsame : (worker.handleEvent env event).track tokenKey = worker.track tokenKey := by
        rw [worker.track_handleEvent env event tokenKey]
        simp only [TokenTrack.handle, hkey, if_false]
      exact ih (hsame ▸ h) hsince hrest

/-- After some events the clock runs, and nothing that lies far behind it is open. -/
theorem settled_handleEvents {events : List Event} (hne : events ≠ [])
    (hevents : ∀ event ∈ events, event.tokenKey = tokenKey ∧ 0 < event.barSecond) :
    ∃ clock, ((worker.handleEvents env events).track tokenKey).Runs clock ∧
      clock.Settled lateEventBufferSecs := by
  -- from the second event on, the clock runs already
  have hrunning : ∀ (events : List Event) (worker : ShardWorker) (clock : LateClock),
      (worker.track tokenKey).Runs clock → clock.Settled lateEventBufferSecs →
      (∀ event ∈ events, event.tokenKey = tokenKey ∧ 0 < event.barSecond) →
      ∃ clock', ((worker.handleEvents env events).track tokenKey).Runs clock' ∧
        clock'.Settled lateEventBufferSecs := by
    intro events
    induction events with
    | nil => exact fun worker clock h hsettled _ => ⟨clock, h, hsettled⟩
    | cons event rest ih =>
      intro worker clock h _ hevents
      obtain ⟨hfirst, hrest⟩ := List.forall_mem_cons.mp hevents
      exact ih (worker.handleEvent env event) _ (runs_handleEvent env h hfirst.1)
        (LateClock.settled_see _ _ _) hrest
  cases events with
  | nil => exact absurd rfl hne
  | cons event rest =>
    obtain ⟨hfirst, hrest⟩ := List.forall_mem_cons.mp hevents
    by_cases hruns : ∃ clock, (worker.track tokenKey).Runs clock
    · obtain ⟨clock, h⟩ := hruns
      exact hrunning rest (worker.handleEvent env event) _ (runs_handleEvent env h hfirst.1)
        (LateClock.settled_see _ _ _) hrest
    · have hidle : ∀ st ∈ (worker.track tokenKey).state, st.watermarkSecond ≤ 0 := by
        intro st hst
        by_contra hclock
        exact hruns ⟨_, st, hst, not_le.mp hclock, rfl⟩
      have hbegun : ((worker.handleEvent env event).track tokenKey).Runs
          ⟨event.barSecond, event.barSecond - 1⟩ := by
        rw [worker.track_handleEvent env event tokenKey]
        simp only [TokenTrack.handle, hfirst.1, if_true]
        exact TokenTrack.runs_takeEvent_first worker.config env tokenKey hidle hfirst.2
      refine hrunning rest (worker.handleEvent env event) _ hbegun ?_ hrest
      have hbuffer : lateEventBufferSecs = 2 := rfl
      show event.barSecond - lateEventBufferSecs ≤ event.barSecond - 1
      omega

/-- Where an event is handed on as in order, it came in order. -/
theorem inOrder_of_kept {event : Event} {rest : List Event}
    (hkept : ∀ entry ∈ (worker.handleEvents env (event :: rest)).handled.drop worker.handled.length,
      entry.1.flags.outOfOrder = false) : event.flags.outOfOrder = false := by
  obtain ⟨entry, hentry, hflag, -⟩ := worker.handled_handleEvent env event
  obtain ⟨entries, hentries⟩ := handled_handleEvents env (worker.handleEvent env event) rest
  have hmem : entry ∈
      (worker.handleEvents env (event :: rest)).handled.drop worker.handled.length := by
    show entry ∈ ((worker.handleEvent env event).handleEvents env rest).handled.drop _
    rw [hentries, hentry, List.append_assoc, List.drop_left]
    exact List.mem_cons_self
  rw [← Bool.not_eq_true]
  intro hlate
  have hfalse := hkept entry hmem
  rw [hflag.mpr (Or.inl hlate)] at hfalse
  exact absurd hfalse (by decide)

/-- Events of one second are all counted there just in case it is not closed yet. -/
theorem handleEvents_kept_iff {events : List Event} {barSecond second : ℤ}
    (h : (worker.track tokenKey).Runs clock) (hsettled : clock.Settled lateEventBufferSecs)
    (hevents : ∀ event ∈ events, event.tokenKey = tokenKey ∧ event.barSecond = barSecond) :
    (∀ entry ∈ (worker.handleEvents env events).handled.drop worker.handled.length,
        entry.1.flags.outOfOrder = false ∧ entry.2 = some second) ↔
      ∀ event ∈ events,
        event.flags.outOfOrder = false ∧ clock.closed < barSecond ∧ barSecond = second := by
  induction events generalizing worker clock with
  | nil =>
    show (∀ entry ∈ worker.handled.drop worker.handled.length, _) ↔ _
    simp
  | cons event rest ih =>
    obtain ⟨⟨hkey, hsecond⟩, hrest⟩ := List.forall_mem_cons.mp hevents
    obtain ⟨entry, hentry, hflag, hcounted⟩ := worker.handled_handleEvent env event
    rw [hkey] at hcounted
    have hthis := hcounted clock h
    obtain ⟨entries, hentries⟩ := handled_handleEvents env (worker.handleEvent env event) rest
    have htail := ih (runs_handleEvent env h hkey) (LateClock.settled_see _ _ _) hrest
    -- what the first event leaves in the record, and what the others do
    have hdrop : (worker.handleEvents env (event :: rest)).handled.drop worker.handled.length =
        entry :: ((worker.handleEvent env event).handleEvents env rest).handled.drop
          (worker.handleEvent env event).handled.length := by
      show ((worker.handleEvent env event).handleEvents env rest).handled.drop _ = _
      rw [hentries, List.drop_left, hentry, List.append_assoc, List.drop_left]
      rfl
    rw [hdrop, List.forall_mem_cons, List.forall_mem_cons, htail]
    rw [hsecond] at hthis ⊢
    have hfirst : entry.1.flags.outOfOrder = false ∧ entry.2 = some second ↔
        event.flags.outOfOrder = false ∧ clock.closed < barSecond ∧ barSecond = second := by
      rw [hthis]
      rw [hthis] at hflag
      by_cases hlate : barSecond ≤ clock.closed
      · simp [hlate]
      · simp only [hlate, if_false, reduceCtorEq, or_false] at hflag
        simp [hlate, not_le.mp hlate, ← Bool.not_eq_true, hflag]
    rw [hfirst]
    refine and_congr_right fun hkept => ?_
    have hopen : (clock.see lateEventBufferSecs barSecond).closed < barSecond :=
      LateClock.closed_see_lt hsettled (by decide) hkept.2.1
    simp only [hopen, hkept.2.1]

end ShardWorker

end AlphaMonitor.Shard
