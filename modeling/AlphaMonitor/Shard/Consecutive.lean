import AlphaMonitor.Shard.Completeness

/-!
# The bars of a token follow each other

Whatever second a token starts with, its bars are those of consecutive seconds, and the last
of them is two seconds behind the watermark.

## Main results

- `barsFollow_of_reachable`: the bars of a token in any run
- `emitted_handle`: a message only adds bars
- `flushed_after_event`: an event sends what lies two seconds behind it
-/

namespace AlphaMonitor.Shard

open Lib (Windows consecutive mem_consecutive)

namespace TokenTrack

/-- The bars of consecutive seconds up to the last flushed one. -/
structure Follow (track : TokenTrack) (st : TokenState) : Prop where
  seconds : ∃ first ≤ st.lastFlushedSecond + 1, track.bars.map (·.barSecond) =
    consecutive first (st.lastFlushedSecond + 1 - first).toNat
  begun : track.bars ≠ [] →
    0 < st.watermarkSecond ∧ st.lastFlushedSecond + lateEventBufferSecs ≤ st.watermarkSecond

/-- What is known of the bars of a token at any time. -/
def BarsFollow (track : TokenTrack) : Prop :=
  match track.state with
  | none => track.bars = []
  | some st => track.Follow st

variable (cfg : ShardConfig) (env : ShardEnv) (tokenKey : String)
variable {track : TokenTrack} {st : TokenState}

/-- Without bars, any state will do. -/
theorem follow_of_nil (hbars : track.bars = []) (st : TokenState) : track.Follow st where
  seconds := by
    refine ⟨st.lastFlushedSecond + 1, le_refl _, ?_⟩
    have hzero : (st.lastFlushedSecond + 1 - (st.lastFlushedSecond + 1)).toNat = 0 := by omega
    rw [hbars, hzero]
    rfl
  begun hne := absurd hbars hne

/-- Sending adds the seconds that are due. -/
theorem Follow.send (h : track.Follow st) :
    (track.send cfg env tokenKey st).BarsFollow := by
  obtain ⟨sent, hstate, hsent⟩ := send_windows cfg env tokenKey track st
  unfold BarsFollow
  rw [hstate]
  obtain ⟨first, hfirst, hseconds⟩ := h.seconds
  rcases hsent with ⟨_, hwin, hbars⟩ | ⟨⟨hclock, hdue⟩, hwin, hbars⟩
  · simp only [TokenState.windows, Windows.mk.injEq] at hwin
    obtain ⟨hmark, hflushed, -⟩ := hwin
    refine ⟨⟨first, ?_, ?_⟩, ?_⟩
    · rw [hflushed]
      exact hfirst
    · rw [hbars, hflushed]
      exact hseconds
    · rw [hbars, hmark, hflushed]
      exact h.begun
  · simp only [TokenState.windows, Windows.close, Windows.mk.injEq] at hwin
    obtain ⟨hmark, hflushed, -⟩ := hwin
    have hnext : st.lastFlushedSecond + 1 =
        first + ((st.lastFlushedSecond + 1 - first).toNat : ℤ) := by omega
    refine ⟨⟨first, ?_, ?_⟩, ?_⟩
    · rw [hflushed]
      omega
    · -- the old seconds, then those from the last flushed one to the cutoff
      have hclosing : (st.windows.closing SecondAccumulator.eventCount
          (st.watermarkSecond - lateEventBufferSecs)).map Prod.fst =
            consecutive (st.lastFlushedSecond + 1)
              (st.watermarkSecond - lateEventBufferSecs - st.lastFlushedSecond).toNat := by
        simp [Windows.closing, Function.comp_def, TokenState.windows]
      have hlength : (sent.lastFlushedSecond + 1 - first).toNat =
          (st.lastFlushedSecond + 1 - first).toNat +
            (st.watermarkSecond - lateEventBufferSecs - st.lastFlushedSecond).toNat := by omega
      rw [← map_fst_barCount, hbars, List.map_append, map_fst_barCount, hclosing, hseconds,
        hlength, ← Lib.consecutive_append, ← hnext]
    · intro _
      rw [hmark, hflushed]
      exact ⟨hclock, by omega⟩

/-- An event moves the watermark on, or starts the clock. -/
theorem Follow.event (h : track.Follow st) (hidle : st.watermarkSecond ≤ 0 → track.bars = [])
    (event : Event) : track.Follow (st.handleEvent event).state := by
  rcases st.clock_handleEvent event with ⟨hclock, hmark, hflushed⟩ | ⟨hnone, hmark, hflushed⟩
  · refine ⟨?_, ?_⟩
    · rw [hflushed]
      exact h.seconds
    · intro hne
      have hbegun := h.begun hne
      rw [hmark, hflushed]
      exact ⟨lt_of_lt_of_le hclock (le_max_left _ _), hbegun.2.trans (le_max_left _ _)⟩
  · exact follow_of_nil (hidle hnone) _

theorem Follow.idle (h : track.Follow st) (hidle : st.watermarkSecond ≤ 0) : track.bars = [] := by
  by_contra hne
  have hclock := (h.begun hne).1
  omega

theorem Follow.advance (h : track.Follow st) (barSecond : ℤ) :
    track.Follow (st.advance barSecond) := by
  unfold TokenState.advance
  split
  · rename_i hlater
    refine ⟨h.seconds, fun hne => ?_⟩
    have hbegun := h.begun hne
    exact ⟨lt_trans hlater.1 hlater.2, hbegun.2.trans hlater.2.le⟩
  · exact h

theorem BarsFollow.handle (h : track.BarsFollow) (message : ShardMessage) :
    (track.handle cfg env tokenKey message).BarsFollow := by
  cases message with
  | event event =>
    simp only [TokenTrack.handle]
    split
    · unfold takeEvent
      have hfollow : track.Follow (track.stateFor env tokenKey event) := by
        cases hstate : track.state with
        | none =>
          unfold BarsFollow at h
          rw [hstate] at h
          exact follow_of_nil h _
        | some st =>
          unfold BarsFollow at h
          rw [hstate] at h
          rw [track.stateFor_some env tokenKey event hstate]
          exact h
      have hafter := hfollow.event hfollow.idle event
      exact Follow.send cfg env tokenKey ⟨hafter.seconds, hafter.begun⟩
    · exact h
  | tick barSecond =>
    simp only [TokenTrack.handle]
    split
    · cases hstate : track.state with
      | none =>
        unfold takeTick BarsFollow
        rw [hstate]
        unfold BarsFollow at h
        rw [hstate] at h
        exact h
      | some st =>
        unfold BarsFollow at h
        rw [hstate] at h
        rw [track.takeTick_of_state cfg env tokenKey barSecond hstate]
        have hafter := h.advance barSecond
        exact Follow.send cfg env tokenKey ⟨hafter.seconds, hafter.begun⟩
    · exact h

/-! ## What follows from it -/

theorem BarsFollow.increasing (h : track.BarsFollow) :
    (track.bars.map (·.barSecond)).Pairwise (· < ·) := by
  unfold BarsFollow at h
  cases hstate : track.state with
  | none =>
    rw [hstate] at h
    rw [h]
    exact List.Pairwise.nil
  | some st =>
    rw [hstate] at h
    obtain ⟨first, -, hseconds⟩ := h.seconds
    rw [hseconds]
    exact Lib.pairwise_consecutive _ _

/-- A second that is flushed has its bar, or the bars begin after it. -/
theorem Follow.bar_of_le (h : track.Follow st) {second : ℤ} (hle : second ≤ st.lastFlushedSecond) :
    (∃ bar ∈ track.bars, bar.barSecond = second) ∨ ∀ bar ∈ track.bars, second < bar.barSecond := by
  obtain ⟨first, hfirst, hseconds⟩ := h.seconds
  by_cases hbefore : second < first
  · right
    intro bar hbar
    have hmem : bar.barSecond ∈ track.bars.map (·.barSecond) := List.mem_map_of_mem hbar
    rw [hseconds, mem_consecutive] at hmem
    omega
  · left
    have hmem : second ∈ track.bars.map (·.barSecond) := by
      rw [hseconds, mem_consecutive]
      omega
    exact List.mem_map.mp hmem

end TokenTrack

/-! ## Whole runs -/

theorem barsFollow_of_reachable {cfg : ShardConfig} {worker : ShardWorker}
    (h : (shardMachine cfg).Reachable worker) (tokenKey : String) :
    (worker.track tokenKey).BarsFollow := by
  apply trackInv_of_reachable (P := fun _ track => track.BarsFollow) ?_ ?_ h
  · intro key
    exact rfl
  · intro env key track message hfollow
    exact hfollow.handle cfg env key message

namespace ShardWorker

variable (env : ShardEnv) (worker : ShardWorker)

theorem emitted_tickToken (barSecond : ℤ) (tokenKey : String) :
    ∃ bars, (worker.tickToken env barSecond tokenKey).emitted = worker.emitted ++ bars := by
  unfold tickToken
  split
  · exact ⟨_, rfl⟩
  · exact ⟨[], (List.append_nil _).symm⟩

/-- A message only adds bars. -/
theorem emitted_handle (message : ShardMessage) :
    ∃ bars, (worker.handle env message).emitted = worker.emitted ++ bars := by
  cases message with
  | event event => exact ⟨_, rfl⟩
  | tick barSecond =>
    have hfold : ∀ (keys : List String) (w : ShardWorker), ∃ bars,
        (keys.foldl (fun w key => tickToken env w barSecond key) w).emitted =
          w.emitted ++ bars := by
      intro keys
      induction keys with
      | nil => exact fun w => ⟨[], (List.append_nil _).symm⟩
      | cons key keys ih =>
        intro w
        obtain ⟨bars, hbars⟩ := w.emitted_tickToken env barSecond key
        obtain ⟨rest, hrest⟩ := ih (w.tickToken env barSecond key)
        refine ⟨bars ++ rest, ?_⟩
        rw [List.foldl_cons, hrest, hbars, List.append_assoc]
    exact hfold worker.dirtyTokens { worker with dirtyTokens := [] }

/-- After an event, everything that lies two seconds behind it has been flushed. -/
theorem flushed_after_event {cfg : ShardConfig} {worker : ShardWorker}
    (h : (shardMachine cfg).Reachable worker) (event : Event) {st : TokenState}
    (hstate : worker.state event.tokenKey = some st) (hclock : 0 < st.watermarkSecond) :
    ∃ st', (worker.handle env (.event event)).state event.tokenKey = some st' ∧
      event.barSecond - lateEventBufferSecs ≤ st'.lastFlushedSecond := by
  obtain ⟨-, hnodup⟩ := worker_of_reachable h
  have htrack := worker.track_handle env (.event event) event.tokenKey hnodup
  simp only [TokenTrack.handle, if_true] at htrack
  unfold TokenTrack.takeEvent at htrack
  rw [TokenTrack.stateFor_some _ _ _ event (show (worker.track event.tokenKey).state = some st
    from hstate)] at htrack
  obtain ⟨sent, hsent, hwindows⟩ := TokenTrack.send_windows worker.config env event.tokenKey
    { worker.track event.tokenKey with
      dirty := true
      handled := (worker.track event.tokenKey).handled ++
        [((st.handleEvent event).event, (st.handleEvent event).second)] }
    (st.handleEvent event).state
  refine ⟨sent, ?_, ?_⟩
  · rw [← hsent]
    exact congrArg TokenTrack.state htrack
  · have hmark : event.barSecond ≤ (st.handleEvent event).state.watermarkSecond ∧
        0 < (st.handleEvent event).state.watermarkSecond := by
      rcases st.clock_handleEvent event with ⟨_, hmark, -⟩ | ⟨hidle, -⟩
      · rw [hmark]
        exact ⟨le_max_right _ _, lt_of_lt_of_le hclock (le_max_left _ _)⟩
      · omega
    rcases hwindows with ⟨hnot, hwin, -⟩ | ⟨-, hwin, -⟩
    · simp only [TokenState.windows, Windows.mk.injEq] at hwin
      rw [hwin.2.1]
      omega
    · simp only [TokenState.windows, Windows.close, Windows.mk.injEq] at hwin
      rw [hwin.2.1]
      omega

end ShardWorker

end AlphaMonitor.Shard
