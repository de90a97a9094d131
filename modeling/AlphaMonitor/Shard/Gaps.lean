import AlphaMonitor.Shard.Completeness

/-!
# Gaps and staleness

A bar is flushed two seconds late, and its staleness is taken from the last event
at that time, which may belong to a later second.  It is also taken to the start
of the bar's second, not to its end.

## Main results

- `gapSound_iff`: when the gap flag and the staleness of a bar are those of the
  events received before the end of its second
-/

namespace AlphaMonitor.Shard

/-! ## What a bar says about silence -/

/-- A gapped bar has no prices. -/
def Bars1sToken.PricesCleared (bar : Bars1sToken) : Prop :=
  bar.bestBidPx = none ∧ bar.bestAskPx = none ∧ bar.midPx = none ∧
    bar.bestBidPxState = none ∧ bar.bestAskPxState = none ∧ bar.midPxState = none ∧
    bar.lastPrice = none ∧ bar.microPx = none

/-- The last receipt before a time. -/
def lastBefore (received : List ℤ) (stop : ℤ) : Option ℤ :=
  (received.filter fun ts => decide (ts < stop)).max?

/-- What a bar says of its gap agrees with the events received before its second ended. -/
def GapSound (cfg : ShardConfig) (received : List ℤ) (bar : Bars1sToken) : Prop :=
  ∀ last ∈ lastBefore received ((bar.barSecond + 1) * 1000),
    (cfg.hardClearMs < (bar.barSecond + 1) * 1000 - last →
      bar.barGapFlag = 1 ∧ bar.PricesCleared) ∧
    bar.stalenessMs = some (max (bar.barSecond * 1000 - last) 0)

/-- No event of a later second hides the last one before the end of the bar's second, and
the silence did not become too long during that second itself. -/
def NothingHidden (cfg : ShardConfig) (received : List ℤ) (barSecond : ℤ) : Prop :=
  ∀ last ∈ lastBefore received ((barSecond + 1) * 1000), ∀ newest ∈ received.getLast?,
    (newest = last ∨ barSecond * 1000 ≤ newest ∧ barSecond * 1000 ≤ last) ∧
    ((barSecond + 1) * 1000 - last ≤ cfg.hardClearMs ∨
      cfg.hardClearMs < max (barSecond * 1000 - last) 0)

/-- What a flush says is taken from the last event handled. -/
structure TakenFrom (cfg : ShardConfig) (newest : ℤ) (bar : Bars1sToken) : Prop where
  staleness : bar.stalenessMs = some (max (bar.barSecond * 1000 - newest) 0)
  gap : bar.barGapFlag = if cfg.hardClearMs < max (bar.barSecond * 1000 - newest) 0 then 1 else 0
  cleared : cfg.hardClearMs < max (bar.barSecond * 1000 - newest) 0 → bar.PricesCleared

theorem TakenFrom.sound_iff {cfg : ShardConfig} {newest : ℤ} {bar : Bars1sToken}
    {received : List ℤ} (h : TakenFrom cfg newest bar) (hnewest : received.getLast? = some newest) :
    GapSound cfg received bar ↔ NothingHidden cfg received bar.barSecond := by
  have hflag : bar.barGapFlag = 1 ↔ cfg.hardClearMs < max (bar.barSecond * 1000 - newest) 0 := by
    rw [h.gap]
    split <;> simp_all
  unfold GapSound NothingHidden
  rw [hnewest]
  simp only [Option.mem_def, Option.some.injEq, forall_eq', h.staleness, hflag]
  apply forall_congr'
  intro last
  apply imp_congr_right
  intro _
  constructor
  · rintro ⟨hgap, hstale⟩
    refine ⟨by omega, ?_⟩
    by_cases hshort : (bar.barSecond + 1) * 1000 - last ≤ cfg.hardClearMs
    · exact Or.inl hshort
    · right
      have hflagged := (hgap (not_le.mp hshort)).1
      omega
  · rintro ⟨hnewest, hlong⟩
    have hstale : max (bar.barSecond * 1000 - newest) 0 = max (bar.barSecond * 1000 - last) 0 := by
      omega
    refine ⟨?_, hstale⟩
    intro hgap
    have hflagged : cfg.hardClearMs < max (bar.barSecond * 1000 - newest) 0 := by omega
    exact ⟨hflagged, h.cleared hflagged⟩

namespace TokenState

variable (cfg : ShardConfig) (tokenKey : String)

theorem flush_takenFrom (st : TokenState) (barSecond : ℤ) (acc : SecondAccumulator) :
    TakenFrom cfg st.lastEventLocalTsMs (st.flush cfg tokenKey barSecond acc).2 := by
  refine ⟨rfl, ?_, ?_⟩
  · simp only [flush, gapFlag, stalenessMs, gt_iff_lt, decide_eq_true_eq]
  · intro hgap
    have hflag : st.gapFlag cfg barSecond = true := decide_eq_true hgap
    simp [Bars1sToken.PricesCleared, flush, hflag, unlessGap]

theorem flushLoop_takenFrom (n : ℕ) (current : ℤ) (st : TokenState) :
    ∀ bar ∈ (flushLoop cfg tokenKey n current st).2, TakenFrom cfg st.lastEventLocalTsMs bar := by
  induction n generalizing current st with
  | zero =>
    intro bar hbar
    cases hbar
  | succ n ih =>
    intro bar hbar
    rcases List.mem_cons.mp hbar with rfl | hrest
    · exact flush_takenFrom cfg tokenKey
        { st with accumulators := Function.update st.accumulators current none } current _
    · set st₁ := (flush { st with accumulators := Function.update st.accumulators current none }
        cfg tokenKey current ((st.accumulators current).getD SecondAccumulator.default)).1
      have hlast : st₁.lastEventLocalTsMs = st.lastEventLocalTsMs := rfl
      rw [← hlast]
      exact ih (current + 1) st₁ bar hrest

theorem flushReady_takenFrom (st : TokenState) :
    (st.flushReady cfg tokenKey).1.lastEventLocalTsMs = st.lastEventLocalTsMs ∧
      ∀ bar ∈ (st.flushReady cfg tokenKey).2, TakenFrom cfg st.lastEventLocalTsMs bar := by
  unfold flushReady
  simp only
  split
  · exact ⟨rfl, fun bar hbar => by cases hbar⟩
  · exact ⟨(flushLoop_spec cfg tokenKey _ _ st).2.1, flushLoop_takenFrom cfg tokenKey _ _ st⟩

end TokenState

/-! ## A token's last event -/

namespace TokenTrack

variable (cfg : ShardConfig) (env : ShardEnv) (tokenKey : String) (track : TokenTrack)

/-- When the events of the token were received. -/
def received : List ℤ := track.handled.map (·.1.localTsMs)

/-- The state remembers when the last event was received. -/
def LastSeen : Prop := ∀ st ∈ track.state, track.received.getLast? = some st.lastEventLocalTsMs

theorem send_takenFrom (st : TokenState) :
    (∃ sent, (track.send cfg env tokenKey st).state = some sent ∧
        sent.lastEventLocalTsMs = st.lastEventLocalTsMs) ∧
      ∃ new, (track.send cfg env tokenKey st).bars = track.bars ++ new ∧
        ∀ bar ∈ new, TakenFrom cfg st.lastEventLocalTsMs bar := by
  obtain ⟨hlast, hready⟩ := st.flushReady_takenFrom cfg tokenKey
  obtain ⟨hsame, hbars⟩ := ShardWorker.emitAll_spec env (st.flushReady cfg tokenKey).1
    (st.flushReady cfg tokenKey).2
  refine ⟨⟨_, rfl, ?_⟩, _, rfl, ?_⟩
  · unfold ShardWorker.SameToken at hsame
    rw [hsame]
    exact hlast
  · intro bar hbar
    obtain ⟨bar', hbar', hfields⟩ := ShardWorker.exists_flushed hbars hbar
    have htaken := hready bar' hbar'
    rw [hfields.fields]
    exact ⟨htaken.staleness, htaken.gap, htaken.cleared⟩

/-- The bars that a message adds, and what they are taken from. -/
theorem LastSeen.handle {track : TokenTrack} (h : track.LastSeen) (message : ShardMessage) :
    (track.handle cfg env tokenKey message).LastSeen ∧
      ∃ new, (track.handle cfg env tokenKey message).bars = track.bars ++ new ∧
        ∀ bar ∈ new, ∃ newest,
          (track.handle cfg env tokenKey message).received.getLast? = some newest ∧
            TakenFrom cfg newest bar := by
  have hnothing : track.LastSeen ∧ ∃ new, track.bars = track.bars ++ new ∧
      ∀ bar ∈ new, ∃ newest, track.received.getLast? = some newest ∧ TakenFrom cfg newest bar :=
    ⟨h, [], (List.append_nil _).symm, fun bar hbar => by cases hbar⟩
  cases message with
  | event event =>
    simp only [TokenTrack.handle]
    split
    · set st := track.stateFor env tokenKey event with hst
      have hlast := st.handleEvent_lastEvent event
      have hlocal : (st.handleEvent event).event.localTsMs = event.localTsMs := by
        rw [(st.handleEvent_event event).1]
      obtain ⟨⟨sent, hsent, hsame⟩, new, hbars, hnew⟩ := send_takenFrom cfg env tokenKey
        { track with
          dirty := true
          handled := track.handled ++
            [((st.handleEvent event).event, (st.handleEvent event).second)] }
        (st.handleEvent event).state
      have hreceived : (track.takeEvent cfg env tokenKey event).received.getLast? =
          some event.localTsMs := by
        unfold received takeEvent
        simp only [send, ← hst, List.map_append, List.map_cons, List.map_nil, hlocal,
          List.getLast?_append, List.getLast?_singleton, Option.some_or]
      refine ⟨?_, new, hbars, ?_⟩
      · intro st' hst'
        have hstate : (track.takeEvent cfg env tokenKey event).state = some sent := hsent
        rw [hstate] at hst'
        cases hst'
        rw [hreceived, hsame, hlast]
      · intro bar hbar
        refine ⟨event.localTsMs, hreceived, ?_⟩
        rw [← hlast]
        exact hnew bar hbar
    · exact hnothing
  | tick barSecond =>
    simp only [TokenTrack.handle]
    split
    · cases hstate : track.state with
      | none =>
        have hclean : track.takeTick cfg env tokenKey barSecond = { track with dirty := false } := by
          simp only [takeTick, hstate]
        rw [hclean]
        exact hnothing
      | some st =>
        have hlast : (st.advance barSecond).lastEventLocalTsMs = st.lastEventLocalTsMs := by
          unfold TokenState.advance
          split <;> rfl
        rw [takeTick_of_state cfg env tokenKey track barSecond hstate]
        obtain ⟨⟨sent, hsent, hsame⟩, new, hbars, hnew⟩ := send_takenFrom cfg env tokenKey
          { track with dirty := false } (st.advance barSecond)
        have hseen := h st hstate
        refine ⟨?_, new, hbars, ?_⟩
        · intro st' hst'
          rw [hsent] at hst'
          cases hst'
          rw [hsame, hlast]
          exact hseen
        · intro bar hbar
          refine ⟨st.lastEventLocalTsMs, hseen, ?_⟩
          rw [← hlast]
          exact hnew bar hbar
    · exact hnothing

end TokenTrack

theorem lastSeen_of_reachable {cfg : ShardConfig} {worker : ShardWorker}
    (h : (shardMachine cfg).Reachable worker) (tokenKey : String) :
    (worker.track tokenKey).LastSeen := by
  apply trackInv_of_reachable (P := fun _ track => track.LastSeen) ?_ ?_ h
  · intro key st hst
    cases hst
  · intro env key track message hseen
    exact (hseen.handle cfg env key message).1

/-! ## The bars that a message makes -/

/-- The bars of a token that a message adds. -/
def ShardWorker.newBars (env : ShardEnv) (worker : ShardWorker) (message : ShardMessage)
    (tokenKey : String) : List Bars1sToken :=
  ((worker.handle env message).barsOf tokenKey).drop (worker.barsOf tokenKey).length

/-- When the gap flag and the staleness of a bar are sound. -/
theorem gapSound_iff {cfg : ShardConfig} {worker : ShardWorker}
    (h : (shardMachine cfg).Reachable worker) {env : ShardEnv} {message : ShardMessage}
    {tokenKey : String} {bar : Bars1sToken} (hbar : bar ∈ worker.newBars env message tokenKey) :
    GapSound cfg ((worker.handle env message).track tokenKey).received bar ↔
      NothingHidden cfg ((worker.handle env message).track tokenKey).received bar.barSecond := by
  obtain ⟨hcfg, hnodup⟩ := worker_of_reachable h
  have htrack := worker.track_handle env message tokenKey hnodup
  obtain ⟨_, new, hbars, hnew⟩ :=
    (lastSeen_of_reachable h tokenKey).handle worker.config env tokenKey message
  rw [← htrack] at hbars hnew
  have hsplit : (worker.handle env message).barsOf tokenKey = worker.barsOf tokenKey ++ new := hbars
  unfold ShardWorker.newBars at hbar
  rw [hsplit, List.drop_left] at hbar
  obtain ⟨newest, hnewest, htaken⟩ := hnew bar hbar
  rw [hcfg] at htaken
  exact htaken.sound_iff hnewest

/-- A worker that had one event, at 100.2 seconds. -/
def workerAt100 : ShardWorker :=
  (ShardWorker.start exampleConfig).handle calmEnv
    (.event (eventAt .polymarket .health EventPayload.empty 100200))

theorem reachable_workerAt100 : (shardMachine exampleConfig).Reachable workerAt100 :=
  ⟨ShardWorker.start exampleConfig,
    [(calmEnv, .event (eventAt .polymarket .health EventPayload.empty 100200))], rfl, rfl⟩

/-- The next event after two minutes of silence. -/
def eventAt222 : ShardMessage := .event (eventAt .polymarket .health EventPayload.empty 222200)

theorem newBars_at222 : workerAt100.newBars calmEnv eventAt222 "token" ≠ [] := by decide +kernel

/-- An event two seconds after the first. -/
def eventAt102 : ShardMessage := .event (eventAt .polymarket .health EventPayload.empty 102200)

theorem newBars_at102 : workerAt100.newBars calmEnv eventAt102 "token" ≠ [] := by decide +kernel

/-- The second of the first event is barred when the next one arrives, and nothing hides it. -/
theorem gapSound_at102 :
    ((workerAt100.newBars calmEnv eventAt102 "token").getLast newBars_at102).barSecond = 100 ∧
      GapSound exampleConfig ((workerAt100.handle calmEnv eventAt102).track "token").received
        ((workerAt100.newBars calmEnv eventAt102 "token").getLast newBars_at102) :=
  ⟨by decide +kernel, (gapSound_iff reachable_workerAt100 (List.getLast_mem newBars_at102)).mpr
    (by unfold NothingHidden; decide +kernel)⟩

/-- The event that ends a silence hides it from the bars of the silence. -/
theorem silence_hidden_by_next_event :
    ¬ ∀ (cfg : ShardConfig) (worker : ShardWorker), (shardMachine cfg).Reachable worker →
      ∀ (env : ShardEnv) (message : ShardMessage) (tokenKey : String),
        ∀ bar ∈ worker.newBars env message tokenKey,
          GapSound cfg ((worker.handle env message).track tokenKey).received bar := by
  intro hall
  have hsound := hall exampleConfig workerAt100 reachable_workerAt100 calmEnv eventAt222 "token" _
    (List.getLast_mem newBars_at222)
  have hsecond : ((workerAt100.newBars calmEnv eventAt222 "token").getLast
      newBars_at222).barSecond = 220 := by decide +kernel
  have hflag : ((workerAt100.newBars calmEnv eventAt222 "token").getLast
      newBars_at222).barGapFlag = 0 := by decide +kernel
  have hlast : 100200 ∈ lastBefore
      ((workerAt100.handle calmEnv eventAt222).track "token").received ((220 + 1) * 1000) := by
    decide +kernel
  rw [← hsecond] at hlast
  have hgap := ((hsound 100200 hlast).1 (by rw [hsecond]; decide)).1
  rw [hflag] at hgap
  cases hgap

end AlphaMonitor.Shard
