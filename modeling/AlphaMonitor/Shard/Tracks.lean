import AlphaMonitor.Shard.Seconds
import Mathlib.Data.List.Forall2

/-!
# A worker is its tokens

The tokens of a worker do not touch each other.  What a worker holds of one token
and did for it is a `TokenTrack`, and a message acts on every track alone.

## Main results

- `track_handle`: a worker's step is a step of each of its tracks
- `trackInv_of_reachable`: what every step of a track keeps holds of all tracks
-/

namespace AlphaMonitor.Shard

open Lib (Windows)

/-- What a worker holds of one token and did for it. -/
structure TokenTrack where
  state : Option TokenState
  bars : List Bars1sToken
  handled : List (Event × Option ℤ)
  dirty : Bool

namespace TokenTrack

def start : TokenTrack := ⟨none, [], [], false⟩

variable (cfg : ShardConfig) (env : ShardEnv) (tokenKey : String) (track : TokenTrack)

/-- Send the bars that are due. -/
def send (st : TokenState) : TokenTrack :=
  let ready := st.flushReady cfg tokenKey
  let sent := ShardWorker.emitAll env ready.1 ready.2
  { track with state := some sent.1, bars := track.bars ++ sent.2 }

/-- The state that an event of the token is handled in. -/
def stateFor (event : Event) : TokenState :=
  track.state.getD
    (TokenState.new event.venue ((env.tokenSides tokenKey).getD .unknown) event.barSecond env.now)

theorem stateFor_none (event : Event) (h : track.state = none) :
    track.stateFor env tokenKey event =
      TokenState.new event.venue ((env.tokenSides tokenKey).getD .unknown) event.barSecond
        env.now := by
  rw [stateFor, h, Option.getD_none]

theorem stateFor_some (event : Event) {st : TokenState} (h : track.state = some st) :
    track.stateFor env tokenKey event = st := by
  rw [stateFor, h, Option.getD_some]

/-- An event of the token. -/
def takeEvent (event : Event) : TokenTrack :=
  let result := (track.stateFor env tokenKey event).handleEvent event
  send cfg env tokenKey
    { track with dirty := true, handled := track.handled ++ [(result.event, result.second)] }
    result.state

/-- A tick that visits the token. -/
def takeTick (barSecond : ℤ) : TokenTrack :=
  match track.state with
  | some st => send cfg env tokenKey { track with dirty := false } (st.advance barSecond)
  | none => { track with dirty := false }

/-- One message. -/
def handle : ShardMessage → TokenTrack
  | .event event => if event.tokenKey = tokenKey then track.takeEvent cfg env tokenKey event else track
  | .tick barSecond => if track.dirty then track.takeTick cfg env tokenKey barSecond else track

theorem takeTick_of_state {st : TokenState} (barSecond : ℤ) (h : track.state = some st) :
    track.takeTick cfg env tokenKey barSecond =
      send cfg env tokenKey { track with dirty := false } (st.advance barSecond) := by
  obtain ⟨state, bars, handled, dirty⟩ := track
  cases h
  rfl

/-- Only a dirty token is marked clean. -/
theorem takeTick_of_clean (barSecond : ℤ) (h : track.dirty = false) :
    track.takeTick cfg env tokenKey barSecond =
      match track.state with
      | some st => track.send cfg env tokenKey (st.advance barSecond)
      | none => track := by
  obtain ⟨state, bars, handled, dirty⟩ := track
  cases h
  rfl

end TokenTrack

/-! ## Sending changes the health bits only -/

namespace ShardWorker

variable (env : ShardEnv)

/-- The bar but for its health bits, and with the bit for a recent resync. -/
structure SameBar (bar bar' : Bars1sToken) : Prop where
  fields : bar' = { bar with connectionHealthFlags := bar'.connectionHealthFlags }
  resyncRecent : bar'.connectionHealthFlags.testBit 2 = bar.connectionHealthFlags.testBit 2

/-- The state but for the drops that were reported. -/
def SameToken (st st' : TokenState) : Prop := st' = { st with lastDropCount := st'.lastDropCount }

theorem emitResult_spec (st : TokenState) (bar : Bars1sToken) :
    SameToken st (emitResult env st bar).1 ∧ SameBar bar (emitResult env st bar).2 := by
  have hbit : ∀ flags : ℕ,
      (flags ||| (if (env.health bar.venue bar.barSecond).wsUp then healthWsConnected else 0) |||
        (if bar.venue = .polymarket ∨ (env.health bar.venue bar.barSecond).heartbeatFail.getD 0 = 0
          then healthHeartbeatOk else 0)).testBit 2 = flags.testBit 2 := by
    intro flags
    simp only [Nat.testBit_or]
    have hws : healthWsConnected.testBit 2 = false := by decide
    have hbeat : healthHeartbeatOk.testBit 2 = false := by decide
    split <;> split <;> simp [hws, hbeat]
  unfold emitResult
  simp only
  split
  · refine ⟨rfl, rfl, ?_⟩
    have hdrop : healthEventDrop.testBit 2 = false := by decide
    simp only [Nat.testBit_or, hdrop, Bool.or_false]
    have hflags := hbit bar.connectionHealthFlags
    simpa only [Nat.testBit_or] using hflags
  · exact ⟨rfl, rfl, hbit _⟩

theorem SameToken.trans {st st' st'' : TokenState} (h : SameToken st st')
    (h' : SameToken st' st'') : SameToken st st'' := by
  unfold SameToken at *
  rw [h', h]

theorem emitAll_spec (st : TokenState) (bars : List Bars1sToken) :
    SameToken st (emitAll env st bars).1 ∧ List.Forall₂ SameBar bars (emitAll env st bars).2 := by
  induction bars generalizing st with
  | nil => exact ⟨rfl, List.Forall₂.nil⟩
  | cons bar rest ih =>
    obtain ⟨hst, hbar⟩ := emitResult_spec env st bar
    obtain ⟨hst', hrest⟩ := ih (emitResult env st bar).1
    exact ⟨hst.trans hst', List.Forall₂.cons hbar hrest⟩

theorem SameToken.windows {st st' : TokenState} (h : SameToken st st') :
    st'.windows = st.windows := by
  rw [h]
  rfl

theorem SameToken.quote {st st' : TokenState} (h : SameToken st st') :
    st'.toQuoteState = st.toQuoteState := by
  rw [h]

theorem map_eq_of_sameBar {β : Type} {bars bars' : List Bars1sToken} (f : Bars1sToken → β)
    (hf : ∀ bar bar', SameBar bar bar' → f bar' = f bar) (h : List.Forall₂ SameBar bars bars') :
    bars'.map f = bars.map f := by
  induction h with
  | nil => rfl
  | cons hbar _ ih => rw [List.map_cons, List.map_cons, ih, hf _ _ hbar]

/-- Every bar that is sent was flushed. -/
theorem exists_flushed {bars bars' : List Bars1sToken} (h : List.Forall₂ SameBar bars bars')
    {bar' : Bars1sToken} (hbar : bar' ∈ bars') : ∃ bar ∈ bars, SameBar bar bar' := by
  induction h with
  | nil => cases hbar
  | cons hsame _ ih =>
    rcases List.mem_cons.mp hbar with rfl | hrest
    · exact ⟨_, List.mem_cons_self, hsame⟩
    · obtain ⟨bar, hmem, hbar'⟩ := ih hrest
      exact ⟨bar, List.mem_cons_of_mem _ hmem, hbar'⟩

theorem map_barCount_emitAll (st : TokenState) (bars : List Bars1sToken) :
    (emitAll env st bars).2.map TokenState.barCount = bars.map TokenState.barCount := by
  apply map_eq_of_sameBar TokenState.barCount ?_ (emitAll_spec env st bars).2
  intro bar bar' h
  rw [h.fields]
  rfl

theorem emitAll_tokenKey {st : TokenState} {bars : List Bars1sToken} {tokenKey : String}
    (h : ∀ bar ∈ bars, bar.tokenKey = tokenKey) :
    ∀ bar ∈ (emitAll env st bars).2, bar.tokenKey = tokenKey := by
  have hmap : (emitAll env st bars).2.map (·.tokenKey) = bars.map (·.tokenKey) := by
    apply map_eq_of_sameBar (·.tokenKey) ?_ (emitAll_spec env st bars).2
    intro bar bar' hsame
    rw [hsame.fields]
  intro bar hbar
  have hmem : bar.tokenKey ∈ bars.map (·.tokenKey) := by
    rw [← hmap]
    exact List.mem_map_of_mem hbar
  obtain ⟨bar', hbar', heq⟩ := List.mem_map.mp hmem
  rw [← heq]
  exact h bar' hbar'

/-! ## A step of a worker -/

variable (worker : ShardWorker)

/-- What the worker holds of a token and did for it. -/
def track (tokenKey : String) : TokenTrack where
  state := worker.state tokenKey
  bars := worker.barsOf tokenKey
  handled := worker.handled.filter fun entry => decide (entry.1.tokenKey = tokenKey)
  dirty := decide (tokenKey ∈ worker.dirtyTokens)

/-- The sent bars carry the token's key. -/
theorem sent_tokenKey (tokenKey : String) (st : TokenState) (bar : Bars1sToken)
    (hbar : bar ∈ (emitAll env (st.flushReady worker.config tokenKey).1
      (st.flushReady worker.config tokenKey).2).2) : bar.tokenKey = tokenKey :=
  emitAll_tokenKey env (fun bar hbar => st.flushReady_tokenKey worker.config tokenKey bar hbar) bar hbar

theorem track_flushToken (tokenKey : String) (st : TokenState) :
    (worker.flushToken env tokenKey st).track tokenKey =
      (worker.track tokenKey).send worker.config env tokenKey st := by
  have hkeys := worker.sent_tokenKey env tokenKey st
  unfold flushToken TokenTrack.send track barsOf
  simp only [Function.update_self, List.filter_append, TokenTrack.mk.injEq, true_and, and_true]
  congr 1
  rw [List.filter_eq_self]
  intro bar hbar
  exact decide_eq_true (hkeys bar hbar)

theorem track_flushToken_of_ne {tokenKey other : String} (hne : other ≠ tokenKey)
    (st : TokenState) :
    (worker.flushToken env tokenKey st).track other = worker.track other := by
  have hkeys := worker.sent_tokenKey env tokenKey st
  unfold flushToken track barsOf
  simp only [Function.update_of_ne hne, List.filter_append, TokenTrack.mk.injEq, true_and, and_true]
  rw [List.append_right_eq_self, List.filter_eq_nil_iff]
  intro bar hbar
  rw [hkeys bar hbar]
  simpa using Ne.symm hne

/-! ### Events -/

theorem track_handleEvent (event : Event) (tokenKey : String) :
    (worker.handleEvent env event).track tokenKey =
      (worker.track tokenKey).handle worker.config env tokenKey (.event event) := by
  have hkey : ∀ st : TokenState, (st.handleEvent event).event.tokenKey = event.tokenKey := by
    intro st
    rw [(st.handleEvent_event event).1]
  unfold handleEvent TokenTrack.handle
  simp only
  by_cases h : event.tokenKey = tokenKey
  · subst h
    rw [if_pos rfl, track_flushToken]
    unfold TokenTrack.takeEvent TokenTrack.stateFor track barsOf
    simp only [List.filter_append, List.mem_insert_self, decide_true, hkey, List.filter_cons_of_pos,
      List.filter_nil]
  · have hne : tokenKey ≠ event.tokenKey := Ne.symm h
    rw [if_neg h, track_flushToken_of_ne _ _ hne]
    unfold track barsOf
    have hdirty : (tokenKey ∈ worker.dirtyTokens.insert event.tokenKey) ↔
        tokenKey ∈ worker.dirtyTokens := by
      rw [List.mem_insert_iff]
      exact or_iff_right hne
    simp only [List.filter_append, hkey, h, decide_false, Bool.false_eq_true, not_false_eq_true,
      List.filter_cons_of_neg, List.filter_nil, List.append_nil, hdirty]

/-! ### Ticks -/

theorem track_tickToken_of_ne {tokenKey other : String} (hne : other ≠ tokenKey) (barSecond : ℤ) :
    (worker.tickToken env barSecond tokenKey).track other = worker.track other := by
  unfold tickToken
  split
  · exact worker.track_flushToken_of_ne env hne _
  · rfl

theorem config_tickToken (barSecond : ℤ) (tokenKey : String) :
    (worker.tickToken env barSecond tokenKey).config = worker.config := by
  unfold tickToken
  split <;> rfl

theorem dirty_tickToken (barSecond : ℤ) (tokenKey : String) :
    (worker.tickToken env barSecond tokenKey).dirtyTokens = worker.dirtyTokens := by
  unfold tickToken
  split <;> rfl

/-- Visiting tokens leaves the others alone, and the worker's own fields. -/
theorem foldl_tickToken (barSecond : ℤ) (keys : List String) (worker : ShardWorker) :
    (keys.foldl (fun w key => tickToken env w barSecond key) worker).config = worker.config ∧
      (keys.foldl (fun w key => tickToken env w barSecond key) worker).dirtyTokens =
        worker.dirtyTokens ∧
      ∀ other, other ∉ keys →
        (keys.foldl (fun w key => tickToken env w barSecond key) worker).track other =
          worker.track other := by
  induction keys generalizing worker with
  | nil => exact ⟨rfl, rfl, fun _ _ => rfl⟩
  | cons key rest ih =>
    obtain ⟨hcfg, hdirty, hother⟩ := ih (tickToken env worker barSecond key)
    refine ⟨hcfg.trans (worker.config_tickToken env barSecond key),
      hdirty.trans (worker.dirty_tickToken env barSecond key), ?_⟩
    intro other hnot
    rw [List.mem_cons, not_or] at hnot
    rw [List.foldl_cons, hother other hnot.2]
    exact worker.track_tickToken_of_ne env hnot.1 barSecond

theorem track_tickToken (tokenKey : String) (barSecond : ℤ)
    (hclean : tokenKey ∉ worker.dirtyTokens) :
    (worker.tickToken env barSecond tokenKey).track tokenKey =
      (worker.track tokenKey).takeTick worker.config env tokenKey barSecond := by
  have hdirty : (worker.track tokenKey).dirty = false := decide_eq_false hclean
  have htrack : (worker.track tokenKey).state = worker.state tokenKey := rfl
  rw [TokenTrack.takeTick_of_clean _ _ _ _ _ hdirty, htrack]
  unfold tickToken
  cases worker.state tokenKey with
  | some st => exact track_flushToken env worker tokenKey _
  | none => rfl

theorem track_handleTick (barSecond : ℤ) (tokenKey : String) (hnodup : worker.dirtyTokens.Nodup) :
    (worker.handleTick env barSecond).track tokenKey =
      (worker.track tokenKey).handle worker.config env tokenKey (.tick barSecond) := by
  set clean : ShardWorker := { worker with dirtyTokens := [] } with hclean
  have hstart : clean.track tokenKey = { worker.track tokenKey with dirty := false } := by
    simp [hclean, track, barsOf]
  unfold handleTick TokenTrack.handle
  by_cases hdirty : tokenKey ∈ worker.dirtyTokens
  · have hflag : (worker.track tokenKey).dirty = true := decide_eq_true hdirty
    simp only [hflag, if_true]
    -- the tokens before and after it in the list leave it alone
    obtain ⟨before, after, hsplit⟩ := List.append_of_mem hdirty
    have hnot := hnodup
    rw [hsplit, List.nodup_append] at hnot
    have hbefore : tokenKey ∉ before := fun hmem => hnot.2.2 tokenKey hmem tokenKey
      List.mem_cons_self rfl
    have hafter : tokenKey ∉ after := (List.nodup_cons.mp hnot.2.1).1
    obtain ⟨hcfg₁, hdirty₁, htrack₁⟩ := foldl_tickToken env barSecond before clean
    rw [hsplit, List.foldl_append, List.foldl_cons]
    set mid := before.foldl (fun w key => tickToken env w barSecond key) clean
    rw [(foldl_tickToken env barSecond after _).2.2 tokenKey hafter]
    have hmid : tokenKey ∉ mid.dirtyTokens := by
      rw [hdirty₁]
      simp [hclean]
    rw [mid.track_tickToken env tokenKey barSecond hmid, hcfg₁, htrack₁ tokenKey hbefore, hstart]
    unfold TokenTrack.takeTick
    simp only [hclean]
  · have hflag : (worker.track tokenKey).dirty = false := decide_eq_false hdirty
    simp only [hflag, Bool.false_eq_true, if_false]
    rw [(foldl_tickToken env barSecond worker.dirtyTokens clean).2.2 tokenKey hdirty, hstart,
      ← hflag]

/-- A message acts on every track alone. -/
theorem track_handle (message : ShardMessage) (tokenKey : String)
    (hnodup : worker.dirtyTokens.Nodup) :
    (worker.handle env message).track tokenKey =
      (worker.track tokenKey).handle worker.config env tokenKey message := by
  cases message with
  | event event => exact worker.track_handleEvent env event tokenKey
  | tick barSecond => exact worker.track_handleTick env barSecond tokenKey hnodup

theorem handle_frame (message : ShardMessage) (hnodup : worker.dirtyTokens.Nodup) :
    (worker.handle env message).config = worker.config ∧
      (worker.handle env message).dirtyTokens.Nodup := by
  cases message with
  | event event => exact ⟨rfl, hnodup.insert⟩
  | tick barSecond =>
    obtain ⟨hcfg, hdirty, _⟩ := foldl_tickToken env barSecond worker.dirtyTokens
      { worker with dirtyTokens := [] }
    refine ⟨hcfg, ?_⟩
    have hnil : (worker.handleTick env barSecond).dirtyTokens = [] := hdirty
    simp only [handle, hnil, List.nodup_nil]

end ShardWorker

/-! ## Invariants of tracks -/

/-- What holds of every worker that a run can reach. -/
theorem worker_of_reachable {cfg : ShardConfig} {worker : ShardWorker}
    (h : (shardMachine cfg).Reachable worker) :
    worker.config = cfg ∧ worker.dirtyTokens.Nodup := by
  apply (shardMachine cfg).inv_of_reachable ?_ ?_ h
  · rintro _ rfl
    exact ⟨rfl, List.nodup_nil⟩
  · rintro worker ⟨env, message⟩ worker' ⟨hcfg, hnodup⟩ hstep
    cases hstep
    obtain ⟨hcfg', hnodup'⟩ := worker.handle_frame env message hnodup
    exact ⟨hcfg'.trans hcfg, hnodup'⟩

/-- What every step of a track keeps holds of every track of every reachable worker. -/
theorem trackInv_of_reachable {cfg : ShardConfig} {P : String → TokenTrack → Prop}
    (hstart : ∀ key, P key TokenTrack.start)
    (hstep : ∀ env key track message, P key track → P key (track.handle cfg env key message))
    {worker : ShardWorker} (h : (shardMachine cfg).Reachable worker) (key : String) :
    P key (worker.track key) := by
  have hall : (worker.config = cfg ∧ worker.dirtyTokens.Nodup) ∧
      ∀ key, P key (worker.track key) := by
    apply (shardMachine cfg).inv_of_reachable ?_ ?_ h
    · rintro _ rfl
      exact ⟨⟨rfl, List.nodup_nil⟩, hstart⟩
    · rintro worker ⟨env, message⟩ worker' ⟨⟨hcfg, hnodup⟩, htracks⟩ hnext
      cases hnext
      obtain ⟨hcfg', hnodup'⟩ := worker.handle_frame env message hnodup
      refine ⟨⟨hcfg'.trans hcfg, hnodup'⟩, fun key => ?_⟩
      rw [worker.track_handle env message key hnodup, hcfg]
      exact hstep env key _ message (htracks key)
  exact hall.2 key

theorem reachable_step {cfg : ShardConfig} {worker : ShardWorker}
    (h : (shardMachine cfg).Reachable worker) (env : ShardEnv) (message : ShardMessage) :
    (shardMachine cfg).Reachable (worker.handle env message) :=
  Lib.Machine.Reachable.step (shardMachine cfg) (e := (env, message)) h rfl

end AlphaMonitor.Shard
