import AlphaMonitor.Shard.Dispatcher
import AlphaMonitor.Shard.LookAhead

/-!
# Many shards are one worker

The shards share nothing but the health module and the registry, and what a shard makes of
a token depends on these in the labels of a bar only.  So however many shards there are and
however they are scheduled, the bars of a token are those that one worker makes of all the
messages that the dispatcher took up, in the order in which it did.

## Main results

- `replay_of_reachable`: a shard's token is the replay of what the shard took from its queue
- `shards_make_bars_of_one`: the bars of a token are those of one worker
-/

namespace AlphaMonitor.Shard

open Lib (Mail Route Router)

/-! ## Tracks that differ in labels -/

namespace TokenState

variable (cfg : ShardConfig) (tokenKey : String) (side : TokenSide) (drops : ℤ)

theorem flushLoop_view (n : ℕ) (current : ℤ) (st : TokenState) :
    (flushLoop cfg tokenKey n current (st.relabel side drops)).2.map Bars1sToken.view =
      (flushLoop cfg tokenKey n current st).2.map Bars1sToken.view := by
  induction n generalizing current st with
  | zero => rfl
  | succ n ih =>
    simp only [flushLoop_succ, flushOne_relabel, List.map_cons, ih]
    rfl

theorem flushReady_view (st : TokenState) :
    ((st.relabel side drops).flushReady cfg tokenKey).2.map Bars1sToken.view =
      (st.flushReady cfg tokenKey).2.map Bars1sToken.view := by
  have hmark : (st.relabel side drops).watermarkSecond = st.watermarkSecond := rfl
  have hflushed : (st.relabel side drops).lastFlushedSecond = st.lastFlushedSecond := rfl
  unfold flushReady
  simp only [hmark, hflushed]
  split
  · rfl
  · exact flushLoop_view cfg tokenKey side drops _ _ st

end TokenState

namespace TokenTrack

/-- Two tracks that differ only in what they read of the registry and of the health module. -/
structure Alike (track other : TokenTrack) : Prop where
  state : ∃ side drops, track.state = other.state.map (·.relabel side drops)
  bars : track.bars.map Bars1sToken.view = other.bars.map Bars1sToken.view
  dirty : track.dirty = other.dirty

variable {cfg : ShardConfig} {env env' : ShardEnv} {tokenKey : String} {track other : TokenTrack}

theorem Alike.refl (track : TokenTrack) : track.Alike track := by
  refine ⟨?_, rfl, rfl⟩
  cases h : track.state with
  | none => exact ⟨.unknown, 0, rfl⟩
  | some st => exact ⟨st.tokenSide, st.lastDropCount, rfl⟩

/-- States that differ in labels send bars that do. -/
theorem Alike.send (hbars : track.bars.map Bars1sToken.view = other.bars.map Bars1sToken.view)
    (hdirty : track.dirty = other.dirty) (side : TokenSide) (drops : ℤ) (st : TokenState) :
    (track.send cfg env tokenKey (st.relabel side drops)).Alike
      (other.send cfg env' tokenKey st) := by
  have hsent : ∀ (env : ShardEnv) (st : TokenState) (bars : List Bars1sToken),
      (ShardWorker.emitAll env st bars).2.map Bars1sToken.view = bars.map Bars1sToken.view := by
    intro env st bars
    apply ShardWorker.map_eq_of_sameBar Bars1sToken.view ?_ (ShardWorker.emitAll_spec env st bars).2
    exact fun bar bar' hsame => hsame.view
  obtain ⟨⟨side₁, drops₁, hstate₁⟩, -⟩ :=
    send_alike cfg env tokenKey track (st.relabel side drops)
  obtain ⟨⟨side₂, drops₂, hstate₂⟩, -⟩ := send_alike cfg env' tokenKey other st
  refine ⟨⟨side₁, drops₁, ?_⟩, ?_, hdirty⟩
  · rw [hstate₁, hstate₂, TokenState.flushReady_relabel]
    rfl
  · show (track.bars ++ _).map _ = (other.bars ++ _).map _
    rw [List.map_append, List.map_append, hsent, hsent, TokenState.flushReady_view, hbars]

theorem Alike.takeEvent (h : track.Alike other) (event : Event) :
    (track.takeEvent cfg env tokenKey event).Alike
      (other.takeEvent cfg env' tokenKey event) := by
  -- the state that the event is handled in does not depend on what was sent before
  have hstep : ({ track with bars := [] } : TokenTrack).InStep 0 { other with bars := [] } :=
    ⟨h.state, fun _ _ _ => h.dirty, fun bar hbar => by cases hbar⟩
  obtain ⟨side, drops, hafter⟩ :=
    @InStep.stateFor env tokenKey 0 _ _ hstep env' event
  have hsame : ((track.stateFor env tokenKey event).handleEvent event).state =
      ((other.stateFor env' tokenKey event).handleEvent event).state.relabel side drops := hafter
  unfold TokenTrack.takeEvent
  simp only [hsame]
  refine Alike.send ?_ ?_ side drops _
  · exact h.bars
  · rfl

theorem Alike.takeTick (h : track.Alike other) (barSecond : ℤ) :
    (track.takeTick cfg env tokenKey barSecond).Alike
      (other.takeTick cfg env' tokenKey barSecond) := by
  obtain ⟨side, drops, hstate⟩ := h.state
  unfold TokenTrack.takeTick
  cases hother : other.state with
  | none =>
    rw [hother] at hstate
    simp only [hstate, Option.map_none]
    exact ⟨⟨side, drops, rfl⟩, h.bars, rfl⟩
  | some st =>
    rw [hother] at hstate
    simp only [hstate, Option.map_some, advance_relabel]
    refine Alike.send ?_ ?_ side drops _
    · exact h.bars
    · rfl

/-- A message leaves two such tracks alike, in any surroundings. -/
theorem Alike.handle (h : track.Alike other) (message : ShardMessage) :
    (track.handle cfg env tokenKey message).Alike
      (other.handle cfg env' tokenKey message) := by
  cases message with
  | event event =>
    simp only [TokenTrack.handle]
    split
    · exact h.takeEvent event
    · exact h
  | tick barSecond =>
    simp only [TokenTrack.handle, h.dirty]
    split
    · exact h.takeTick barSecond
    · exact h

end TokenTrack

/-! ## Replays -/

section Replay

variable (cfg : ShardConfig) (tokenKey : String)

/-- The message is a tick, or an event of the token. -/
def Concerns (tokenKey : String) : ShardMessage → Bool
  | .event event => decide (event.tokenKey = tokenKey)
  | .tick _ => true

theorem replay_snoc (messages : List ShardMessage) (message : ShardMessage) :
    replay cfg tokenKey (messages ++ [message]) =
      (replay cfg tokenKey messages).handle cfg calmEnv tokenKey message := by
  rw [replay, List.foldl_append]
  rfl

/-- Events of other tokens are of no effect. -/
theorem replay_filter (messages : List ShardMessage) :
    replay cfg tokenKey (messages.filter (Concerns tokenKey)) = replay cfg tokenKey messages := by
  induction messages using List.reverseRecOn with
  | nil => rfl
  | append_singleton messages message ih =>
    rw [List.filter_append, replay_snoc]
    by_cases h : Concerns tokenKey message
    · simp only [List.filter_singleton, h, cond_true, replay_snoc, ih]
    · simp only [List.filter_singleton, h, cond_false, List.append_nil, ih]
      cases message with
      | event event =>
        have hne : ¬event.tokenKey = tokenKey := by simpa [Concerns] using h
        simp only [TokenTrack.handle, if_neg hne]
      | tick barSecond => simp [Concerns] at h

/-- Without events of its own a token does nothing. -/
theorem replay_of_ticks (messages : List ShardMessage)
    (h : ∀ message ∈ messages, ∀ event, message = .event event → event.tokenKey ≠ tokenKey) :
    replay cfg tokenKey messages = TokenTrack.start := by
  induction messages using List.reverseRecOn with
  | nil => rfl
  | append_singleton messages message ih =>
    rw [replay_snoc, ih fun m hm => h m (List.mem_append_left _ hm)]
    cases message with
    | event event =>
      have hne := h (.event event) (by simp) event rfl
      simp only [TokenTrack.handle, if_neg hne]
    | tick barSecond => rfl

end Replay

/-! ## The shards -/

variable {n : ℕ} {cfg : ShardConfig}

/-- One worker's track of a token is the replay of its messages. -/
theorem alike_of_run {es : List (ShardEnv × ShardMessage)} {one : ShardWorker}
    (hr : (shardMachine cfg).run (ShardWorker.start cfg) es = some one) (tokenKey : String) :
    (one.track tokenKey).Alike (replay cfg tokenKey (es.map Prod.snd)) := by
  have hall : (one.config = cfg ∧ one.dirtyTokens.Nodup) ∧
      (one.track tokenKey).Alike (replay cfg tokenKey (([] ++ es).map Prod.snd)) := by
    refine @Lib.Machine.hist_of_runMeets _ _ (shardMachine cfg)
      (fun hist worker => (worker.config = cfg ∧ worker.dirtyTokens.Nodup) ∧
        (worker.track tokenKey).Alike (replay cfg tokenKey (hist.map Prod.snd)))
      (fun _ _ => True) ?_ [] es _ one ?_ ((shardMachine cfg).runMeets_trivial _ _) hr
    · rintro hist worker ⟨env, message⟩ worker' ⟨⟨hcfg, hnodup⟩, halike⟩ - hstep
      cases hstep
      obtain ⟨hcfg', hnodup'⟩ := worker.handle_frame env message hnodup
      refine ⟨⟨hcfg'.trans hcfg, hnodup'⟩, ?_⟩
      rw [List.map_append, worker.track_handle env message tokenKey hnodup, hcfg]
      show TokenTrack.Alike _ (replay cfg tokenKey (_ ++ [message]))
      rw [replay_snoc]
      exact halike.handle message
    · exact ⟨⟨rfl, List.nodup_nil⟩, TokenTrack.Alike.refl _⟩
  exact hall.2

namespace DispatchSystem

variable {sys sys' : DispatchSystem n}

/-- Each worker has the tokens that its shard's messages make. -/
structure Replayed (cfg : ShardConfig) (sys : DispatchSystem n) : Prop where
  frame : ∀ shard, (sys.workers shard).config = cfg ∧ (sys.workers shard).dirtyTokens.Nodup
  tracks : ∀ shard tokenKey,
    ((sys.workers shard).track tokenKey).Alike (replay cfg tokenKey (sys.mail.taken shard))

theorem Replayed.step (h : sys.Replayed cfg) {e : DispatchEvent n} (hstep : sys.step e = some sys') :
    sys'.Replayed cfg := by
  have hquiet : sys'.workers = sys.workers → sys'.mail.taken = sys.mail.taken → sys'.Replayed cfg := by
    intro hworkers htaken
    refine ⟨?_, ?_⟩
    · rw [hworkers]
      exact h.frame
    · rw [hworkers, htaken]
      exact h.tracks
  cases e with
  | dispatch message =>
    obtain ⟨-, hmail, hworkers, -⟩ := step_dispatch hstep
    exact hquiet hworkers (by rw [hmail, Mail.taken_offer])
  | push =>
    obtain ⟨hpush, hworkers, -⟩ := step_push hstep
    exact hquiet hworkers (Mail.taken_push hpush)
  | note venue note =>
    rw [step_note hstep] at hquiet ⊢
    exact hquiet rfl rfl
  | work shard now tokenSides =>
    obtain ⟨message, htake, hworkers, -⟩ := step_work hstep
    obtain ⟨rest, -, hmail⟩ := Mail.take_eq_some htake
    obtain ⟨hcfg, hnodup⟩ := h.frame shard
    have hframe := (sys.workers shard).handle_frame (envOf sys.health now tokenSides) message hnodup
    refine ⟨fun other => ?_, fun other tokenKey => ?_⟩
    · rw [hworkers]
      by_cases hother : other = shard
      · subst hother
        rw [Function.update_self]
        exact ⟨hframe.1.trans hcfg, hframe.2⟩
      · rw [Function.update_of_ne hother]
        exact h.frame other
    · rw [hworkers, hmail]
      by_cases hother : other = shard
      · subst hother
        simp only [Function.update_self]
        rw [(sys.workers other).track_handle _ message tokenKey hnodup, hcfg, replay_snoc]
        exact (h.tracks other tokenKey).handle message
      · simp only [Function.update_of_ne hother]
        exact h.tracks other tokenKey

/-- A shard's token is the replay of what the shard took from its queue. -/
theorem replay_of_reachable (h : (dispatchMachine n cfg).Reachable sys) : sys.Replayed cfg := by
  apply (dispatchMachine n cfg).inv_of_reachable ?_ ?_ h
  · rintro _ rfl
    refine ⟨fun shard => ⟨rfl, List.nodup_nil⟩, fun shard tokenKey => ?_⟩
    exact TokenTrack.Alike.refl _
  · intro sys e sys' hreplayed hstep
    exact hreplayed.step hstep

/-- All bars of a token, of whatever shard. -/
def barsOf (sys : DispatchSystem n) (tokenKey : String) : List Bars1sToken :=
  (List.finRange n).flatMap fun shard => (sys.workers shard).barsOf tokenKey

/-- A token's messages all go to its own shard. -/
theorem stream_concerns (shard : Fin n) (tokenKey : String) (log : List ShardMessage)
    (hshard : pickShard tokenKey n = shard) :
    ((shardRouter n).streamOf shard log).filter (Concerns tokenKey) =
      log.filter (Concerns tokenKey) := by
  rw [Router.streamOf, List.filter_filter]
  apply List.filter_congr
  intro message _
  cases message with
  | event event =>
    by_cases hkey : event.tokenKey = tokenKey
    · simp [Concerns, hkey, hshard]
    · simp [Concerns, hkey]
  | tick barSecond => simp [Concerns]

/-- Another shard has no bars of the token. -/
theorem barsOf_other (h : (dispatchMachine n cfg).Reachable sys) {shard : Fin n} {tokenKey : String}
    (hother : pickShard tokenKey n ≠ shard) : (sys.workers shard).barsOf tokenKey = [] := by
  have halike := (replay_of_reachable h).tracks shard tokenKey
  have hstart : replay cfg tokenKey (sys.mail.taken shard) = TokenTrack.start := by
    apply replay_of_ticks
    rintro message hmessage event rfl hkey
    have hmem := (Mail.taken_isPrefix (routed_of_reachable h) shard).subset hmessage
    rw [Router.streamOf, List.mem_filter] at hmem
    -- the event was put into this shard's queue, so its key is hashed to it
    have hlane := mem_lanes_event.mp (of_decide_eq_true hmem.2)
    exact hother (hkey ▸ hlane)
  rw [hstart] at halike
  have hnil : ((sys.workers shard).barsOf tokenKey).map Bars1sToken.view = [] := halike.bars
  exact List.map_eq_nil_iff.mp hnil

theorem barsOf_eq (h : (dispatchMachine n cfg).Reachable sys) {shard : Fin n} {tokenKey : String}
    {hlt : pickShard tokenKey n < n} (hshard : shard = ⟨pickShard tokenKey n, hlt⟩) :
    sys.barsOf tokenKey = (sys.workers shard).barsOf tokenKey := by
  have hother : ∀ other, other ≠ shard → (sys.workers other).barsOf tokenKey = [] := by
    intro other hne
    refine barsOf_other h fun heq => hne ?_
    rw [hshard]
    exact Fin.ext heq.symm
  obtain ⟨before, after, hsplit⟩ := List.append_of_mem (List.mem_finRange shard)
  have hnodup := List.nodup_finRange n
  rw [hsplit, List.nodup_append] at hnodup
  have hbefore : before.flatMap (fun other => (sys.workers other).barsOf tokenKey) = [] :=
    List.flatMap_eq_nil_iff.mpr fun other hmem =>
      hother other (hnodup.2.2 other hmem shard List.mem_cons_self)
  have hafter : after.flatMap (fun other => (sys.workers other).barsOf tokenKey) = [] :=
    List.flatMap_eq_nil_iff.mpr fun other hmem =>
      hother other fun heq => (List.nodup_cons.mp hnodup.2.1).1 (heq ▸ hmem)
  rw [barsOf, hsplit, List.flatMap_append, List.flatMap_cons, hbefore, hafter, List.nil_append,
    List.append_nil]

/-- The bars of a token are those of one worker that takes the messages in the order of the
dispatcher. -/
theorem shards_make_bars_of_one (hn : 0 < n) (h : (dispatchMachine n cfg).Reachable sys)
    (tokenKey : String) :
    ∃ handled, handled <+: sys.mail.log ∧ (sys.mail.Drained → handled = sys.mail.log) ∧
      ∀ es one, (shardMachine cfg).run (ShardWorker.start cfg) es = some one →
        es.map Prod.snd = handled →
        (sys.barsOf tokenKey).map Bars1sToken.view = (one.barsOf tokenKey).map Bars1sToken.view := by
  have hlt : pickShard tokenKey n < n := by
    have hpos : 0 < max n 1 := lt_of_lt_of_le hn (le_max_left _ _)
    have hmod : pickShard tokenKey n < max n 1 := Nat.mod_lt _ hpos
    rwa [max_eq_left hn] at hmod
  set shard : Fin n := ⟨pickShard tokenKey n, hlt⟩ with hshard
  have hrouted := routed_of_reachable h
  -- what the shard took is what it was sent of the first messages, of all in the end
  obtain ⟨handled, hfirst, hall, htaken⟩ : ∃ handled, handled <+: sys.mail.log ∧
      (sys.mail.Drained → handled = sys.mail.log) ∧
      sys.mail.taken shard = (shardRouter n).streamOf shard handled := by
    by_cases hdrained : sys.mail.Drained
    · exact ⟨sys.mail.log, List.prefix_refl _, fun _ => rfl, hdrained.taken hrouted shard⟩
    · obtain ⟨handled, hfirst, htaken⟩ :=
        List.prefix_filter_iff.mp (Mail.taken_isPrefix hrouted shard)
      exact ⟨handled, hfirst, fun hd => (hdrained hd).elim, htaken⟩
  have hreplay : replay cfg tokenKey (sys.mail.taken shard) = replay cfg tokenKey handled := by
    rw [htaken, ← replay_filter, stream_concerns shard tokenKey handled rfl, replay_filter]
  refine ⟨handled, hfirst, hall, ?_⟩
  intro es one hr hes
  have hmine := (replay_of_reachable h).tracks shard tokenKey
  have hone := alike_of_run hr tokenKey
  rw [hreplay] at hmine
  rw [hes] at hone
  rw [barsOf_eq h hshard]
  exact hmine.bars.trans hone.bars.symm

/-- Two shards with two events of a token, which the first of them has handled, and a tick that
is being handed out. -/
def twoShardEvents : List (DispatchEvent 2) :=
  [.dispatch (.event (eventAt .polymarket .health EventPayload.empty 100200)),
    .work ⟨0, Nat.two_pos⟩ 100200 fun _ => none,
    .dispatch (.event (eventAt .polymarket .health EventPayload.empty 103500)),
    .work ⟨0, Nat.two_pos⟩ 103500 fun _ => none,
    .dispatch (.tick 103),
    .push]

/-- One worker that takes the same events makes the bars that the two shards make. -/
theorem shards_make_bars_of_one_two :
    ∃ sys, (dispatchMachine 2 exampleConfig).run (start 2 exampleConfig) twoShardEvents = some sys ∧
      ∃ handled, handled <+: sys.mail.log ∧ (sys.mail.Drained → handled = sys.mail.log) ∧
        ∀ es one, (shardMachine exampleConfig).run (ShardWorker.start exampleConfig) es = some one →
          es.map Prod.snd = handled →
          (sys.barsOf "token").map Bars1sToken.view = (one.barsOf "token").map Bars1sToken.view :=
  ⟨_, rfl, shards_make_bars_of_one (by decide)
    ⟨start 2 exampleConfig, twoShardEvents, rfl, rfl⟩ "token"⟩

end DispatchSystem

end AlphaMonitor.Shard
