import AlphaMonitor.Pair.ResponseSums
import AlphaMonitor.Shard.Consecutive

/-!
# Responses and the delay of the shards

A shard sends the bar of a second when its watermark is two seconds later.  A tick makes a
response due as soon as its target second has come, and the pending worker computes the row
from the bars that have arrived by then.

The shards, their channel to the aggregator, the aggregator and its worker take turns in any
order.

## Main definitions

- `ResponseSystem.step`: one step of any of them
- `UsesLatest`: what a response should be computed from
- `TargetKept`: the bar of the target second is there in time

## Main results

- `response_uses_latest_iff`: when a response uses the latest bar that is ever sent
- `response_ahead_of_shard`: a tick is handled before the shard has sent the second
-/

namespace AlphaMonitor.Pair

open AlphaMonitor.Lib
open Shard (Bars1sToken ShardConfig ShardEnv ShardMessage ShardWorker TokenTrack shardMachine
  lateEventBufferSecs)
open Store (OpinionResponseRow)

/-! ## What the shards send -/

/-- The `PairInput` that `emit_result` makes of a bar for one pair; the latency is that of the
shard's histogram. -/
def inputOf (pairId : ℤ) (obsLatencyP99Ms : Option ℤ) (bar : Bars1sToken) : HistoryBar where
  pairId := pairId
  tokenSide := bar.tokenSide
  barSecond := bar.barSecond
  venue := bar.venue
  tokenKey := bar.tokenKey
  bestBid := bar.bestBidPx
  bestAsk := bar.bestAskPx
  mid := bar.midPx
  bestBidState := bar.bestBidPxState
  bestAskState := bar.bestAskPxState
  midState := bar.midPxState
  lastPrice := bar.lastPrice
  micro := bar.microPx
  stalenessMs := bar.stalenessMs
  barGapFlag := decide (bar.barGapFlag ≠ 0)
  barStaleFlag := decide (bar.barStaleFlag ≠ 0)
  top10DepthBid := bar.top10DepthBidNotional
  top10DepthAsk := bar.top10DepthAskNotional
  bidL1Notional := bar.bidL1Notional
  bidL2Notional := bar.bidL2Notional
  bidL3Notional := bar.bidL3Notional
  askL1Notional := bar.askL1Notional
  askL2Notional := bar.askL2Notional
  askL3Notional := bar.askL3Notional
  buyNotional1s := bar.buyNotional1s
  sellNotional1s := bar.sellNotional1s
  ofi250ms := bar.ofi250ms
  bidDeltaNotional250ms := bar.bidDeltaNotional250ms
  askDeltaNotional250ms := bar.askDeltaNotional250ms
  midSlope250ms := bar.midSlope250ms
  buyNotional250ms := bar.buyNotional250ms
  sellNotional250ms := bar.sellNotional250ms
  maxTradeNotional250ms := bar.maxTradeNotional250ms
  maxTradeNotional1s := bar.maxTradeNotional1s
  liquidityPullFlag := bar.liquidityPullFlag
  obsLatencyP99Ms := obsLatencyP99Ms
  spread := bar.spreadPx
  volumeNotional1s := bar.volumeNotional1s
  cvdDelta1s := bar.cvdDelta1s

/-- The message was made of the bar. -/
def IsInputOf (input : HistoryBar) (bar : Bars1sToken) : Prop :=
  ∃ pairId obsLatencyP99Ms, input = inputOf pairId obsLatencyP99Ms bar

/-! ## The system -/

/-- The settings, and how tokens are spread over the shards. -/
structure ResponseSetup where
  shardConfig : ShardConfig
  shardOf : String → ℕ
  captureEnabled : Bool
  analysis : Analysis
  ln : ℚ → ℚ

/-- `target_bar_h`, the bar at the target second. -/
def targetBar (gapAllow : ℕ) (opiBarHistory : String → Option History)
    (pending : PendingResponse) : Option HistoryBar :=
  (pending.opiTokenKey.bind opiBarHistory).bind fun history =>
    findBarWithLookback history pending.target gapAllow

/-- What the worker made of an entry. -/
structure Answer where
  pending : PendingResponse
  targetBar : Option HistoryBar
  row : Option OpinionResponseRow

structure ResponseSystem where
  shards : ℕ → ShardWorker
  /-- The token bars on their way to the aggregator. -/
  channel : List HistoryBar
  aggregator : PendingSystem
  /-- The messages that the aggregator has handled. -/
  inbox : List PendingEvent
  /-- What the pending worker did, in the order in which the entries were sent to it. -/
  answers : List Answer

inductive ResponseEvent where
  /-- A shard handles a message and sends each new bar once for each of the given pairs: those
  of the token that the aggregator serves and whose message the channel takes. -/
  | shard (i : ℕ) (env : ShardEnv) (message : ShardMessage)
      (copies : Bars1sToken → List (ℤ × Option ℤ))
  /-- The aggregator takes the next token bar. -/
  | arrive
  | shock (shock : ShockInput) (env : ShockContext)
  | tick (barSecond : ℤ) (clock : ℕ) (accepts : ℕ → Bool)
  /-- One turn of `pending_worker_loop`. -/
  | work

/-- Events go to the shard of their token. -/
def ResponseSetup.Routes (c : ResponseSetup) (i : ℕ) : ShardMessage → Prop
  | .event event => c.shardOf event.tokenKey = i
  | .tick _ => True

instance (c : ResponseSetup) (i : ℕ) : ∀ message : ShardMessage, Decidable (c.Routes i message)
  | .event event => inferInstanceAs (Decidable (c.shardOf event.tokenKey = i))
  | .tick _ => inferInstanceAs (Decidable True)

namespace ResponseSystem

/-- Nothing has happened; the token maps may be known already. -/
def start (c : ResponseSetup) (opiTokenMap pmTokenMap : PairKey → Option String) :
    ResponseSystem where
  shards := fun _ => ShardWorker.start c.shardConfig
  channel := []
  aggregator := PendingSystem.start opiTokenMap pmTokenMap
  inbox := []
  answers := []

variable (c : ResponseSetup) (s : ResponseSystem)

/-- The aggregator handles a message. -/
def take (e : PendingEvent) : Option ResponseSystem :=
  (s.aggregator.step c.captureEnabled c.analysis.gapAllow e).map fun aggregator =>
    { s with aggregator := aggregator, inbox := s.inbox ++ [e] }

/-- The messages of the bars that a step of a shard has sent. -/
def newInputs (worker worker' : ShardWorker) (copies : Bars1sToken → List (ℤ × Option ℤ)) :
    List HistoryBar :=
  (worker'.emitted.drop worker.emitted.length).flatMap fun bar =>
    (copies bar).map fun copy => inputOf copy.1 copy.2 bar

/-- The entry that the worker takes next. -/
def next : Option PendingResponse := s.aggregator.sent[s.answers.length]?

def answer (pending : PendingResponse) : Answer where
  pending := pending
  targetBar := Pair.targetBar c.analysis.gapAllow s.aggregator.state.opiBarHistory pending
  row := buildResponseFromHistory c.ln c.analysis s.aggregator.state.opiBarHistory pending
    pending.target

def step : ResponseEvent → Option ResponseSystem
  | .shard i env message copies =>
    if c.Routes i message then
      let worker := (s.shards i).handle env message
      some { s with
        shards := Function.update s.shards i worker
        channel := s.channel ++ newInputs (s.shards i) worker copies }
    else none
  | .arrive =>
    match s.channel with
    | [] => none
    | input :: rest => take c { s with channel := rest } (.tokenBar input)
  | .shock shock env => s.take c (.shock shock env)
  | .tick barSecond clock accepts => s.take c (.tick barSecond clock accepts)
  | .work => s.next.map fun pending => { s with answers := s.answers ++ [s.answer c pending] }

/-- All bars of a token that its shard has sent. -/
def emittedOf (tokenKey : String) : List Bars1sToken :=
  (s.shards (c.shardOf tokenKey)).barsOf tokenKey

end ResponseSystem

/-- Shards, aggregator and worker in any order. -/
def responseMachine (c : ResponseSetup) : Machine ResponseSystem ResponseEvent where
  init s := ∃ opiTokenMap pmTokenMap, s = ResponseSystem.start c opiTokenMap pmTokenMap
  step := ResponseSystem.step c

/-! ## What is in the channel and in the histories -/

/-- The token bars among the messages. -/
def storedBars (es : List PendingEvent) : List HistoryBar :=
  es.filterMap fun
    | .tokenBar bar => some bar
    | _ => none

theorem opiBars_eq_filter (tokenKey : String) (es : List PendingEvent) :
    opiBars tokenKey es =
      (storedBars es).filter fun bar => decide (bar.venue = .opinion ∧ bar.tokenKey = tokenKey) := by
  induction es with
  | nil => rfl
  | cons e es ih =>
    cases e with
    | tokenBar bar =>
      show List.filterMap _ _ = List.filter _ (bar :: storedBars es)
      rw [List.filter_cons, ← ih]
      by_cases hbar : bar.venue = .opinion ∧ bar.tokenKey = tokenKey
      · rw [if_pos (decide_eq_true hbar)]
        simp [opiBars, hbar]
      · rw [if_neg (by simpa using hbar)]
        simp [opiBars, hbar]
    | shock shock env => exact ih
    | tick barSecond clock accepts => exact ih

/-- Bars of one token come in time order. -/
def ByToken (a b : HistoryBar) : Prop := a.tokenKey = b.tokenKey → a.barSecond ≤ b.barSecond

namespace ResponseSystem

/-- The token bars that were ever put into the channel. -/
def sentInputs (s : ResponseSystem) : List HistoryBar := storedBars s.inbox ++ s.channel

end ResponseSystem

structure ResponseInv (c : ResponseSetup) (s : ResponseSystem) : Prop where
  reachable : ∀ i, (shardMachine c.shardConfig).Reachable (s.shards i)
  routed : ∀ i tokenKey, c.shardOf tokenKey ≠ i → (s.shards i).track tokenKey = TokenTrack.start
  aggregator : ∃ opiTokenMap pmTokenMap,
    (pendingMachine c.captureEnabled c.analysis.gapAllow).run
      (PendingSystem.start opiTokenMap pmTokenMap) s.inbox = some s.aggregator
  copies : ∀ input ∈ s.sentInputs, ∃ bar ∈ s.emittedOf c input.tokenKey, IsInputOf input bar
  order : s.sentInputs.Pairwise ByToken

section Invariant

variable {c : ResponseSetup} {s s' : ResponseSystem}

theorem responseInv_start (c : ResponseSetup) (opiTokenMap pmTokenMap : PairKey → Option String) :
    ResponseInv c (ResponseSystem.start c opiTokenMap pmTokenMap) where
  reachable _ := ⟨ShardWorker.start c.shardConfig, [], rfl, rfl⟩
  routed _ _ _ := rfl
  aggregator := ⟨opiTokenMap, pmTokenMap, rfl⟩
  copies := List.forall_mem_nil _
  order := List.Pairwise.nil

/-- The bars of one token that a shard sends are in time order. -/
theorem emitted_inOrder {cfg : ShardConfig} {worker : ShardWorker}
    (h : (shardMachine cfg).Reachable worker) :
    worker.emitted.Pairwise fun a b => a.tokenKey = b.tokenKey → a.barSecond < b.barSecond := by
  have hall : ∀ tokenKey, (worker.emitted.filter fun bar => decide (bar.tokenKey = tokenKey)).Pairwise
      fun a b => a.barSecond < b.barSecond := by
    intro tokenKey
    exact List.pairwise_map.mp (Shard.barsFollow_of_reachable h tokenKey).increasing
  generalize worker.emitted = bars at hall
  induction bars with
  | nil => exact List.Pairwise.nil
  | cons bar bars ih =>
    refine List.Pairwise.cons ?_ (ih fun tokenKey => ?_)
    · intro b hb hkey
      have hfirst := hall bar.tokenKey
      rw [List.filter_cons_of_pos (by simp)] at hfirst
      exact (List.pairwise_cons.mp hfirst).1 b (List.mem_filter.mpr ⟨hb, by simp [hkey]⟩)
    · exact (hall tokenKey).sublist ((List.sublist_cons_self bar bars).filter _)

theorem responseInv_shard (h : ResponseInv c s) {i : ℕ} {env : ShardEnv} {message : ShardMessage}
    {copies : Bars1sToken → List (ℤ × Option ℤ)} (hroute : c.Routes i message) :
    ResponseInv c { s with
      shards := Function.update s.shards i ((s.shards i).handle env message)
      channel := s.channel ++ ResponseSystem.newInputs (s.shards i)
        ((s.shards i).handle env message) copies } := by
  obtain ⟨-, hnodup⟩ := Shard.worker_of_reachable (h.reachable i)
  have hreach := Shard.reachable_step (h.reachable i) env message
  obtain ⟨bars, hbars⟩ := (s.shards i).emitted_handle env message
  have htrack := fun tokenKey => (s.shards i).track_handle env message tokenKey hnodup
  have horder := emitted_inOrder hreach
  rw [hbars, List.pairwise_append] at horder
  -- the shard of a token keeps what it has sent
  have hkept : ∀ tokenKey, ∀ bar ∈ s.emittedOf c tokenKey,
      bar ∈ (Function.update s.shards i ((s.shards i).handle env message)
        (c.shardOf tokenKey)).barsOf tokenKey := by
    intro tokenKey bar hbar
    by_cases hi : c.shardOf tokenKey = i
    · unfold ResponseSystem.emittedOf at hbar
      rw [hi] at hbar
      rw [hi, Function.update_self]
      unfold ShardWorker.barsOf at hbar ⊢
      rw [hbars, List.filter_append]
      exact List.mem_append_left _ hbar
    · rw [Function.update_of_ne hi]
      exact hbar
  have hroute' : ∀ tokenKey, c.shardOf tokenKey ≠ i →
      ((s.shards i).handle env message).track tokenKey = TokenTrack.start := by
    intro tokenKey hne
    rw [htrack, h.routed i tokenKey hne]
    cases message with
    | event event =>
      have hother : event.tokenKey ≠ tokenKey := by
        rintro rfl
        exact hne hroute
      simp only [TokenTrack.handle, if_neg hother]
    | tick barSecond => rfl
  -- a shard only sends bars of its own tokens
  have hown : ∀ bar ∈ bars, c.shardOf bar.tokenKey = i ∧
      bar ∈ ((s.shards i).handle env message).barsOf bar.tokenKey := by
    intro bar hbar
    have hmem : bar ∈ ((s.shards i).handle env message).barsOf bar.tokenKey := by
      unfold ShardWorker.barsOf
      rw [hbars]
      exact List.mem_filter.mpr ⟨List.mem_append_right _ hbar, by simp⟩
    refine ⟨?_, hmem⟩
    by_contra hi
    have hnone : ((s.shards i).handle env message).barsOf bar.tokenKey = [] :=
      congrArg TokenTrack.bars (hroute' bar.tokenKey hi)
    rw [hnone] at hmem
    cases hmem
  have hinputs : ResponseSystem.newInputs (s.shards i) ((s.shards i).handle env message) copies =
      bars.flatMap fun bar => (copies bar).map fun copy => inputOf copy.1 copy.2 bar := by
    unfold ResponseSystem.newInputs
    rw [hbars, List.drop_left]
  have hsent : ResponseSystem.sentInputs { s with
      shards := Function.update s.shards i ((s.shards i).handle env message)
      channel := s.channel ++ ResponseSystem.newInputs (s.shards i)
        ((s.shards i).handle env message) copies } =
      s.sentInputs ++ bars.flatMap fun bar =>
        (copies bar).map fun copy => inputOf copy.1 copy.2 bar := by
    unfold ResponseSystem.sentInputs
    rw [← hinputs, List.append_assoc]
  have hcopy : ∀ input ∈ bars.flatMap (fun bar =>
      (copies bar).map fun copy => inputOf copy.1 copy.2 bar),
      ∃ bar ∈ bars, IsInputOf input bar := by
    intro input hinput
    obtain ⟨bar, hbar, hinput⟩ := List.mem_flatMap.mp hinput
    obtain ⟨copy, -, rfl⟩ := List.mem_map.mp hinput
    exact ⟨bar, hbar, copy.1, copy.2, rfl⟩
  refine ⟨?_, ?_, h.aggregator, ?_, ?_⟩
  · intro j
    by_cases hj : j = i
    · subst hj
      simpa only [Function.update_self] using hreach
    · simpa only [Function.update_of_ne hj] using h.reachable j
  · intro j tokenKey hne
    by_cases hj : j = i
    · subst hj
      simpa only [Function.update_self] using hroute' tokenKey hne
    · simpa only [Function.update_of_ne hj] using h.routed j tokenKey hne
  · intro input hinput
    rw [hsent] at hinput
    rcases List.mem_append.mp hinput with hold | hinput
    · obtain ⟨bar, hbar, hcopied⟩ := h.copies input hold
      exact ⟨bar, hkept _ bar hbar, hcopied⟩
    · obtain ⟨bar, hbar, pairId, obsLatency, rfl⟩ := hcopy input hinput
      obtain ⟨hi, hmem⟩ := hown bar hbar
      refine ⟨bar, ?_, pairId, obsLatency, rfl⟩
      show bar ∈ (Function.update s.shards i _ (c.shardOf bar.tokenKey)).barsOf bar.tokenKey
      rw [hi, Function.update_self]
      exact hmem
  · rw [hsent, List.pairwise_append, List.pairwise_flatMap]
    refine ⟨h.order, ⟨?_, ?_⟩, ?_⟩
    · -- the copies of one bar
      intro bar _
      refine List.pairwise_of_forall_mem_list fun a ha b hb _ => ?_
      obtain ⟨copy, -, rfl⟩ := List.mem_map.mp ha
      obtain ⟨copy', -, rfl⟩ := List.mem_map.mp hb
      exact le_refl bar.barSecond
    · refine horder.2.1.imp fun hlt a ha b hb hkey => ?_
      obtain ⟨copy, -, rfl⟩ := List.mem_map.mp ha
      obtain ⟨copy', -, rfl⟩ := List.mem_map.mp hb
      exact (hlt hkey).le
    · intro a ha b hb hkey
      obtain ⟨old, hold, pairId, obsLatency, rfl⟩ := h.copies a ha
      obtain ⟨bar, hbar, pairId', obsLatency', rfl⟩ := hcopy b hb
      have hsame : old.tokenKey = bar.tokenKey := hkey
      have hi : c.shardOf old.tokenKey = i := by
        rw [hsame]
        exact (hown bar hbar).1
      have hmem : old ∈ (s.shards i).emitted := by
        have hfilter : old ∈ (s.shards (c.shardOf old.tokenKey)).emitted :=
          List.mem_of_mem_filter hold
        rwa [hi] at hfilter
      exact (horder.2.2 old hmem bar hbar hsame).le

/-- Nothing but the aggregator's own state changes when it takes a message. -/
theorem take_eq_some {e : PendingEvent} (hs : s.take c e = some s') :
    ∃ aggregator, s.aggregator.step c.captureEnabled c.analysis.gapAllow e = some aggregator ∧
      s' = { s with aggregator := aggregator, inbox := s.inbox ++ [e] } := by
  obtain ⟨aggregator, hstep, rfl⟩ := Option.map_eq_some_iff.mp hs
  exact ⟨aggregator, hstep, rfl⟩

theorem step_shard {i : ℕ} {env : ShardEnv} {message : ShardMessage}
    {copies : Bars1sToken → List (ℤ × Option ℤ)}
    (hs : s.step c (.shard i env message copies) = some s') :
    c.Routes i message ∧ s' = { s with
      shards := Function.update s.shards i ((s.shards i).handle env message)
      channel := s.channel ++ ResponseSystem.newInputs (s.shards i)
        ((s.shards i).handle env message) copies } := by
  simp only [ResponseSystem.step] at hs
  split at hs
  · rename_i hroute
    cases hs
    exact ⟨hroute, rfl⟩
  · cases hs

theorem step_arrive (hs : s.step c .arrive = some s') :
    ∃ input rest, s.channel = input :: rest ∧
      ResponseSystem.take c { s with channel := rest } (.tokenBar input) = some s' := by
  simp only [ResponseSystem.step] at hs
  cases hchannel : s.channel with
  | nil =>
    rw [hchannel] at hs
    cases hs
  | cons input rest =>
    rw [hchannel] at hs
    exact ⟨input, rest, rfl, hs⟩

/-- A message that the aggregator takes leaves the other invariants as they are, as long as no
token bar is lost or made up. -/
theorem responseInv_take (h : ResponseInv c s) {e : PendingEvent} {channel : List HistoryBar}
    (hchannel : storedBars (s.inbox ++ [e]) ++ channel = s.sentInputs)
    (hs : ResponseSystem.take c { s with channel := channel } e = some s') :
    ResponseInv c s' := by
  obtain ⟨aggregator, hstep, rfl⟩ := take_eq_some hs
  refine ⟨h.reachable, h.routed, ?_, ?_, ?_⟩
  · obtain ⟨opiTokenMap, pmTokenMap, hr⟩ := h.aggregator
    refine ⟨opiTokenMap, pmTokenMap, ?_⟩
    show (pendingMachine _ _).run _ (s.inbox ++ [e]) = some aggregator
    rw [Machine.run_append, hr, Option.bind_some, Machine.run_cons]
    have hone : (pendingMachine c.captureEnabled c.analysis.gapAllow).step s.aggregator e =
        some aggregator := hstep
    rw [hone]
    rfl
  · intro input hinput
    exact h.copies input (hchannel ▸ hinput)
  · show (storedBars (s.inbox ++ [e]) ++ channel).Pairwise ByToken
    rw [hchannel]
    exact h.order

theorem storedBars_append (es : List PendingEvent) (e : PendingEvent) :
    storedBars (es ++ [e]) = storedBars es ++ storedBars [e] := List.filterMap_append

theorem responseInv_step (h : ResponseInv c s) {e : ResponseEvent}
    (hs : (responseMachine c).step s e = some s') : ResponseInv c s' := by
  change s.step c e = some s' at hs
  cases e with
  | shard i env message copies =>
    obtain ⟨hroute, rfl⟩ := step_shard hs
    exact responseInv_shard h hroute
  | arrive =>
    obtain ⟨input, rest, hchannel, htake⟩ := step_arrive hs
    refine responseInv_take h ?_ htake
    rw [storedBars_append, List.append_assoc]
    show storedBars s.inbox ++ (input :: rest) = _
    rw [← hchannel]
    rfl
  | shock shock env =>
    refine @responseInv_take c s s' h (.shock shock env) s.channel ?_ hs
    rw [storedBars_append]
    exact congrArg (· ++ s.channel) (List.append_nil _)
  | tick barSecond clock accepts =>
    refine @responseInv_take c s s' h (.tick barSecond clock accepts) s.channel ?_ hs
    rw [storedBars_append]
    exact congrArg (· ++ s.channel) (List.append_nil _)
  | work =>
    obtain ⟨pending, -, rfl⟩ := Option.map_eq_some_iff.mp hs
    exact ⟨h.reachable, h.routed, h.aggregator, h.copies, h.order⟩

theorem responseInv_run {es : List ResponseEvent} (h : ResponseInv c s)
    (hr : (responseMachine c).run s es = some s') : ResponseInv c s' :=
  (responseMachine c).inv_of_runMeets (ResponseInv c)
    (fun _ _ _ hi _ hstep => responseInv_step hi hstep) h
    ((responseMachine c).runMeets_trivial s es) hr

/-! ## What later steps leave alone -/

/-- Bars that were sent stay sent, and answers stay as they are. -/
structure Extends (c : ResponseSetup) (s s' : ResponseSystem) : Prop where
  emitted : ∀ tokenKey, ∃ bars, s'.emittedOf c tokenKey = s.emittedOf c tokenKey ++ bars
  answers : ∃ answers, s'.answers = s.answers ++ answers

theorem extends_refl (c : ResponseSetup) (s : ResponseSystem) : Extends c s s :=
  ⟨fun _ => ⟨[], (List.append_nil _).symm⟩, [], (List.append_nil _).symm⟩

theorem Extends.trans {s'' : ResponseSystem} (h : Extends c s s') (h' : Extends c s' s'') :
    Extends c s s'' := by
  refine ⟨fun tokenKey => ?_, ?_⟩
  · obtain ⟨bars, hbars⟩ := h.emitted tokenKey
    obtain ⟨bars', hbars'⟩ := h'.emitted tokenKey
    exact ⟨bars ++ bars', by rw [hbars', hbars, List.append_assoc]⟩
  · obtain ⟨answers, hanswers⟩ := h.answers
    obtain ⟨answers', hanswers'⟩ := h'.answers
    exact ⟨answers ++ answers', by rw [hanswers', hanswers, List.append_assoc]⟩

theorem extends_step {e : ResponseEvent} (hs : (responseMachine c).step s e = some s') :
    Extends c s s' := by
  change s.step c e = some s' at hs
  have htake : ∀ {e : PendingEvent} {channel : List HistoryBar} {s' : ResponseSystem},
      ResponseSystem.take c { s with channel := channel } e = some s' → Extends c s s' := by
    intro e channel s' hs
    obtain ⟨aggregator, -, rfl⟩ := take_eq_some hs
    exact ⟨fun _ => ⟨[], (List.append_nil _).symm⟩, [], (List.append_nil _).symm⟩
  cases e with
  | shard i env message copies =>
    obtain ⟨-, rfl⟩ := step_shard hs
    refine ⟨fun tokenKey => ?_, [], (List.append_nil _).symm⟩
    unfold ResponseSystem.emittedOf
    by_cases hi : c.shardOf tokenKey = i
    · obtain ⟨bars, hbars⟩ := (s.shards i).emitted_handle env message
      simp only
      rw [hi, Function.update_self]
      unfold ShardWorker.barsOf
      rw [hbars, List.filter_append]
      exact ⟨_, rfl⟩
    · simp only
      rw [Function.update_of_ne hi]
      exact ⟨[], (List.append_nil _).symm⟩
  | arrive =>
    obtain ⟨input, rest, -, hs⟩ := step_arrive hs
    exact htake hs
  | shock shock env => exact @htake (.shock shock env) s.channel s' hs
  | tick barSecond clock accepts => exact @htake (.tick barSecond clock accepts) s.channel s' hs
  | work =>
    obtain ⟨pending, -, rfl⟩ := Option.map_eq_some_iff.mp hs
    exact ⟨fun _ => ⟨[], (List.append_nil _).symm⟩, _, rfl⟩

theorem extends_run {es : List ResponseEvent} (hr : (responseMachine c).run s es = some s') :
    Extends c s s' :=
  (responseMachine c).inv_of_runMeets (Extends c s)
    (fun _ _ _ hi _ hstep => hi.trans (extends_step hstep)) (extends_refl c s)
    ((responseMachine c).runMeets_trivial s es) hr

/-! ## When a response is computed from the right bar -/

/-- The bar is the latest up to a second among those of a token, or there is none. -/
def UsesLatest (bars : List Bars1sToken) (second : ℤ) (used : Option HistoryBar) : Prop :=
  (∃ bar ∈ bars, bar.barSecond ≤ second ∧
      (∀ other ∈ bars, other.barSecond ≤ second → other.barSecond ≤ bar.barSecond) ∧
      ∃ input, used = some input ∧ IsInputOf input bar) ∨
    (∀ bar ∈ bars, second < bar.barSecond) ∧ used = none

/-- The bar of the second has come from the shard and is one of the last 600, or the token's
bars begin after the second. -/
def TargetKept (c : ResponseSetup) (s : ResponseSystem) (tokenKey : String) (second : ℤ) : Prop :=
  (∃ bar ∈ opiBars tokenKey s.inbox, bar.barSecond = second) ∧
      ((opiBars tokenKey s.inbox).filter fun bar => decide (second < bar.barSecond)).length <
        historyCap ∨
    ∀ bar ∈ s.emittedOf c tokenKey, second < bar.barSecond

/-- What the history of a token holds. -/
structure KnownHistory (c : ResponseSetup) (s : ResponseSystem) (tokenKey : String)
    (history : History) : Prop where
  sorted : history.Pairwise fun a b => a.barSecond ≤ b.barSecond
  stored : ∀ second, (∃ bar ∈ history, bar.barSecond = second) ↔
    (∃ bar ∈ opiBars tokenKey s.inbox, bar.barSecond = second) ∧
      ((opiBars tokenKey s.inbox).filter fun bar => decide (second < bar.barSecond)).length <
        historyCap
  copies : ∀ bar ∈ history, ∃ sent ∈ s.emittedOf c tokenKey, IsInputOf bar sent
  nonempty : s.emittedOf c tokenKey ≠ []

theorem knownHistory_of_inv (h : ResponseInv c s) {tokenKey : String} {history : History}
    (hhistory : s.aggregator.state.opiBarHistory tokenKey = some history) :
    KnownHistory c s tokenKey history := by
  obtain ⟨opiTokenMap, pmTokenMap, hr⟩ := h.aggregator
  rw [opiBarHistory_run hr tokenKey] at hhistory
  unfold historyOf at hhistory
  split at hhistory
  · cases hhistory
  · rename_i hne
    cases hhistory
    have hmem : ∀ bar ∈ opiBars tokenKey s.inbox, bar ∈ s.sentInputs ∧ bar.tokenKey = tokenKey := by
      intro bar hbar
      rw [opiBars_eq_filter] at hbar
      obtain ⟨hstored, hkey⟩ := List.mem_filter.mp hbar
      exact ⟨List.mem_append_left _ hstored, (of_decide_eq_true hkey).2⟩
    have hcopies : ∀ bar ∈ opiBars tokenKey s.inbox,
        ∃ sent ∈ s.emittedOf c tokenKey, IsInputOf bar sent := by
      intro bar hbar
      obtain ⟨hsent, hkey⟩ := hmem bar hbar
      rw [← hkey]
      exact h.copies bar hsent
    have hsorted : (opiBars tokenKey s.inbox).Pairwise fun a b => a.barSecond ≤ b.barSecond := by
      have hall : (opiBars tokenKey s.inbox).Pairwise ByToken := by
        rw [opiBars_eq_filter]
        exact (List.pairwise_append.mp h.order).1.sublist List.filter_sublist
      refine hall.imp_of_mem fun ha hb hab => hab ?_
      rw [(hmem _ ha).2, (hmem _ hb).2]
    refine ⟨?_, fun second => stored_iff hsorted, ?_, ?_⟩
    · rw [foldl_storeBar]
      exact hsorted.sublist (List.drop_sublist _ _)
    · intro bar hbar
      rw [foldl_storeBar] at hbar
      exact hcopies bar (List.mem_of_mem_drop hbar)
    · obtain ⟨bar, hbar⟩ := List.exists_mem_of_ne_nil _ hne
      obtain ⟨sent, hsent, -⟩ := hcopies bar hbar
      exact List.ne_nil_of_mem hsent

/-- The entry that the worker takes next is answered from the history at that time. -/
theorem answer_of_work {pending : PendingResponse} (hnext : s.next = some pending)
    {later : List ResponseEvent}
    (hr : (responseMachine c).run s (.work :: later) = some s') :
    s'.answers[s.answers.length]? = some (s.answer c pending) := by
  obtain ⟨t, ht, hrest⟩ := (responseMachine c).run_cons_eq_some hr
  have hstep : t = { s with answers := s.answers ++ [s.answer c pending] } := by
    change s.next.map _ = some t at ht
    rw [hnext] at ht
    exact (Option.some.inj ht).symm
  obtain ⟨answers, hanswers⟩ := (extends_run hrest).answers
  rw [hanswers, hstep]
  simp

/-- What was kept in time is what is used, whatever is sent later. -/
theorem usesLatest_of_targetKept {tokenKey : String} {history : History} {second : ℤ}
    (hknown : KnownHistory c s tokenKey history) (hkept : TargetKept c s tokenKey second)
    (hinv : ResponseInv c s') (hext : Extends c s s') (gapAllow : ℕ) :
    UsesLatest (s'.emittedOf c tokenKey) second (findBarWithLookback history second gapAllow) := by
  obtain ⟨bars, hbars⟩ := hext.emitted tokenKey
  rcases hkept with hstored | hlater
  · left
    obtain ⟨bar, hfound, hsecond⟩ := findBarWithLookback_of_stored hknown.sorted gapAllow
      ((hknown.stored second).mpr hstored)
    obtain ⟨sent, hsent, hcopy⟩ := hknown.copies bar (findBarWithLookback_mem hfound).1
    have hsame : sent.barSecond = second := by
      obtain ⟨pairId, obsLatency, rfl⟩ := hcopy
      exact hsecond
    refine ⟨sent, ?_, hsame.le, fun other _ hle => hle.trans hsame.ge, bar, hfound, hcopy⟩
    rw [hbars]
    exact List.mem_append_left _ hsent
  · right
    constructor
    · -- what is sent later is later still
      have hincreasing := (Shard.barsFollow_of_reachable
        (hinv.reachable (c.shardOf tokenKey)) tokenKey).increasing
      have hall : (s.emittedOf c tokenKey ++ bars).Pairwise
          fun a b => a.barSecond < b.barSecond := by
        rw [← hbars]
        exact List.pairwise_map.mp hincreasing
      obtain ⟨first, hfirst⟩ := List.exists_mem_of_ne_nil _ hknown.nonempty
      intro bar hbar
      rw [hbars] at hbar
      rcases List.mem_append.mp hbar with hold | hnew
      · exact hlater bar hold
      · have hlt := (List.pairwise_append.mp hall).2.2 first hfirst bar hnew
        exact (hlater first hfirst).trans hlt
    · cases hfound : findBarWithLookback history second gapAllow with
      | none => rfl
      | some bar =>
        obtain ⟨hmem, hle⟩ := findBarWithLookback_mem hfound
        obtain ⟨sent, hsent, pairId, obsLatency, rfl⟩ := hknown.copies bar hmem
        have hlt := hlater sent hsent
        have hle' : sent.barSecond ≤ second := hle
        omega

/-- An event that arrives two seconds later makes the shard send the second. -/
def eventAfter (tokenKey : String) (second : ℤ) : Event where
  venue := .opinion
  tokenKey := tokenKey
  kind := .health
  channel := none
  exchangeTsMs := (second + 2) * 1000
  localTsMs := (second + 2) * 1000
  exchangeTsSource := .venueWs
  flags := EventFlags.none
  payload := EventPayload.empty

/-- The shard can always send a second, if it has sent any. -/
theorem exists_flushed (h : ResponseInv c s) {tokenKey : String}
    (hne : s.emittedOf c tokenKey ≠ []) (second : ℤ) :
    ∃ e s', (responseMachine c).step s e = some s' ∧
      ((∃ bar ∈ s'.emittedOf c tokenKey, bar.barSecond = second) ∨
        ∀ bar ∈ s'.emittedOf c tokenKey, second < bar.barSecond) := by
  have hfollow := Shard.barsFollow_of_reachable (h.reachable (c.shardOf tokenKey)) tokenKey
  unfold TokenTrack.BarsFollow at hfollow
  split at hfollow
  · have hnil : s.emittedOf c tokenKey = [] := hfollow
    exact absurd hnil hne
  · rename_i st hstate
    have hclock := (hfollow.begun hne).1
    obtain ⟨st', hstate', hflushed⟩ := Shard.ShardWorker.flushed_after_event Shard.calmEnv
      (h.reachable (c.shardOf tokenKey)) (eventAfter tokenKey second) hstate hclock
    have hreach := Shard.reachable_step (h.reachable (c.shardOf tokenKey)) Shard.calmEnv
      (.event (eventAfter tokenKey second))
    have hsecond : (eventAfter tokenKey second).barSecond = second + 2 :=
      Int.mul_tdiv_cancel _ (by decide)
    refine ⟨.shard (c.shardOf tokenKey) Shard.calmEnv (.event (eventAfter tokenKey second))
      fun _ => [], _, if_pos rfl, ?_⟩
    have hfollow' := Shard.barsFollow_of_reachable hreach tokenKey
    have htrack : (((s.shards (c.shardOf tokenKey)).handle Shard.calmEnv
        (.event (eventAfter tokenKey second))).track tokenKey).state = some st' := hstate'
    unfold TokenTrack.BarsFollow at hfollow'
    rw [htrack] at hfollow'
    rw [hsecond] at hflushed
    have hle : second ≤ st'.lastFlushedSecond := by
      have hbuffer : lateEventBufferSecs = 2 := rfl
      omega
    have hbars := hfollow'.bar_of_le hle
    unfold ResponseSystem.emittedOf
    simp only [Function.update_self]
    exact hbars

/-- For a response of any run: whatever happens later, it was computed from the latest bar of
its token up to the target second among all that the shard ever sends, just in case the bar of
the target second was stored when the worker took the entry, or the token's bars begin after
it. -/
theorem response_uses_latest_iff {opiTokenMap pmTokenMap : PairKey → Option String}
    {es : List ResponseEvent} {pending : PendingResponse} {tokenKey : String}
    {row : OpinionResponseRow}
    (hr : (responseMachine c).run (ResponseSystem.start c opiTokenMap pmTokenMap) es = some s)
    (hnext : s.next = some pending) (htoken : pending.opiTokenKey = some tokenKey)
    (hrow : (s.answer c pending).row = some row) :
    (∀ later s', (responseMachine c).run s (.work :: later) = some s' →
        ∀ answer ∈ s'.answers[s.answers.length]?,
          UsesLatest (s'.emittedOf c tokenKey) pending.target answer.targetBar) ↔
      TargetKept c s tokenKey pending.target := by
  have hinv := responseInv_run (responseInv_start c opiTokenMap pmTokenMap) hr
  obtain ⟨history, hhistory⟩ : ∃ history,
      s.aggregator.state.opiBarHistory tokenKey = some history := by
    have hbuilt : buildResponseFromHistory c.ln c.analysis s.aggregator.state.opiBarHistory pending
        pending.target = some row := hrow
    unfold buildResponseFromHistory at hbuilt
    rw [htoken, Option.bind_some] at hbuilt
    obtain ⟨history, hhistory, -⟩ := Option.map_eq_some_iff.mp hbuilt
    exact ⟨history, hhistory⟩
  have hknown := knownHistory_of_inv hinv hhistory
  have hused : (s.answer c pending).targetBar =
      findBarWithLookback history pending.target c.analysis.gapAllow := by
    show targetBar _ _ pending = _
    unfold targetBar
    rw [htoken, Option.bind_some, hhistory, Option.bind_some]
  constructor
  · intro hlatest
    -- let the worker take the entry, then the shard sends the target second
    obtain ⟨t, ht⟩ : ∃ t, (responseMachine c).step s .work = some t := by
      refine ⟨{ s with answers := s.answers ++ [s.answer c pending] }, ?_⟩
      show s.next.map _ = _
      rw [hnext]
      rfl
    have hinv' := responseInv_step hinv ht
    have hext := extends_step ht
    have hne : t.emittedOf c tokenKey ≠ [] := by
      obtain ⟨bars, hbars⟩ := hext.emitted tokenKey
      rw [hbars]
      exact List.append_ne_nil_of_left_ne_nil hknown.nonempty bars
    obtain ⟨e, s', hs', hflushed⟩ := exists_flushed hinv' hne pending.target
    have hrun : (responseMachine c).run s [.work, e] = some s' := by
      rw [Machine.run_cons, ht, Option.bind_some, Machine.run_cons, hs']
      rfl
    have huses := hlatest [e] s' hrun (s.answer c pending)
      (Option.mem_def.mpr (answer_of_work hnext hrun))
    rw [hused] at huses
    rcases hflushed with ⟨bar, hbar, hsecond⟩ | hlater
    · left
      rcases huses with ⟨latest, -, hle, hmost, input, hfound, hcopy⟩ | ⟨hnone, -⟩
      · have hge := hmost bar hbar hsecond.le
        refine (hknown.stored pending.target).mp ⟨input, (findBarWithLookback_mem hfound).1, ?_⟩
        obtain ⟨pairId, obsLatency, rfl⟩ := hcopy
        show latest.barSecond = pending.target
        omega
      · have hlt := hnone bar hbar
        omega
    · right
      obtain ⟨bars, hbars⟩ := (hext.trans (extends_step hs')).emitted tokenKey
      intro bar hbar
      apply hlater
      rw [hbars]
      exact List.mem_append_left _ hbar
  · intro hkept later s' hrun answer hanswer
    rw [answer_of_work hnext hrun] at hanswer
    obtain rfl := Option.some.inj hanswer
    rw [hused]
    exact usesLatest_of_targetKept hknown hkept (responseInv_run hinv hrun) (extends_run hrun) _

end Invariant

/-! ## Two runs -/

/-- One shard, and a gap of two seconds. -/
def oneShard : ResponseSetup where
  shardConfig := Shard.exampleConfig
  shardOf _ := 0
  captureEnabled := true
  analysis := ⟨2, 1000, 0⟩
  ln x := x

/-- The shard handles a message; its token belongs to one pair. -/
def shardStep (message : ShardMessage) : ResponseEvent :=
  .shard 0 { Shard.calmEnv with tokenSides := fun _ => some .yes } message fun _ => [(7, none)]

/-- An event of the Opinion token. -/
def opiEvent (tsMs : ℤ) : ResponseEvent :=
  shardStep (.event (Shard.eventAt .opinion .lastPrice { EventPayload.empty with price := some 1 }
    tsMs))

/-- A shock at second 100 while the shard is at second 109. -/
def shockAt100 : List ResponseEvent :=
  [opiEvent 100200, opiEvent 109300] ++ List.replicate 8 .arrive ++
    [.shock ⟨5, 7, .yes, 100, none⟩ ⟨⟨0, 0, none, 0⟩, none, none⟩]

def start : ResponseSystem := ResponseSystem.start oneShard (fun _ => none) fun _ => none

/-- The tick of second 110 reaches the shard and the aggregator. -/
def tick110 : List ResponseEvent :=
  [shardStep (.tick 110), .arrive, .tick 110 100 fun _ => true]

/-- The shard is at second 112 before the aggregator sees the tick. -/
def tickAfterBars : List ResponseEvent :=
  [opiEvent 112100, .arrive, .arrive, .arrive, .tick 110 100 fun _ => true]

/-- What a sequence of steps leads to. -/
def endOfResponses (es : List ResponseEvent) : Option ResponseSystem :=
  (responseMachine oneShard).run start es

/-- With all bars up to the target stored, the response uses the right one whatever follows. -/
theorem response_uses_latest_in_time :
    ∃ s, endOfResponses (shockAt100 ++ tickAfterBars) = some s ∧
      ∀ later s', (responseMachine oneShard).run s (.work :: later) = some s' →
        ∀ answer ∈ s'.answers[s.answers.length]?,
          UsesLatest (s'.emittedOf oneShard "token") 110 answer.targetBar := by
  obtain ⟨s, hs⟩ : ∃ s, endOfResponses (shockAt100 ++ tickAfterBars) = some s :=
    Option.isSome_iff_exists.mp (by decide +kernel)
  have hentry : ∀ s ∈ endOfResponses (shockAt100 ++ tickAfterBars), s.next.isSome = true ∧
      ∀ pending ∈ s.next, pending.opiTokenKey = some "token" ∧ pending.target = 110 ∧
        (s.answer oneShard pending).row.isSome = true := by
    decide +kernel
  have hstored : ∀ s ∈ endOfResponses (shockAt100 ++ tickAfterBars),
      (∃ bar ∈ opiBars "token" s.inbox, bar.barSecond = 110) ∧
        ((opiBars "token" s.inbox).filter fun bar => decide (110 < bar.barSecond)).length <
          historyCap := by
    decide +kernel
  obtain ⟨hsome, hpending⟩ := hentry s hs
  obtain ⟨pending, hnext⟩ := Option.isSome_iff_exists.mp hsome
  obtain ⟨htoken, htarget, hrow⟩ := hpending pending hnext
  obtain ⟨row, hrow⟩ := Option.isSome_iff_exists.mp hrow
  have hkept : TargetKept oneShard s "token" pending.target := by
    rw [htarget]
    exact Or.inl (hstored s hs)
  refine ⟨s, hs, ?_⟩
  rw [← htarget]
  exact (response_uses_latest_iff hs hnext htoken hrow).mpr hkept

/-- The response that is due at second 110 is computed from the bar of second 108, and then the
shard sends the bars of 109 and 110. -/
theorem response_ahead_of_shard :
    ∃ s s', endOfResponses (shockAt100 ++ tick110) = some s ∧
      (responseMachine oneShard).run s [.work, opiEvent 112100] = some s' ∧
      ∃ answer ∈ s'.answers[s.answers.length]?, answer.pending.target = 110 ∧
        answer.row.isSome = true ∧ answer.targetBar.map (·.barSecond) = some 108 ∧
        ¬ UsesLatest (s'.emittedOf oneShard "token") answer.pending.target answer.targetBar := by
  obtain ⟨s, hs⟩ : ∃ s, endOfResponses (shockAt100 ++ tick110) = some s :=
    Option.isSome_iff_exists.mp (by decide +kernel)
  have hall : ∀ s ∈ endOfResponses (shockAt100 ++ tick110),
      ((responseMachine oneShard).run s [.work, opiEvent 112100]).isSome = true ∧
      ∀ s' ∈ (responseMachine oneShard).run s [.work, opiEvent 112100],
        (s'.answers[s.answers.length]?).isSome = true ∧
        ∀ answer ∈ s'.answers[s.answers.length]?, answer.pending.target = 110 ∧
          answer.row.isSome = true ∧ answer.targetBar.map (·.barSecond) = some 108 ∧
          ∃ bar ∈ s'.emittedOf oneShard "token", bar.barSecond = 110 := by
    decide +kernel
  obtain ⟨hrun, hall⟩ := hall s hs
  obtain ⟨s', hs'⟩ := Option.isSome_iff_exists.mp hrun
  obtain ⟨hanswer, hall⟩ := hall s' hs'
  obtain ⟨answer, hanswer⟩ := Option.isSome_iff_exists.mp hanswer
  obtain ⟨htarget, hrow, hused, bar, hbar, hsecond⟩ := hall answer hanswer
  refine ⟨s, s', hs, hs', answer, hanswer, htarget, hrow, hused, ?_⟩
  rw [htarget]
  rintro (⟨latest, -, -, hmost, input, hinput, pairId, obsLatency, rfl⟩ | ⟨hnone, -⟩)
  · -- the latest bar would be that of second 110
    have hge := hmost bar hbar hsecond.le
    rw [hinput, Option.map_some, Option.some_inj] at hused
    have hsame : latest.barSecond = 108 := hused
    omega
  · have hlt := hnone bar hbar
    omega

end AlphaMonitor.Pair
