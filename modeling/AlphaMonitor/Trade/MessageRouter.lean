import AlphaMonitor.Lib.Router
import AlphaMonitor.Lib.Run
import AlphaMonitor.Pair.Responses
import AlphaMonitor.Trade.Engine

/-!
# The router of the trade messages

The aggregators try to put bars and shocks into one channel, the WebSocket task waits until its
order updates and trade records are in it.  A router takes the messages out and hands each of them
to the engine of its pair, and waits while the queue of that engine is full.

## Main definitions

- `pickPairShard`: the engine of a pair
- `tradeRouter`: the router
- `flowMachine`: channel, router, queues, and the WebSocket task that feeds the channel

## Main results

- `engines_get_accepted`: the messages of a pair reach its engine, in order and once
- `engines_keep_step`: no engine is further ahead of another than this one's queue
- `stopped_engine_jams`: one engine that stops can stop the feed
-/

namespace AlphaMonitor.Trade

open Lib (Machine Mail Route Router)

/-! ## The engine of a pair -/

/-- `x ^= x >> 33`. -/
def foldHigh (x : ℕ) : ℕ := x ^^^ (x >>> 33)

/-- `pick_pair_shard`. -/
def pickPairShard (pairId : ℤ) (shardCount : ℕ) : ℕ :=
  if shardCount = 0 then 0
  else
    let x := foldHigh (pairId % 2 ^ 64).toNat
    let x := foldHigh (x * 0xff51afd7ed558ccd % 2 ^ 64)
    let x := foldHigh (x * 0xc4ceb9fe1a85ec53 % 2 ^ 64)
    x % shardCount

theorem pickPairShard_lt {shardCount : ℕ} (h : 0 < shardCount) (pairId : ℤ) :
    pickPairShard pairId shardCount < shardCount := by
  rw [pickPairShard, if_neg h.ne']
  exact Nat.mod_lt _ h

/-- A message of the trade channel. -/
inductive ChannelMessage where
  | pairBar (bar : Bars1sPair)
  | shock (shock : Pair.ShockInput)
  | opinionOrderUpdate (update : OpinionUserOrderUpdate)
  | opinionTradeRecord (record : OpinionUserTradeRecord)
  deriving DecidableEq, Repr

/-- The pair that the router reads off a message. -/
def ChannelMessage.pairId : ChannelMessage → ℤ
  | .pairBar bar => bar.pairId
  | .shock input => input.pairId
  | .opinionOrderUpdate update => update.pairId
  | .opinionTradeRecord record => record.pairId

/-- `engine_shards` and `queue_capacity`. -/
structure RouterConfig where
  (engineShards queueCapacity : ℕ)

namespace RouterConfig

variable (cfg : RouterConfig)

/-- `trade_shard_count`. -/
def shardCount : ℕ := max cfg.engineShards 1

/-- `trade_queue_capacity`, of the channel and of every engine's queue. -/
def capacity : ℕ := max cfg.queueCapacity 1024

theorem shardCount_pos : 0 < cfg.shardCount := lt_max_of_lt_right Nat.one_pos

theorem capacity_pos : 0 < cfg.capacity := lt_max_of_lt_right (by decide)

/-- The engine of a pair. -/
def shardOf (pairId : ℤ) : Fin cfg.shardCount :=
  ⟨pickPairShard pairId cfg.shardCount, pickPairShard_lt cfg.shardCount_pos pairId⟩

end RouterConfig

/-- The router, which waits for room. -/
def tradeRouter (cfg : RouterConfig) : Router (Fin cfg.shardCount) ChannelMessage where
  route message := .wait [cfg.shardOf message.pairId]
  cap := cfg.capacity
  cap_pos := cfg.capacity_pos
  nodup _ := List.nodup_singleton _

/-! ## The system -/

/-- The channel, the router with the engines' queues, and the WebSocket task. -/
structure TradeFlow (cfg : RouterConfig) where
  channel : List ChannelMessage
  mail : Mail (Fin cfg.shardCount) ChannelMessage
  /-- The messages that were put into the channel, in order. -/
  accepted : List ChannelMessage
  /-- `TRADE_SEND_DROP_COUNTER`. -/
  dropped : ℕ
  /-- The user message for which the WebSocket task waits. -/
  sending : Option ChannelMessage
  /-- The market messages that the WebSocket task has handled. -/
  handled : ℕ

inductive FlowEvent (cfg : RouterConfig) where
  /-- `try_send_trade` of an aggregator or of its flush worker. -/
  | trySend (message : ChannelMessage)
  /-- The WebSocket task begins to send a user message. -/
  | userMessage (message : ChannelMessage)
  /-- The user message is in the channel. -/
  | userSent
  /-- The WebSocket task handles a market message. -/
  | marketMessage
  /-- The router takes a message out of the channel. -/
  | recv
  /-- The router hands its message over. -/
  | push
  /-- An engine takes the first message of its queue. -/
  | take (shard : Fin cfg.shardCount)
  deriving DecidableEq

namespace TradeFlow

variable {cfg : RouterConfig} (flow : TradeFlow cfg)

def start (cfg : RouterConfig) : TradeFlow cfg := ⟨[], Mail.empty, [], 0, none, 0⟩

/-- A message put into the channel. -/
def accept (message : ChannelMessage) : TradeFlow cfg :=
  { flow with
    channel := flow.channel ++ [message]
    accepted := flow.accepted ++ [message] }

/-- One step of one of the tasks. -/
def step : FlowEvent cfg → Option (TradeFlow cfg)
  | .trySend message =>
    if flow.channel.length < cfg.capacity then some (flow.accept message)
    else some { flow with dropped := flow.dropped + 1 }
  | .userMessage message =>
    if flow.sending = none then some { flow with sending := some message } else none
  | .userSent =>
    match flow.sending with
    | some message =>
      if flow.channel.length < cfg.capacity then
        some { flow.accept message with sending := none }
      else none
    | none => none
  | .marketMessage =>
    if flow.sending = none then some { flow with handled := flow.handled + 1 } else none
  | .recv =>
    match flow.channel with
    | message :: rest =>
      if flow.mail.sending = none then
        some { flow with
          channel := rest
          mail := flow.mail.offer (tradeRouter cfg) message }
      else none
    | [] => none
  | .push => (flow.mail.push (tradeRouter cfg)).map fun mail => { flow with mail := mail }
  | .take shard => (flow.mail.take shard).map fun taken => { flow with mail := taken.2 }

end TradeFlow

def flowMachine (cfg : RouterConfig) : Machine (TradeFlow cfg) (FlowEvent cfg) where
  init flow := flow = TradeFlow.start cfg
  step flow e := flow.step e

/-! ## What a step does -/

namespace TradeFlow

variable {cfg : RouterConfig} {flow flow' : TradeFlow cfg}

theorem step_trySend {message : ChannelMessage} (h : flow.step (.trySend message) = some flow') :
    (flow.channel.length < cfg.capacity ∧ flow' = flow.accept message) ∨
      (cfg.capacity ≤ flow.channel.length ∧ flow' = { flow with dropped := flow.dropped + 1 }) := by
  simp only [step] at h
  split at h
  · rename_i hroom
    exact Or.inl ⟨hroom, (Option.some.inj h).symm⟩
  · rename_i hfull
    exact Or.inr ⟨not_lt.mp hfull, (Option.some.inj h).symm⟩

theorem step_userMessage {message : ChannelMessage}
    (h : flow.step (.userMessage message) = some flow') :
    flow.sending = none ∧ flow' = { flow with sending := some message } := by
  obtain ⟨hidle, heq⟩ := Option.ite_none_right_eq_some.mp h
  exact ⟨hidle, (Option.some.inj heq).symm⟩

theorem step_userSent (h : flow.step .userSent = some flow') :
    ∃ message, flow.sending = some message ∧ flow.channel.length < cfg.capacity ∧
      flow' = { flow.accept message with sending := none } := by
  simp only [step] at h
  split at h
  · rename_i message hsending
    obtain ⟨hroom, heq⟩ := Option.ite_none_right_eq_some.mp h
    exact ⟨message, hsending, hroom, (Option.some.inj heq).symm⟩
  · cases h

theorem step_marketMessage (h : flow.step .marketMessage = some flow') :
    flow.sending = none ∧ flow' = { flow with handled := flow.handled + 1 } := by
  obtain ⟨hidle, heq⟩ := Option.ite_none_right_eq_some.mp h
  exact ⟨hidle, (Option.some.inj heq).symm⟩

theorem step_recv (h : flow.step .recv = some flow') :
    ∃ message rest, flow.channel = message :: rest ∧ flow.mail.sending = none ∧
      flow' = { flow with
        channel := rest
        mail := flow.mail.offer (tradeRouter cfg) message } := by
  simp only [step] at h
  split at h
  · rename_i message rest hchannel
    obtain ⟨hidle, heq⟩ := Option.ite_none_right_eq_some.mp h
    exact ⟨message, rest, hchannel, hidle, (Option.some.inj heq).symm⟩
  · cases h

theorem step_push (h : flow.step .push = some flow') :
    ∃ mail, flow.mail.push (tradeRouter cfg) = some mail ∧ flow' = { flow with mail := mail } := by
  obtain ⟨mail, hpush, heq⟩ := Option.map_eq_some_iff.mp h
  exact ⟨mail, hpush, heq.symm⟩

theorem step_take {shard : Fin cfg.shardCount} (h : flow.step (.take shard) = some flow') :
    ∃ message mail, flow.mail.take shard = some (message, mail) ∧
      flow' = { flow with mail := mail } := by
  obtain ⟨⟨message, mail⟩, htake, heq⟩ := Option.map_eq_some_iff.mp h
  exact ⟨message, mail, htake, heq.symm⟩

/-- The router takes a message up and has one queue to hand it to. -/
theorem offer_tradeRouter (mail : Mail (Fin cfg.shardCount) ChannelMessage)
    (message : ChannelMessage) :
    mail.offer (tradeRouter cfg) message =
      { mail with
        log := mail.log ++ [message]
        sending := some (message, [cfg.shardOf message.pairId]) } := rfl

/-! ## Nothing is lost behind the channel -/

/-- What was accepted is in the channel, or the router has taken it up; and the queues carry it. -/
structure Flowing (flow : TradeFlow cfg) : Prop where
  routed : flow.mail.Routed (tradeRouter cfg)
  accepted : flow.accepted = flow.mail.log ++ flow.channel
  bounded : flow.channel.length ≤ cfg.capacity

theorem Flowing.start : Flowing (start cfg) :=
  ⟨Mail.Routed.empty, rfl, Nat.zero_le _⟩

theorem Flowing.accept (h : Flowing flow) (hroom : flow.channel.length < cfg.capacity)
    (message : ChannelMessage) : Flowing (flow.accept message) where
  routed := h.routed
  accepted := by
    show flow.accepted ++ [message] = flow.mail.log ++ (flow.channel ++ [message])
    rw [h.accepted, List.append_assoc]
  bounded := by
    show (flow.channel ++ [message]).length ≤ cfg.capacity
    rw [List.length_append, List.length_singleton]
    exact hroom

theorem Flowing.step (h : Flowing flow) {e : FlowEvent cfg} (hstep : flow.step e = some flow') :
    Flowing flow' := by
  cases e with
  | trySend message =>
    rcases step_trySend hstep with ⟨hroom, rfl⟩ | ⟨-, rfl⟩
    · exact h.accept hroom message
    · exact ⟨h.routed, h.accepted, h.bounded⟩
  | userMessage message =>
    obtain ⟨-, rfl⟩ := step_userMessage hstep
    exact ⟨h.routed, h.accepted, h.bounded⟩
  | userSent =>
    obtain ⟨message, -, hroom, rfl⟩ := step_userSent hstep
    have haccept := h.accept hroom message
    exact ⟨haccept.routed, haccept.accepted, haccept.bounded⟩
  | marketMessage =>
    obtain ⟨-, rfl⟩ := step_marketMessage hstep
    exact ⟨h.routed, h.accepted, h.bounded⟩
  | recv =>
    obtain ⟨message, rest, hchannel, hidle, rfl⟩ := step_recv hstep
    refine ⟨h.routed.offer hidle message, ?_, ?_⟩
    · rw [h.accepted, hchannel, offer_tradeRouter, List.append_assoc, List.singleton_append]
    · have hbound := h.bounded
      rw [hchannel, List.length_cons] at hbound
      exact Nat.le_of_succ_le hbound
  | push =>
    obtain ⟨mail, hpush, rfl⟩ := step_push hstep
    refine ⟨h.routed.push hpush, ?_, h.bounded⟩
    obtain ⟨message, lane, rest, -, -, rfl⟩ := Mail.push_eq_some hpush
    exact h.accepted
  | take shard =>
    obtain ⟨message, mail, htake, rfl⟩ := step_take hstep
    refine ⟨h.routed.take htake, ?_, h.bounded⟩
    obtain ⟨rest, -, rfl⟩ := Mail.take_eq_some htake
    exact h.accepted

theorem flowing_of_reachable (h : (flowMachine cfg).Reachable flow) : Flowing flow := by
  apply (flowMachine cfg).inv_of_reachable ?_ ?_ h
  · rintro _ rfl
    exact Flowing.start
  · intro flow e flow' hbefore hstep
    exact hbefore.step hstep

/-- The messages of a pair. -/
def ofPair (pairId : ℤ) (messages : List ChannelMessage) : List ChannelMessage :=
  messages.filter fun message => message.pairId = pairId

theorem mem_lanes_iff {message : ChannelMessage} {shard : Fin cfg.shardCount} :
    shard ∈ ((tradeRouter cfg).route message).lanes ↔ shard = cfg.shardOf message.pairId :=
  List.mem_singleton

/-- The pair's messages are among those of its engine. -/
theorem ofPair_streamOf (pairId : ℤ) (messages : List ChannelMessage) :
    ofPair pairId ((tradeRouter cfg).streamOf (cfg.shardOf pairId) messages) =
      ofPair pairId messages := by
  rw [ofPair, ofPair, Router.streamOf, List.filter_filter]
  apply List.filter_congr
  intro message _
  rw [Bool.and_eq_left_iff_imp, decide_eq_true_eq, decide_eq_true_eq]
  intro hpair
  rw [mem_lanes_iff, hpair]

theorem ofPair_streamOf_other {pairId : ℤ} {shard : Fin cfg.shardCount}
    (hother : shard ≠ cfg.shardOf pairId) (messages : List ChannelMessage) :
    ofPair pairId ((tradeRouter cfg).streamOf shard messages) = [] := by
  rw [ofPair, List.filter_eq_nil_iff]
  intro message hmem hpair
  rw [decide_eq_true_eq] at hpair
  have hlane := of_decide_eq_true (List.mem_filter.mp hmem).2
  rw [mem_lanes_iff, hpair] at hlane
  exact hother hlane

/-- In every order of the tasks' steps, the engine of a pair has received a first part of the
pair's accepted messages, in their order and each once, and no other engine has received any. -/
theorem engines_get_accepted (h : (flowMachine cfg).Reachable flow) (pairId : ℤ) :
    ofPair pairId (flow.mail.taken (cfg.shardOf pairId)) <+: ofPair pairId flow.accepted ∧
      ∀ shard, shard ≠ cfg.shardOf pairId → ofPair pairId (flow.mail.taken shard) = [] := by
  have hflowing := flowing_of_reachable h
  have htaken : ∀ shard, flow.mail.taken shard <+: (tradeRouter cfg).streamOf shard flow.accepted := by
    intro shard
    have hlog : flow.mail.log <+: flow.accepted := by
      rw [hflowing.accepted]
      exact List.prefix_append _ _
    exact (Mail.taken_isPrefix hflowing.routed shard).trans (hlog.filter _)
  constructor
  · rw [← ofPair_streamOf pairId flow.accepted]
    exact (htaken (cfg.shardOf pairId)).filter _
  · intro shard hother
    have hnone := (htaken shard).filter fun message => decide (message.pairId = pairId)
    exact List.prefix_nil.mp ((ofPair_streamOf_other hother flow.accepted) ▸ hnone)

/-- Two engines. -/
def twoEngines : RouterConfig := ⟨2, 1024⟩

/-- A shock of a pair. -/
def shockOf (pairId : ℤ) : ChannelMessage := .shock ⟨1, pairId, .yes, 100, none⟩

/-- The second pair's engine receives its message, the first one's does not. -/
def secondServed : List (FlowEvent twoEngines) :=
  [.trySend (shockOf 1), .trySend (shockOf 2), .recv, .push, .recv, .push,
    .take (twoEngines.shardOf 2)]

theorem engines_get_accepted_served :
    ∃ flow, (flowMachine twoEngines).run (start twoEngines) secondServed = some flow ∧
      flow.accepted = [shockOf 1, shockOf 2] ∧
        ofPair 2 (flow.mail.taken (twoEngines.shardOf 2)) <+: ofPair 2 flow.accepted ∧
          ∀ shard, shard ≠ twoEngines.shardOf 2 → ofPair 2 (flow.mail.taken shard) = [] := by
  have hrun : ∃ flow, (flowMachine twoEngines).run (start twoEngines) secondServed = some flow ∧
      flow.accepted = [shockOf 1, shockOf 2] := ⟨_, rfl, rfl⟩
  obtain ⟨flow, hflow, haccepted⟩ := hrun
  exact ⟨flow, hflow, haccepted, engines_get_accepted ⟨_, secondServed, rfl, hflow⟩ 2⟩

/-- No engine has received anything that was accepted after more messages of another engine than
this one has received and has room for. -/
theorem engines_keep_step (h : (flowMachine cfg).Reachable flow)
    {before after : List ChannelMessage} (haccepted : flow.accepted = before ++ after)
    {ahead : Fin cfg.shardCount}
    (hahead : ((tradeRouter cfg).streamOf ahead before).length < (flow.mail.taken ahead).length)
    (behind : Fin cfg.shardCount) :
    ((tradeRouter cfg).streamOf behind before).length ≤
      (flow.mail.taken behind).length + cfg.capacity + 1 := by
  have hflowing := flowing_of_reachable h
  -- otherwise the router has not got beyond these messages
  have hbefore : before <+: flow.mail.log := by
    have hlog : flow.mail.log <+: before ++ after := by
      rw [← haccepted, hflowing.accepted]
      exact List.prefix_append _ _
    rcases List.prefix_or_prefix_of_prefix (List.prefix_append before after) hlog with hle | hge
    · exact hle
    · have hread := (Mail.taken_isPrefix hflowing.routed ahead).length_le
      have hless := (hge.filter fun message =>
        decide (ahead ∈ ((tradeRouter cfg).route message).lanes)).length_le
      exact absurd (hread.trans hless) (not_le.mpr hahead)
  exact hflowing.routed.length_streamOf_le hbefore behind

theorem engines_keep_step_served :
    ∃ flow, (flowMachine twoEngines).run (start twoEngines) secondServed = some flow ∧
      ((tradeRouter twoEngines).streamOf (twoEngines.shardOf 1) [shockOf 1]).length ≤
        (flow.mail.taken (twoEngines.shardOf 1)).length + twoEngines.capacity + 1 := by
  have hrun : ∃ flow, (flowMachine twoEngines).run (start twoEngines) secondServed = some flow ∧
      flow.accepted = [shockOf 1] ++ [shockOf 2] ∧
        ((tradeRouter twoEngines).streamOf (twoEngines.shardOf 2) [shockOf 1]).length <
          (flow.mail.taken (twoEngines.shardOf 2)).length := ⟨_, rfl, rfl, by decide +kernel⟩
  obtain ⟨flow, hflow, haccepted, hahead⟩ := hrun
  exact ⟨flow, hflow, engines_keep_step ⟨_, secondServed, rfl, hflow⟩ haccepted hahead
    (twoEngines.shardOf 1)⟩

/-! ## An engine that stops -/

/-- The router waits for one engine, the channel is full, and so the WebSocket task waits too. -/
structure Jammed (shard : Fin cfg.shardCount) (flow : TradeFlow cfg) : Prop where
  routing : ∃ message, flow.mail.sending = some (message, [shard])
  queue : (flow.mail.waiting shard).length = cfg.capacity
  channel : flow.channel.length = cfg.capacity
  sending : flow.sending ≠ none

/-- While the engine takes nothing, the messages that are tried are dropped, and nothing else
happens. -/
theorem Jammed.step {shard : Fin cfg.shardCount} (h : Jammed shard flow) {e : FlowEvent cfg}
    (he : e ≠ .take shard) (hstep : flow.step e = some flow') :
    Jammed shard flow' ∧ flow'.accepted = flow.accepted ∧ flow'.handled = flow.handled ∧
      flow'.sending = flow.sending ∧ flow'.mail.log = flow.mail.log := by
  obtain ⟨message', hrouting⟩ := h.routing
  cases e with
  | trySend message =>
    rcases step_trySend hstep with ⟨hroom, -⟩ | ⟨-, rfl⟩
    · exact absurd h.channel hroom.ne
    · exact ⟨⟨h.routing, h.queue, h.channel, h.sending⟩, rfl, rfl, rfl, rfl⟩
  | userMessage message => exact absurd (step_userMessage hstep).1 h.sending
  | userSent =>
    obtain ⟨message, -, hroom, -⟩ := step_userSent hstep
    exact absurd h.channel hroom.ne
  | marketMessage => exact absurd (step_marketMessage hstep).1 h.sending
  | recv =>
    obtain ⟨message, rest, -, hidle, -⟩ := step_recv hstep
    rw [hrouting] at hidle
    cases hidle
  | push =>
    obtain ⟨mail, hpush, -⟩ := step_push hstep
    obtain ⟨message, lane, rest, hsending, hroom, -⟩ := Mail.push_eq_some hpush
    rw [hrouting] at hsending
    cases hsending
    exact absurd h.queue hroom.ne
  | take other =>
    obtain ⟨message, mail, htake, rfl⟩ := step_take hstep
    obtain ⟨rest, -, rfl⟩ := Mail.take_eq_some htake
    -- another engine empties its own queue only
    have hother : shard ≠ other := fun hsame => he (congrArg FlowEvent.take hsame.symm)
    refine ⟨⟨h.routing, ?_, h.channel, h.sending⟩, rfl, rfl, rfl, rfl⟩
    show (Function.update flow.mail.waiting other rest shard).length = cfg.capacity
    rw [Function.update_of_ne hother]
    exact h.queue

theorem Jammed.run {shard : Fin cfg.shardCount} (h : Jammed shard flow) {es : List (FlowEvent cfg)}
    (hes : ∀ e ∈ es, e ≠ .take shard) (hr : (flowMachine cfg).run flow es = some flow') :
    Jammed shard flow' ∧ flow'.accepted = flow.accepted ∧ flow'.handled = flow.handled ∧
      flow'.sending = flow.sending ∧ flow'.mail.log = flow.mail.log := by
  induction es generalizing flow with
  | nil =>
    cases hr
    exact ⟨h, rfl, rfl, rfl, rfl⟩
  | cons e es ih =>
    obtain ⟨mid, hmid, hrest⟩ := (flowMachine cfg).run_cons_eq_some hr
    obtain ⟨hjam, haccepted, hhandled, hsending, hlog⟩ := h.step (hes e List.mem_cons_self) hmid
    obtain ⟨hjam', haccepted', hhandled', hsending', hlog'⟩ :=
      ih hjam (fun e' he' => hes e' (List.mem_cons_of_mem e he')) hrest
    exact ⟨hjam', haccepted'.trans haccepted, hhandled'.trans hhandled, hsending'.trans hsending,
      hlog'.trans hlog⟩

/-! ## The way into a jam -/

/-- The router is idle before an empty channel, and so many messages wait for the engine. -/
structure Filled (shard : Fin cfg.shardCount) (n : ℕ) (flow : TradeFlow cfg) : Prop where
  routing : flow.mail.sending = none
  queue : (flow.mail.waiting shard).length = n
  channel : flow.channel = []
  sending : flow.sending = none

/-- One more message for the engine, up to its queue. -/
theorem Filled.succ {n : ℕ} {message : ChannelMessage}
    (h : Filled (cfg.shardOf message.pairId) n flow) (hroom : n < cfg.capacity) :
    ∃ flow', (flowMachine cfg).run flow [.trySend message, .recv, .push] = some flow' ∧
      Filled (cfg.shardOf message.pairId) (n + 1) flow' := by
  have hqueue : (flow.mail.waiting (cfg.shardOf message.pairId)).length < (tradeRouter cfg).cap := by
    rw [h.queue]
    exact hroom
  refine ⟨{ flow with
    accepted := flow.accepted ++ [message]
    mail := { flow.mail.put (cfg.shardOf message.pairId) message with
      log := flow.mail.log ++ [message]
      sending := none } }, ?_, rfl, ?_, h.channel, h.sending⟩
  · simp [flowMachine, step, accept, cfg.capacity_pos, h.channel, h.routing, offer_tradeRouter,
      Mail.push, hqueue, Mail.put]
  · show ((flow.mail.put _ message).waiting _).length = n + 1
    rw [Mail.waiting_put, if_pos rfl, List.length_append, List.length_singleton, h.queue]

/-- The events of `n` messages that are tried, taken up and handed over. -/
def fill (cfg : RouterConfig) (message : ChannelMessage) (n : ℕ) : List (FlowEvent cfg) :=
  (List.replicate n [.trySend message, .recv, .push]).flatten

theorem filled_run {n : ℕ} {message : ChannelMessage} (hn : n ≤ cfg.capacity) :
    ∃ flow, (flowMachine cfg).run (start cfg) (fill cfg message n) = some flow ∧
      Filled (cfg.shardOf message.pairId) n flow := by
  induction n with
  | zero => exact ⟨start cfg, rfl, rfl, rfl, rfl, rfl⟩
  | succ n ih =>
    obtain ⟨flow, hrun, hfilled⟩ := ih (by omega)
    obtain ⟨flow', hstep, hfilled'⟩ := hfilled.succ (by omega)
    refine ⟨flow', ?_, hfilled'⟩
    rw [fill, List.replicate_succ', List.flatten_append, List.flatten_singleton, ← fill,
      Machine.run_append, hrun]
    exact hstep

/-- The channel fills up while the router waits. -/
theorem channel_run {n : ℕ} (message : ChannelMessage)
    (hn : flow.channel.length + n ≤ cfg.capacity) :
    ∃ flow', (flowMachine cfg).run flow (List.replicate n (.trySend message)) = some flow' ∧
      flow'.mail = flow.mail ∧ flow'.channel.length = flow.channel.length + n ∧
        flow'.sending = flow.sending := by
  induction n generalizing flow with
  | zero => exact ⟨flow, rfl, rfl, rfl, rfl⟩
  | succ n ih =>
    have hlength : (flow.accept message).channel.length = flow.channel.length + 1 := by
      rw [accept, List.length_append, List.length_singleton]
    obtain ⟨flow', hrun, hmail, hchannel, hsending⟩ := @ih (flow.accept message) (by omega)
    refine ⟨flow', ?_, hmail, by omega, hsending⟩
    rw [List.replicate_succ, Machine.run_cons]
    have hstep : (flowMachine cfg).step flow (.trySend message) = some (flow.accept message) :=
      if_pos (by omega)
    rw [hstep]
    exact hrun

/-- A run at whose end the engine of a message has stopped for too long. -/
def jam (cfg : RouterConfig) (message user : ChannelMessage) : List (FlowEvent cfg) :=
  fill cfg message cfg.capacity ++ ([.trySend message, .recv] ++
    (List.replicate cfg.capacity (.trySend message) ++ [.userMessage user]))

theorem jam_run (message user : ChannelMessage) :
    ∃ flow, (flowMachine cfg).run (start cfg) (jam cfg message user) = some flow ∧
      Jammed (cfg.shardOf message.pairId) flow ∧ flow.sending = some user := by
  obtain ⟨full, hfull, hfilled⟩ := @filled_run cfg cfg.capacity message le_rfl
  -- the router takes up one message more than the queue holds
  obtain ⟨blocked, hblocked, hrouting, hmail, hchannel, hsending⟩ :
      ∃ blocked, (flowMachine cfg).run full [.trySend message, .recv] = some blocked ∧
        blocked.mail.sending = some (message, [cfg.shardOf message.pairId]) ∧
          blocked.mail.waiting = full.mail.waiting ∧ blocked.channel = [] ∧
            blocked.sending = none := by
    refine ⟨{ full with
      accepted := full.accepted ++ [message]
      mail := full.mail.offer (tradeRouter cfg) message }, ?_, rfl, rfl, hfilled.channel,
        hfilled.sending⟩
    simp [flowMachine, step, accept, cfg.capacity_pos, hfilled.channel, hfilled.routing]
  obtain ⟨waiting, hwaiting, hmail', hlength, hsending'⟩ :=
    @channel_run cfg blocked cfg.capacity message (by rw [hchannel, List.length_nil]; omega)
  refine ⟨{ waiting with sending := some user }, ?_, ?_, rfl⟩
  · have hlast : (flowMachine cfg).step waiting (.userMessage user) =
        some { waiting with sending := some user } := if_pos (hsending'.trans hsending)
    rw [jam, Machine.run_append, hfull, Option.bind_some, Machine.run_append, hblocked,
      Option.bind_some, Machine.run_append, hwaiting, Option.bind_some, Machine.run_cons, hlast]
    rfl
  · constructor
    · exact ⟨message, by rw [hmail', hrouting]⟩
    · show (waiting.mail.waiting _).length = cfg.capacity
      rw [hmail', hmail, hfilled.queue]
    · show waiting.channel.length = cfg.capacity
      rw [hlength, hchannel, List.length_nil, Nat.zero_add]
    · exact Option.some_ne_none user

theorem take_not_mem_jam (message user : ChannelMessage) (shard : Fin cfg.shardCount) :
    ∀ e ∈ jam cfg message user, e ≠ .take shard := by
  intro e he
  rw [jam, fill, List.mem_append, List.mem_append, List.mem_append] at he
  rcases he with he | he | he | he
  · obtain ⟨round, hround, hmem⟩ := List.mem_flatten.mp he
    rw [(List.mem_replicate.mp hround).2] at hmem
    rintro rfl
    simp at hmem
  · rintro rfl
    simp at he
  · rw [(List.mem_replicate.mp he).2]
    exact fun h => nomatch h
  · rintro rfl
    simp at he

/-- Every engine that some pair has can stop the whole feed by taking nothing: the bars of its
pair fill its queue and the channel, until the WebSocket task waits to send an order update.  From
then on, whatever the other tasks do, nothing is accepted, routed to any engine, or handled by
the WebSocket task before the engine takes a message. -/
theorem stopped_engine_jams (cfg : RouterConfig) (bar : Bars1sPair)
    (update : OpinionUserOrderUpdate) :
    (∃ (es : List (FlowEvent cfg)) (flow : TradeFlow cfg),
      (∀ e ∈ es, e ≠ .take (cfg.shardOf bar.pairId)) ∧
        (flowMachine cfg).run (start cfg) es = some flow ∧
          Jammed (cfg.shardOf bar.pairId) flow ∧ flow.sending = some (.opinionOrderUpdate update)) ∧
    ∀ (flow flow' : TradeFlow cfg) (more : List (FlowEvent cfg)),
      Jammed (cfg.shardOf bar.pairId) flow → (∀ e ∈ more, e ≠ .take (cfg.shardOf bar.pairId)) →
        (flowMachine cfg).run flow more = some flow' →
          flow'.accepted = flow.accepted ∧ flow'.handled = flow.handled ∧
            flow'.sending = flow.sending ∧ flow'.mail.log = flow.mail.log := by
  constructor
  · obtain ⟨flow, hrun, hjam, hsending⟩ := @jam_run cfg (.pairBar bar) (.opinionOrderUpdate update)
    exact ⟨_, flow, take_not_mem_jam _ _ _, hrun, hjam, hsending⟩
  · intro flow flow' more hjam hmore hrun
    exact (hjam.run hmore hrun).2

end TradeFlow

end AlphaMonitor.Trade
