import AlphaMonitor.Feed.Snapshotter
import AlphaMonitor.Lib.Run
import AlphaMonitor.Shard.Levels

/-!
# The feed of one Opinion token

The venue changes the token's book by level updates.  The WebSocket task passes them on
while it is connected, the snapshotter fetches the whole book now and then, and both
hand their events to the shard through one queue.  The tasks run on their own, so their
steps interleave in any order.

Every event in the queue carries what it is a copy of: which update of the venue, or the
book after how many updates.  No task sees these labels, nor the lists of what was
noted and handled; they are there to speak about runs.
-/

namespace AlphaMonitor.Feed

open Shard (Grid LevelWrite ShardWorker ShardEnv ShardMessage ShardConfig levelWritesOf)
open Lib (writeAll)

/-! ## States -/

/-- What an event on its way to the shard is a copy of: an update of the venue, or its book after
some updates.  `epoch` counts the connections: at an update the one it came by, at a snapshot
the last one before it was asked for. -/
inductive Delivery where
  | update (index epoch : ℕ)
  | snapshot (captured epoch : ℕ)
  | other
  deriving DecidableEq, Repr

/-- A book that was asked for: the updates and the connections there had been by then. -/
structure Fetch where
  (asked epoch : ℕ)
  deriving DecidableEq, Repr

/-- The feed of one token. -/
structure OpinionFeed where
  opening : Grid
  updates : List MarketMessage
  connected : Bool
  (epoch position : ℕ)
  commands : List (SnapshotCommand × Option ℕ)
  snapshotter : Snapshotter
  rounds : List Snapshotter.RoundKind
  fetch : Option Fetch
  inbox : List (Delivery × Event)
  worker : ShardWorker
  notes : List (ℕ × ℤ)
  handled : List (Delivery × Event × Bool)

/-- Before the first connection. -/
def OpinionFeed.start (cfg : ShardConfig) (opening : Grid) : OpinionFeed where
  opening := opening
  updates := []
  connected := false
  epoch := 0
  position := 0
  commands := []
  snapshotter := .start
  rounds := []
  fetch := none
  inbox := []
  worker := .start cfg
  notes := []
  handled := []

/-- What an update of the venue writes to its book. -/
def MarketMessage.writes (message : MarketMessage) : List LevelWrite :=
  levelWritesOf (message.event ⟨0, 0, 0⟩ "")

/-- The venue's book after its first `n` updates. -/
def OpinionFeed.bookAt (feed : OpinionFeed) (n : ℕ) : Grid :=
  writeAll feed.opening ((feed.updates.take n).flatMap (·.writes))

/-! ## Steps -/

/-- What can happen next. -/
inductive FeedEvent where
  /-- The venue changes a level of the book. -/
  | venueUpdate (message : MarketMessage)
  /-- The connection drops. -/
  | disconnect
  /-- It is there again, or for the first time; the trigger may not fit into the channel. -/
  | connect (triggerSent : Bool)
  /-- The next update arrives; the note of it may not fit into the channel. -/
  | receive (arrival : Arrival) (noteSent : Bool)
  /-- A message arrives that does not change the book. -/
  | receiveOther (arrival : Arrival) (message : MarketMessage) (noteSent : Bool)
  /-- Another task asks for books, or a message of another token arrives. -/
  | request (command : SnapshotCommand)
  /-- The snapshotter takes the commands that are there. -/
  | wake (nowMs : ℤ)
  /-- A round starts from these tokens. -/
  | round (nowMs : ℤ) (kind : Snapshotter.RoundKind) (targets : List String)
  /-- The book that was asked for arrives, as it was after `captured` updates. -/
  | answer (captured : ℕ) (book : RestBook) (arrival : Arrival)
  /-- It does not arrive; after too many requests the token is left alone for a while. -/
  | fail (nowMs : ℤ) (jitteredMs : Option ℤ)
  /-- The shard takes the next event of the token. -/
  | handle (env : ShardEnv)
  /-- The shard's queue is full and the next event is dropped. -/
  | lose
  /-- The shard takes a tick, an event of another token, or a price. -/
  | elsewhere (env : ShardEnv) (message : ShardMessage)

/-- The command is not about a book update of the token. -/
def SnapshotCommand.isForeign (tokenKey : String) : SnapshotCommand → Bool
  | .wsActivity key _ bookUpdate _ => decide (key ≠ tokenKey) || !bookUpdate
  | _ => true

/-- The message does not touch the token's book. -/
def isElsewhere (tokenKey : String) : ShardMessage → Bool
  | .event event =>
    decide (event.tokenKey ≠ tokenKey ∨ (event.kind ≠ .bookSnapshot ∧ event.kind ≠ .bookDelta))
  | .tick _ => true

/-- Rounds that a command asked for wait for each other; the others start when none waits. -/
def nextRounds (rounds : List Snapshotter.RoundKind) (kind : Snapshotter.RoundKind) :
    Option (List Snapshotter.RoundKind) :=
  match kind, rounds with
  | .bootstrap, [] => some []
  | .refresh, [] => some []
  | .fastRefresh, [] => some []
  | .onDemand, .onDemand :: rest => some rest
  | .gapfill, .gapfill :: rest => some rest
  | .triggerAll, .triggerAll :: rest => some rest
  | _, _ => none

/-- The reason of the trigger: the task tells the first connection from later ones. -/
def refreshReason (epoch : ℕ) : String := if epoch = 0 then "ws_connect" else "ws_reconnect"

namespace OpinionFeed

variable (snapCfg : SnapshotConfig) (tokenKey : String) (feed : OpinionFeed)

/-- `run_opinion_ws` after a connect: everything is subscribed to, then a refresh is asked for.
What the venue changed before is not sent. -/
def connect (triggerSent : Bool) : OpinionFeed :=
  { feed with
    connected := true
    epoch := feed.epoch + 1
    position := feed.updates.length
    commands := feed.commands ++
      if triggerSent then [(.triggerAll (refreshReason feed.epoch), none)] else [] }

/-- `handle_message`: the snapshotter is told first, then the event is dispatched. -/
def pass (arrival : Arrival) (message : MarketMessage) (noteSent : Bool) (delivery : Delivery)
    (noted : Option ℕ) : OpinionFeed :=
  { feed with
    commands := feed.commands ++
      if noteSent then [(message.activity arrival tokenKey, noted)] else []
    inbox := feed.inbox ++ [(delivery, message.event arrival tokenKey)] }

/-- The snapshotter takes all commands at one time. -/
def wake (nowMs : ℤ) : OpinionFeed :=
  let taken := feed.snapshotter.takeCommands snapCfg nowMs (feed.commands.map (·.1))
  { feed with
    commands := []
    snapshotter := taken.1
    rounds := taken.2.rounds
    notes := feed.notes ++ (feed.commands.filterMap (·.2)).map fun index => (index, nowMs) }

/-- A round asks for the token's book if the token passes the filters. -/
def startRound (nowMs : ℤ) (kind : Snapshotter.RoundKind) (targets : List String)
    (rest : List Snapshotter.RoundKind) : OpinionFeed :=
  let selected := feed.snapshotter.select snapCfg nowMs kind targets
  { feed with
    snapshotter := selected.2
    rounds := rest
    fetch := if tokenKey ∈ selected.1 then some ⟨feed.updates.length, feed.epoch⟩ else none }

/-- `fetch_and_emit` with an answer. -/
def emit (fetch : Fetch) (captured : ℕ) (book : RestBook) (arrival : Arrival) : OpinionFeed :=
  { feed with
    fetch := none
    snapshotter :=
      feed.snapshotter.noteFetched snapCfg arrival.localTsMs tokenKey book.payloadTsMs
    inbox := feed.inbox ++ [(.snapshot captured fetch.epoch, book.event arrival tokenKey)] }

/-- The shard takes an event. -/
def handle (env : ShardEnv) (delivery : Delivery) (event : Event)
    (rest : List (Delivery × Event)) : OpinionFeed :=
  { feed with
    inbox := rest
    worker := feed.worker.handle env (.event event)
    handled := feed.handled ++
      [(delivery, event, (feed.worker.quoteFor env tokenKey event).appliesLevels event)] }

/-- One step of any of the tasks. -/
def step : FeedEvent → Option OpinionFeed
  | .venueUpdate message =>
    if message.isBookUpdate then some { feed with updates := feed.updates ++ [message] } else none
  | .disconnect => if feed.connected then some { feed with connected := false } else none
  | .connect triggerSent => if feed.connected then none else some (feed.connect triggerSent)
  | .receive arrival noteSent =>
    if feed.connected then
      feed.updates[feed.position]?.map fun message =>
        { feed.pass tokenKey arrival message noteSent (.update feed.position feed.epoch)
            (some feed.position) with position := feed.position + 1 }
    else none
  | .receiveOther arrival message noteSent =>
    if feed.connected ∧ message.isBookUpdate = false then
      some (feed.pass tokenKey arrival message noteSent .other none)
    else none
  | .request command =>
    if command.isForeign tokenKey then
      some { feed with commands := feed.commands ++ [(command, none)] }
    else none
  | .wake nowMs =>
    if feed.rounds = [] ∧ feed.fetch = none ∧ feed.commands ≠ [] then some (feed.wake snapCfg nowMs)
    else none
  | .round nowMs kind targets =>
    if feed.fetch = none ∧ (∀ key ∈ targets, key ∈ snapCfg.targets) ∧
        (kind = .triggerAll → targets = snapCfg.targets) then
      (nextRounds feed.rounds kind).map (feed.startRound snapCfg tokenKey nowMs kind targets)
    else none
  | .answer captured book arrival =>
    feed.fetch.bind fun fetch =>
      if fetch.asked ≤ captured ∧ captured ≤ feed.updates.length then
        some (feed.emit snapCfg tokenKey fetch captured book arrival)
      else none
  | .fail nowMs jitteredMs =>
    feed.fetch.map fun _ =>
      { feed with
        fetch := none
        snapshotter :=
          match jitteredMs with
          | some ms => feed.snapshotter.markRestBackoff nowMs tokenKey ms
          | none => feed.snapshotter }
  | .handle env =>
    match feed.inbox with
    | [] => none
    | (delivery, event) :: rest => some (feed.handle tokenKey env delivery event rest)
  | .lose =>
    match feed.inbox with
    | [] => none
    | _ :: rest => some { feed with inbox := rest }
  | .elsewhere env message =>
    if isElsewhere tokenKey message then
      some { feed with worker := feed.worker.handle env message }
    else none

end OpinionFeed

/-- The feed as a machine. -/
def feedMachine (shardCfg : ShardConfig) (snapCfg : SnapshotConfig) (tokenKey : String) :
    Lib.Machine OpinionFeed FeedEvent where
  init feed := ∃ opening, feed = OpinionFeed.start shardCfg opening
  step feed event := feed.step snapCfg tokenKey event

/-! ## What a step does -/

/-- The event is the one that its label says. -/
def Carries (tokenKey : String) (updates : List MarketMessage) (event : Event) : Delivery → Prop
  | .update index _ =>
    event.tokenKey = tokenKey ∧ event.venue = .opinion ∧ event.kind = .bookDelta ∧
      ∃ message, updates[index]? = some message ∧ levelWritesOf event = message.writes
  | .snapshot captured _ =>
    event.tokenKey = tokenKey ∧ event.kind = .bookSnapshot ∧ captured ≤ updates.length
  | .other => event.tokenKey = tokenKey ∧ event.kind ≠ .bookSnapshot ∧ event.kind ≠ .bookDelta

theorem Carries.grow {tokenKey : String} {updates updates' : List MarketMessage} {event : Event}
    {delivery : Delivery} (h : Carries tokenKey updates event delivery)
    (hgrow : updates <+: updates') : Carries tokenKey updates' event delivery := by
  cases delivery with
  | update index epoch =>
    obtain ⟨hkey, hvenue, hkind, message, hmessage, hwrites⟩ := h
    refine ⟨hkey, hvenue, hkind, message, ?_, hwrites⟩
    obtain ⟨later, rfl⟩ := hgrow
    obtain ⟨hlt, _⟩ := List.getElem?_eq_some_iff.mp hmessage
    rw [List.getElem?_append_left hlt]
    exact hmessage
  | snapshot captured epoch =>
    obtain ⟨hkey, hkind, hcaptured⟩ := h
    exact ⟨hkey, hkind, hcaptured.trans hgrow.length_le⟩
  | other => exact h

theorem MarketMessage.writes_event (message : MarketMessage) (arrival : Arrival)
    (tokenKey : String) : levelWritesOf (message.event arrival tokenKey) = message.writes := by
  unfold writes event parse
  cases message.msgType with
  | depthDiff => cases message.side <;> cases message.price <;> rfl
  | lastPrice => cases message.price <;> rfl
  | lastTrade => cases message.price <;> rfl

namespace OpinionFeed

/-- Nothing was sent to the shard or done by it, and the venue's book is the same. -/
structure SameBooks (feed feed' : OpinionFeed) : Prop where
  opening : feed'.opening = feed.opening
  updates : feed'.updates = feed.updates
  inbox : feed'.inbox = feed.inbox
  worker : feed'.worker = feed.worker
  handled : feed'.handled = feed.handled

variable {snapCfg : SnapshotConfig} {tokenKey : String} {feed feed' : OpinionFeed}

theorem step_venueUpdate {message : MarketMessage}
    (h : feed.step snapCfg tokenKey (.venueUpdate message) = some feed') :
    message.isBookUpdate = true ∧ feed' = { feed with updates := feed.updates ++ [message] } := by
  simp only [step] at h
  split at h
  · rename_i hbook
    exact ⟨hbook, (Option.some.inj h).symm⟩
  · cases h

theorem step_connect {triggerSent : Bool}
    (h : feed.step snapCfg tokenKey (.connect triggerSent) = some feed') :
    feed' = feed.connect triggerSent := by
  simp only [step] at h
  split at h
  · cases h
  · exact (Option.some.inj h).symm

theorem step_receive {arrival : Arrival} {noteSent : Bool}
    (h : feed.step snapCfg tokenKey (.receive arrival noteSent) = some feed') :
    ∃ message, feed.updates[feed.position]? = some message ∧
      feed' = { feed.pass tokenKey arrival message noteSent (.update feed.position feed.epoch)
        (some feed.position) with position := feed.position + 1 } := by
  simp only [step] at h
  split at h
  · obtain ⟨message, hmessage, hfeed⟩ := Option.map_eq_some_iff.mp h
    exact ⟨message, hmessage, hfeed.symm⟩
  · cases h

theorem step_receiveOther {arrival : Arrival} {message : MarketMessage} {noteSent : Bool}
    (h : feed.step snapCfg tokenKey (.receiveOther arrival message noteSent) = some feed') :
    message.isBookUpdate = false ∧
      feed' = feed.pass tokenKey arrival message noteSent .other none := by
  simp only [step] at h
  split at h
  · rename_i hother
    exact ⟨hother.2, (Option.some.inj h).symm⟩
  · cases h

theorem step_wake {nowMs : ℤ} (h : feed.step snapCfg tokenKey (.wake nowMs) = some feed') :
    feed' = feed.wake snapCfg nowMs := by
  simp only [step] at h
  split at h
  · exact (Option.some.inj h).symm
  · cases h

theorem step_round {nowMs : ℤ} {kind : Snapshotter.RoundKind} {targets : List String}
    (h : feed.step snapCfg tokenKey (.round nowMs kind targets) = some feed') :
    ∃ rest, feed' = feed.startRound snapCfg tokenKey nowMs kind targets rest := by
  simp only [step] at h
  split at h
  · obtain ⟨rest, _, hfeed⟩ := Option.map_eq_some_iff.mp h
    exact ⟨rest, hfeed.symm⟩
  · cases h

theorem step_answer {captured : ℕ} {book : RestBook} {arrival : Arrival}
    (h : feed.step snapCfg tokenKey (.answer captured book arrival) = some feed') :
    ∃ fetch, feed.fetch = some fetch ∧ fetch.asked ≤ captured ∧ captured ≤ feed.updates.length ∧
      feed' = feed.emit snapCfg tokenKey fetch captured book arrival := by
  simp only [step, Option.bind_eq_some_iff] at h
  obtain ⟨fetch, hfetch, hfeed⟩ := h
  split at hfeed
  · rename_i hcaptured
    exact ⟨fetch, hfetch, hcaptured.1, hcaptured.2, (Option.some.inj hfeed).symm⟩
  · cases hfeed

theorem step_fail {nowMs : ℤ} {jitteredMs : Option ℤ}
    (h : feed.step snapCfg tokenKey (.fail nowMs jitteredMs) = some feed') :
    feed' = { feed with fetch := none, snapshotter := feed'.snapshotter } := by
  simp only [step, Option.map_eq_some_iff] at h
  obtain ⟨_, _, hfeed⟩ := h
  rw [← hfeed]

theorem step_handle {env : ShardEnv} (h : feed.step snapCfg tokenKey (.handle env) = some feed') :
    ∃ delivery event rest, feed.inbox = (delivery, event) :: rest ∧
      feed' = feed.handle tokenKey env delivery event rest := by
  simp only [step] at h
  cases hinbox : feed.inbox with
  | nil =>
    rw [hinbox] at h
    cases h
  | cons entry rest =>
    rw [hinbox] at h
    exact ⟨entry.1, entry.2, rest, rfl, (Option.some.inj h).symm⟩

theorem step_lose (h : feed.step snapCfg tokenKey .lose = some feed') :
    ∃ entry rest, feed.inbox = entry :: rest ∧ feed' = { feed with inbox := rest } := by
  simp only [step] at h
  cases hinbox : feed.inbox with
  | nil =>
    rw [hinbox] at h
    cases h
  | cons entry rest =>
    rw [hinbox] at h
    exact ⟨entry, rest, rfl, (Option.some.inj h).symm⟩

theorem step_elsewhere {env : ShardEnv} {message : ShardMessage}
    (h : feed.step snapCfg tokenKey (.elsewhere env message) = some feed') :
    (∀ event, message = .event event → event.tokenKey = tokenKey →
        event.kind ≠ .bookSnapshot ∧ event.kind ≠ .bookDelta) ∧
      feed' = { feed with worker := feed.worker.handle env message } := by
  simp only [step] at h
  split at h
  · rename_i helsewhere
    refine ⟨?_, (Option.some.inj h).symm⟩
    intro event hevent hkey
    rw [hevent, isElsewhere, decide_eq_true_eq] at helsewhere
    exact helsewhere.resolve_left (not_not.mpr hkey)
  · cases h

/-- The steps that only the WebSocket task and the snapshotter notice. -/
def isQuiet : FeedEvent → Bool
  | .disconnect | .request _ | .wake _ | .round .. | .fail .. => true
  | _ => false

theorem step_quiet {event : FeedEvent} (hquiet : isQuiet event = true)
    (h : feed.step snapCfg tokenKey event = some feed') :
    SameBooks feed feed' ∧ feed'.position = feed.position ∧ feed'.epoch = feed.epoch := by
  cases event with
  | disconnect =>
    simp only [step] at h
    split at h
    · cases h
      exact ⟨⟨rfl, rfl, rfl, rfl, rfl⟩, rfl, rfl⟩
    · cases h
  | request command =>
    simp only [step] at h
    split at h
    · cases h
      exact ⟨⟨rfl, rfl, rfl, rfl, rfl⟩, rfl, rfl⟩
    · cases h
  | wake nowMs =>
    rw [step_wake h]
    exact ⟨⟨rfl, rfl, rfl, rfl, rfl⟩, rfl, rfl⟩
  | round nowMs kind targets =>
    obtain ⟨rest, hfeed⟩ := step_round h
    rw [hfeed]
    exact ⟨⟨rfl, rfl, rfl, rfl, rfl⟩, rfl, rfl⟩
  | fail nowMs jitteredMs =>
    rw [step_fail h]
    exact ⟨⟨rfl, rfl, rfl, rfl, rfl⟩, rfl, rfl⟩
  | venueUpdate | connect | receive | receiveOther | answer | handle | lose | elsewhere =>
    cases hquiet

theorem step_opening {event : FeedEvent} (h : feed.step snapCfg tokenKey event = some feed') :
    feed'.opening = feed.opening := by
  cases event with
  | venueUpdate => rw [(step_venueUpdate h).2]
  | connect => rw [step_connect h]; rfl
  | receive =>
    obtain ⟨_, _, hfeed⟩ := step_receive h
    rw [hfeed]
    rfl
  | receiveOther => rw [(step_receiveOther h).2]; rfl
  | answer =>
    obtain ⟨_, _, _, _, hfeed⟩ := step_answer h
    rw [hfeed]
    rfl
  | handle =>
    obtain ⟨_, _, _, _, hfeed⟩ := step_handle h
    rw [hfeed]
    rfl
  | lose =>
    obtain ⟨_, _, _, hfeed⟩ := step_lose h
    rw [hfeed]
  | elsewhere => rw [(step_elsewhere h).2]
  | disconnect | request | wake | round | fail => exact (step_quiet rfl h).1.opening

/-! ### Labels are right -/

/-- Events in the queue are what their labels say. -/
structure Labelled (tokenKey : String) (feed : OpinionFeed) : Prop where
  nodup : feed.worker.dirtyTokens.Nodup
  position : feed.position ≤ feed.updates.length
  updates : ∀ message ∈ feed.updates, message.isBookUpdate = true
  carries : ∀ entry ∈ feed.inbox, Carries tokenKey feed.updates entry.2 entry.1

theorem Labelled.sameBooks (h : feed.Labelled tokenKey) (hsame : SameBooks feed feed')
    (hposition : feed'.position = feed.position) : feed'.Labelled tokenKey := by
  obtain ⟨_, hupdates, hinbox, hworker, _⟩ := hsame
  refine ⟨?_, ?_, ?_, ?_⟩
  · rw [hworker]
    exact h.nodup
  · rw [hposition, hupdates]
    exact h.position
  · rw [hupdates]
    exact h.updates
  · rw [hupdates, hinbox]
    exact h.carries

/-- An event is put into the queue. -/
theorem Labelled.push (h : feed.Labelled tokenKey) (entry : Delivery × Event)
    (hentry : Carries tokenKey feed.updates entry.2 entry.1) :
    ∀ e ∈ feed.inbox ++ [entry], Carries tokenKey feed.updates e.2 e.1 := by
  intro e hmem
  rcases List.mem_append.mp hmem with hold | hnew
  · exact h.carries e hold
  · rw [List.mem_singleton.mp hnew]
    exact hentry

/-- An event is taken out of the queue. -/
theorem Labelled.pop (h : feed.Labelled tokenKey) {entry : Delivery × Event}
    {rest : List (Delivery × Event)} (hinbox : feed.inbox = entry :: rest) :
    ∀ e ∈ rest, Carries tokenKey feed.updates e.2 e.1 := by
  intro e hmem
  apply h.carries
  rw [hinbox]
  exact List.mem_cons_of_mem _ hmem

theorem Labelled.step (h : feed.Labelled tokenKey) {e : FeedEvent}
    (hstep : feed.step snapCfg tokenKey e = some feed') : feed'.Labelled tokenKey := by
  cases e with
  | venueUpdate message =>
    obtain ⟨hbook, hfeed⟩ := step_venueUpdate hstep
    rw [hfeed]
    have hgrow : feed.updates <+: feed.updates ++ [message] := List.prefix_append _ _
    refine ⟨h.nodup, h.position.trans hgrow.length_le, ?_, ?_⟩
    · intro m hm
      rcases List.mem_append.mp hm with hold | hnew
      · exact h.updates m hold
      · rw [List.mem_singleton.mp hnew]
        exact hbook
    · intro entry hentry
      exact (h.carries entry hentry).grow hgrow
  | connect triggerSent =>
    rw [step_connect hstep]
    exact ⟨h.nodup, le_refl _, h.updates, h.carries⟩
  | receive arrival noteSent =>
    obtain ⟨message, hmessage, hfeed⟩ := step_receive hstep
    obtain ⟨hkey, hvenue, _, hkind⟩ := message.event_frame arrival tokenKey
    obtain ⟨hlt, hget⟩ := List.getElem?_eq_some_iff.mp hmessage
    have hbook : message.isBookUpdate = true := by
      apply h.updates
      rw [← hget]
      exact List.getElem_mem hlt
    rw [hfeed]
    exact ⟨h.nodup, hlt, h.updates, h.push _
      ⟨hkey, hvenue, hkind.mpr hbook, message, hmessage, message.writes_event arrival tokenKey⟩⟩
  | receiveOther arrival message noteSent =>
    obtain ⟨hother, hfeed⟩ := step_receiveOther hstep
    obtain ⟨hkey, _, hsnapshot, hkind⟩ := message.event_frame arrival tokenKey
    rw [hfeed]
    refine ⟨h.nodup, h.position, h.updates, h.push _ ⟨hkey, hsnapshot, ?_⟩⟩
    intro hdelta
    rw [hkind.mp hdelta] at hother
    cases hother
  | answer captured book arrival =>
    obtain ⟨fetch, _, _, hcaptured, hfeed⟩ := step_answer hstep
    rw [hfeed]
    exact ⟨h.nodup, h.position, h.updates, h.push _ ⟨rfl, rfl, hcaptured⟩⟩
  | handle env =>
    obtain ⟨delivery, event, rest, hinbox, hfeed⟩ := step_handle hstep
    rw [hfeed]
    exact ⟨(feed.worker.handle_frame env (.event event) h.nodup).2, h.position, h.updates,
      h.pop hinbox⟩
  | lose =>
    obtain ⟨first, rest, hinbox, hfeed⟩ := step_lose hstep
    rw [hfeed]
    exact ⟨h.nodup, h.position, h.updates, h.pop hinbox⟩
  | elsewhere env message =>
    obtain ⟨_, hfeed⟩ := step_elsewhere hstep
    rw [hfeed]
    exact ⟨(feed.worker.handle_frame env message h.nodup).2, h.position, h.updates, h.carries⟩
  | disconnect | request | wake | round | fail =>
    obtain ⟨hsame, hposition, _⟩ := step_quiet rfl hstep
    exact h.sameBooks hsame hposition

theorem run_opening {shardCfg : ShardConfig} {es : List FeedEvent}
    (hrun : (feedMachine shardCfg snapCfg tokenKey).run feed es = some feed') :
    feed'.opening = feed.opening := by
  apply Lib.Machine.inv_of_runMeets _ (fun s => s.opening = feed.opening) ?_ rfl
    (Lib.Machine.runMeets_trivial _ feed es) hrun
  intro s e s' hs _ hstep
  exact (step_opening hstep).trans hs

theorem labelled_of_reachable {shardCfg : ShardConfig}
    (h : (feedMachine shardCfg snapCfg tokenKey).Reachable feed) : feed.Labelled tokenKey := by
  apply Lib.Machine.inv_of_reachable _ ?_ (fun s e s' hs hstep => hs.step hstep) h
  rintro s ⟨opening, rfl⟩
  exact ⟨List.nodup_nil, le_refl _, fun _ hm => absurd hm List.not_mem_nil,
    fun _ hm => absurd hm List.not_mem_nil⟩

end OpinionFeed

end AlphaMonitor.Feed
