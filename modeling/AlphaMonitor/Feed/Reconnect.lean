import AlphaMonitor.Feed.Race
import AlphaMonitor.Shard.Whole

/-!
# Reconnects

What the venue changes while the connection is down is not sent.  After a reconnect the
WebSocket task asks for all books, if there is room for the request, and goes on with
the updates that arrive.  The shard is not told, so it applies them to the book it has.
Whether the new book comes first is up to how all of this goes: the request has to be
sent, the token has to pass the filters of its round, and the answer has to come before
the next update.

## Main results

- `gapClosed_of_refetchFirst`: no update is applied across a gap if every refresh goes through
  before updates arrive
- `gap_papered_over`: in general some are
-/

namespace AlphaMonitor.Feed

open Shard (ShardEnv ShardConfig ShardWorker ShardMessage)

/-- A snapshot that was asked for since the given connection was there. -/
def Delivery.isRefetch (epoch : ℕ) : Delivery → Bool
  | .snapshot _ askedIn => decide (epoch ≤ askedIn)
  | _ => false

/-- The connection by which a level update came, if it was not the first. -/
def Delivery.reconnectEpoch : Delivery → Option ℕ
  | .update _ epoch => if 1 < epoch then some epoch else none
  | _ => none

/-- A snapshot asked for since that connection has been applied. -/
def refetched (handled : List (Delivery × Event × Bool)) (epoch : ℕ) : Bool :=
  handled.any fun entry => entry.2.2 && entry.1.isRefetch epoch

namespace OpinionFeed

/-- No level update that came after a reconnect was applied before a snapshot that was asked for
after it. -/
def GapClosed (feed : OpinionFeed) : Prop :=
  ∀ before entry after, feed.handled = before ++ entry :: after → entry.2.2 = true →
    ∀ epoch ∈ entry.1.reconnectEpoch, refetched before epoch = true

/-- The book takes no level updates: it has not been loaded, or it needs a new snapshot. -/
def Holds (tokenKey : String) (feed : OpinionFeed) : Prop :=
  ∀ st ∈ feed.worker.state tokenKey, st.bookInitialized = false ∨ st.resyncNeeded = true

end OpinionFeed

/-- The delivery is a snapshot. -/
def Delivery.isSnapshot : Delivery → Bool
  | .snapshot .. => true
  | _ => false

/-- The command asks for all books. -/
def SnapshotCommand.isTriggerAll : SnapshotCommand → Bool
  | .triggerAll _ => true
  | _ => false

namespace OpinionFeed

/-- The connection is not the first, and no book that was asked for since it is there has come. -/
def Awaits (feed : OpinionFeed) : Prop :=
  1 < feed.epoch ∧ (∀ entry ∈ feed.inbox, entry.1.isRefetch feed.epoch = false) ∧
    ∀ entry ∈ feed.handled, entry.1.isRefetch feed.epoch = false

/-- The snapshotter has still to start the round in which all books are asked for. -/
def RefreshWaits (feed : OpinionFeed) : Prop :=
  (∃ entry ∈ feed.commands, entry.1.isTriggerAll = true) ∨ .triggerAll ∈ feed.rounds

/-- The book was asked for over this connection, and the answer is still out. -/
def Asking (feed : OpinionFeed) : Prop := ∃ fetch ∈ feed.fetch, fetch.epoch = feed.epoch

/-- The book takes no level updates and no snapshot that would change this is in the queue. -/
def Shut (tokenKey : String) (feed : OpinionFeed) : Prop :=
  feed.Holds tokenKey ∧ ∀ entry ∈ feed.inbox, entry.1.isSnapshot = false

end OpinionFeed

/-- What lets the new book come first.  After a reconnect the trigger is sent.  As long as no book
has come since, the token passes the filters of the round, the request for its book does not fail
unless another one is to follow, and no level update arrives while one of these is under way, but
to a book that takes none.  A book that was asked for after a reconnect is not dropped. -/
def RefetchFirst (snapCfg : SnapshotConfig) (tokenKey : String) (feed : OpinionFeed) :
    FeedEvent → Prop
  | .connect triggerSent => feed.epoch = 0 ∨ triggerSent = true
  | .round nowMs kind _ => kind = .triggerAll → feed.Awaits →
      tokenKey ∈ snapCfg.targets ∧ feed.snapshotter.Passes snapCfg nowMs tokenKey
  | .fail .. => feed.Awaits → feed.Asking → feed.RefreshWaits
  | .receive .. => feed.Awaits → feed.RefreshWaits ∨ feed.Asking → feed.Shut tokenKey
  | .lose => ∀ entry ∈ feed.inbox.head?, entry.1.isRefetch 2 = false
  | _ => True

namespace OpinionFeed

variable {snapCfg : SnapshotConfig} {tokenKey : String} {feed feed' : OpinionFeed}

theorem gapClosed_of_handled (h : feed'.handled = feed.handled) :
    feed'.GapClosed ↔ feed.GapClosed := by
  unfold GapClosed
  rw [h]

/-- One more event. -/
theorem gapClosed_append {entry : Delivery × Event × Bool}
    (h : feed'.handled = feed.handled ++ [entry]) :
    feed'.GapClosed ↔ feed.GapClosed ∧
      (entry.2.2 = true → ∀ epoch ∈ entry.1.reconnectEpoch, refetched feed.handled epoch = true) := by
  unfold GapClosed
  rw [h]
  constructor
  · intro hall
    refine ⟨?_, fun happlied => hall feed.handled entry [] rfl happlied⟩
    intro before e after hhandled
    apply hall before e (after ++ [entry])
    rw [hhandled, List.append_assoc, List.cons_append]
  · rintro ⟨hall, hlast⟩ before e after hhandled happlied
    rcases List.eq_nil_or_concat after with rfl | ⟨init, last, rfl⟩
    · -- it is the last one
      obtain ⟨hbefore, hentry⟩ := List.append_inj' hhandled rfl
      cases hentry
      rw [← hbefore]
      exact hlast happlied
    · apply hall before e init ?_ happlied
      have hassoc : feed.handled ++ [entry] = (before ++ e :: init) ++ [last] := by
        rw [hhandled, List.concat_eq_append, List.append_assoc, List.cons_append]
      exact (List.append_inj' hassoc rfl).1

/-- A level update of the queue is applied unless the book takes none. -/
theorem applies_iff (hlabelled : feed.Labelled tokenKey) {env : ShardEnv} {event : Event}
    {index epoch : ℕ} (hmem : (Delivery.update index epoch, event) ∈ feed.inbox) :
    (feed.worker.quoteFor env tokenKey event).appliesLevels event = true ↔
      ¬ feed.Holds tokenKey := by
  obtain ⟨_, hvenue, hkind, _⟩ := hlabelled.carries _ hmem
  have happlies : ∀ q : Shard.QuoteState, q.appliesLevels event = true ↔
      q.bookInitialized = true ∧ q.resyncNeeded = false := by
    intro q
    unfold Shard.QuoteState.appliesLevels Shard.QuoteState.allows
    rw [hkind, hvenue]
    simp
  rw [happlies]
  unfold Holds
  cases hst : feed.worker.state tokenKey with
  | none =>
    have hstate : (feed.worker.track tokenKey).state = none := hst
    unfold ShardWorker.quoteFor
    rw [(feed.worker.track tokenKey).stateFor_none env tokenKey event hstate]
    constructor
    · rintro ⟨hinit, _⟩
      cases hinit
    · intro htakes
      refine absurd ?_ htakes
      intro st hst
      cases hst
  | some st =>
    rw [feed.worker.quoteFor_of_state env tokenKey hst]
    simp

/-! ## Books that take no updates -/

/-- What is neither a snapshot nor an applied level update leaves the book as closed as it was. -/
theorem afterEvent_takesNone {q : Shard.QuoteState} {event : Event}
    (hkind : event.kind ≠ .bookSnapshot)
    (hvenue : event.kind = .bookDelta → event.venue = .opinion)
    (h : q.bookInitialized = false ∨ q.resyncNeeded = true) :
    (q.afterEvent event).bookInitialized = false ∨ (q.afterEvent event).resyncNeeded = true := by
  unfold Shard.QuoteState.afterEvent
  cases hcase : event.kind with
  | bookSnapshot => exact absurd hcase hkind
  | bookDelta =>
    unfold Shard.QuoteState.afterDelta
    simp only
    rcases h with hinit | hneeded
    · have hallows : q.allows event = false := by
        unfold Shard.QuoteState.allows
        rw [hinit, hvenue hcase]
        rfl
      left
      rw [hallows, if_neg Bool.false_ne_true]
      unfold Shard.QuoteState.updated
      rw [(Shard.keepHash_frame _ event).2.1, hallows]
      unfold Shard.QuoteState.takeLevel
      split
      · exact hinit
      · exact hinit
    · have hupdated := (Shard.updated_waiting hneeded event).2
      right
      split
      · unfold Shard.QuoteState.judged
        split
        · rfl
        · exact hupdated
      · exact hupdated
  | trade | lastPrice =>
    unfold Shard.QuoteState.keepPrice
    cases event.payload.price <;> exact h
  | tickSizeChange => cases event.payload.tickSize <;> exact h
  | health => exact h

/-- A book that takes no updates goes on so until it gets a snapshot. -/
theorem Holds.event (h : feed.Holds tokenKey) (hnodup : feed.worker.dirtyTokens.Nodup)
    {env : ShardEnv} {event : Event} (hkey : event.tokenKey = tokenKey)
    (hkind : event.kind ≠ .bookSnapshot)
    (hvenue : event.kind = .bookDelta → event.venue = .opinion) :
    ∀ st ∈ (feed.worker.handle env (.event event)).state tokenKey,
      st.bookInitialized = false ∨ st.resyncNeeded = true := by
  obtain ⟨sent, hsent, hsame⟩ :=
    (feed.worker.track tokenKey).takeEvent_quote feed.worker.config env tokenKey event
  have hstate : (feed.worker.handle env (.event event)).state tokenKey = some sent := by
    have htrack := feed.worker.track_handle env (.event event) tokenKey hnodup
    have hhandle : ((feed.worker.handle env (.event event)).track tokenKey).state = some sent := by
      rw [htrack]
      simp only [Shard.TokenTrack.handle, if_pos hkey]
      exact hsent
    exact hhandle
  have hbefore : (feed.worker.quoteFor env tokenKey event).bookInitialized = false ∨
      (feed.worker.quoteFor env tokenKey event).resyncNeeded = true := by
    cases hst : feed.worker.state tokenKey with
    | none =>
      have hnone : (feed.worker.track tokenKey).state = none := hst
      unfold ShardWorker.quoteFor
      rw [(feed.worker.track tokenKey).stateFor_none env tokenKey event hnone]
      exact Or.inl rfl
    | some st =>
      rw [feed.worker.quoteFor_of_state env tokenKey hst]
      exact h st hst
  obtain ⟨hfields, _⟩ :=
    ((feed.worker.track tokenKey).stateFor env tokenKey event).handleEvent_event event
  rw [hstate]
  rintro st ⟨⟩
  rw [hsame.initialized, hsame.resyncNeeded, hfields]
  exact afterEvent_takesNone hkind hvenue hbefore

theorem Holds.elsewhere (h : feed.Holds tokenKey) (hnodup : feed.worker.dirtyTokens.Nodup)
    {env : ShardEnv} {message : ShardMessage}
    (hmessage : ∀ event, message = .event event → event.tokenKey = tokenKey →
      event.kind ≠ .bookSnapshot ∧ event.kind ≠ .bookDelta) :
    ∀ st ∈ (feed.worker.handle env message).state tokenKey,
      st.bookInitialized = false ∨ st.resyncNeeded = true := by
  have htrack := feed.worker.track_handle env message tokenKey hnodup
  have hafter : (feed.worker.handle env message).state tokenKey =
      ((feed.worker.track tokenKey).handle feed.worker.config env tokenKey message).state := by
    rw [← htrack]
    rfl
  cases message with
  | event event =>
    by_cases hkey : event.tokenKey = tokenKey
    · obtain ⟨hsnapshot, hdelta⟩ := hmessage event rfl hkey
      exact h.event hnodup hkey hsnapshot fun hkind => absurd hkind hdelta
    · rw [hafter]
      simp only [Shard.TokenTrack.handle, if_neg hkey]
      exact h
  | tick barSecond =>
    rw [hafter]
    simp only [Shard.TokenTrack.handle]
    split
    · cases hst : feed.worker.state tokenKey with
      | none =>
        have hnone : (feed.worker.track tokenKey).state = none := hst
        unfold Shard.TokenTrack.takeTick
        rw [hnone]
        exact fun st hmem => absurd hmem (Option.not_mem_none st)
      | some st =>
        obtain ⟨sent, hsent, hsame⟩ :=
          (feed.worker.track tokenKey).takeTick_quote feed.worker.config env tokenKey hst barSecond
        rw [hsent]
        rintro st' ⟨⟩
        rw [hsame.initialized, hsame.resyncNeeded]
        exact h st hst
    · exact h

/-! ## What a run keeps -/

/-- An update with these entries before it in the queue comes after a snapshot asked for since its
connection, or the book will take no updates by then. -/
def Covered (tokenKey : String) (feed : OpinionFeed) (before : List (Delivery × Event))
    (epoch : ℕ) : Prop :=
  (∃ entry ∈ before, entry.1.isRefetch epoch = true) ∨ refetched feed.handled epoch = true ∨
    (feed.Holds tokenKey ∧ ∀ entry ∈ before, entry.1.isSnapshot = false)

/-- The updates in the queue are covered, the snapshots in it have levels and those before them were
applied, and a book that is awaited is on its way. -/
structure Refreshed (tokenKey : String) (feed : OpinionFeed) : Prop where
  labelled : feed.Labelled tokenKey
  closed : feed.GapClosed
  loads : ∀ entry ∈ feed.inbox, entry.1.isSnapshot = true → entry.2.payload.bids.isSome = true
  taken : ∀ entry ∈ feed.handled, entry.1.isSnapshot = true → entry.2.2 = true
  covered : ∀ before entry after, feed.inbox = before ++ entry :: after →
    ∀ epoch ∈ entry.1.reconnectEpoch, feed.Covered tokenKey before epoch
  coming : feed.Awaits → feed.RefreshWaits ∨ feed.Asking

theorem Delivery.isRefetch_mono {delivery : Delivery} {epoch later : ℕ} (hle : epoch ≤ later)
    (h : delivery.isRefetch epoch = false) : delivery.isRefetch later = false := by
  cases delivery with
  | snapshot captured askedIn =>
    simp only [Delivery.isRefetch, decide_eq_false_iff_not, not_le] at h ⊢
    omega
  | update | other => rfl

theorem Delivery.isSnapshot_of_isRefetch {delivery : Delivery} {epoch : ℕ}
    (h : delivery.isRefetch epoch = true) : delivery.isSnapshot = true := by
  cases delivery with
  | snapshot => rfl
  | update | other => cases h

theorem Covered.congr {before : List (Delivery × Event)} {epoch : ℕ}
    (h : feed.Covered tokenKey before epoch) (hworker : feed'.worker = feed.worker)
    (hhandled : feed'.handled = feed.handled) : feed'.Covered tokenKey before epoch := by
  unfold Covered Holds
  rw [hworker, hhandled]
  exact h

/-! ### The book that is awaited -/

/-- Nothing is taken from what is on its way, and what is awaited was awaited before. -/
theorem coming_of_grow (h : feed.Awaits → feed.RefreshWaits ∨ feed.Asking)
    (hawaits : feed'.Awaits → feed.Awaits) (hcommands : feed.commands ⊆ feed'.commands)
    (hrounds : feed'.rounds = feed.rounds) (hfetch : feed'.fetch = feed.fetch)
    (hepoch : feed'.epoch = feed.epoch) :
    feed'.Awaits → feed'.RefreshWaits ∨ feed'.Asking := by
  intro hawaits'
  unfold RefreshWaits Asking
  rw [hrounds, hfetch, hepoch]
  rcases h (hawaits hawaits') with (⟨entry, hentry, htrigger⟩ | hround) | hasking
  · exact Or.inl (Or.inl ⟨entry, hcommands hentry, htrigger⟩)
  · exact Or.inl (Or.inr hround)
  · exact Or.inr hasking

/-- The rounds that wait go on waiting until they start. -/
theorem nextRounds_triggerAll {rounds rest : List Snapshotter.RoundKind}
    {kind : Snapshotter.RoundKind} (h : nextRounds rounds kind = some rest)
    (hmem : .triggerAll ∈ rounds) : kind = .triggerAll ∨ .triggerAll ∈ rest := by
  unfold nextRounds at h
  split at h
  · cases hmem
  · cases hmem
  · cases hmem
  · cases h
    exact Or.inr ((List.mem_cons.mp hmem).resolve_left (by decide))
  · cases h
    exact Or.inr ((List.mem_cons.mp hmem).resolve_left (by decide))
  · exact Or.inl rfl
  · cases h

theorem coming_wake (h : feed.Awaits → feed.RefreshWaits ∨ feed.Asking) {nowMs : ℤ}
    (hstep : feed.step snapCfg tokenKey (.wake nowMs) = some feed') (hawaits : feed'.Awaits) :
    feed'.RefreshWaits ∨ feed'.Asking := by
  have hready : feed.rounds = [] ∧ feed.fetch = none := by
    simp only [step] at hstep
    split at hstep
    · rename_i hready
      exact ⟨hready.1, hready.2.1⟩
    · cases hstep
  rw [step_wake hstep] at hawaits ⊢
  rcases h hawaits with (⟨entry, hentry, htrigger⟩ | hround) | ⟨fetch, hfetch, _⟩
  · cases hcommand : entry.1 with
    | triggerAll reason =>
      refine Or.inl (Or.inr (feed.snapshotter.triggerAll_mem_rounds snapCfg nowMs
        (List.mem_map.mpr ⟨entry, hentry, hcommand⟩)))
    | triggerInactive | wsActivity | triggerToken =>
      rw [hcommand] at htrigger
      cases htrigger
  · rw [hready.1] at hround
    cases hround
  · rw [hready.2] at hfetch
    cases hfetch

theorem coming_round (h : feed.Awaits → feed.RefreshWaits ∨ feed.Asking) {nowMs : ℤ}
    {kind : Snapshotter.RoundKind} {targets : List String}
    (hguard : RefetchFirst snapCfg tokenKey feed (.round nowMs kind targets))
    (hstep : feed.step snapCfg tokenKey (.round nowMs kind targets) = some feed')
    (hawaits : feed'.Awaits) : feed'.RefreshWaits ∨ feed'.Asking := by
  simp only [step] at hstep
  split at hstep
  · rename_i hready
    obtain ⟨hfetch, _, hall⟩ := hready
    obtain ⟨rest, hrest, rfl⟩ := Option.map_eq_some_iff.mp hstep
    have hbefore : feed.Awaits := hawaits
    rcases h hbefore with (hcommand | hround) | ⟨fetch, hsome, _⟩
    · exact Or.inl (Or.inl hcommand)
    · rcases nextRounds_triggerAll hrest hround with rfl | hlater
      · -- the round that was waited for: the token passes, so it is asked for
        right
        have hselected : tokenKey ∈
            (feed.snapshotter.select snapCfg nowMs .triggerAll targets).1 := by
          rw [Snapshotter.mem_select_triggerAll, hall rfl]
          exact hguard rfl hbefore
        exact ⟨_, if_pos hselected, rfl⟩
      · exact Or.inl (Or.inr hlater)
    · rw [hfetch] at hsome
      cases hsome
  · cases hstep

theorem coming_answer (h : feed.Awaits → feed.RefreshWaits ∨ feed.Asking) {captured : ℕ}
    {book : RestBook} {arrival : Arrival}
    (hstep : feed.step snapCfg tokenKey (.answer captured book arrival) = some feed')
    (hawaits : feed'.Awaits) : feed'.RefreshWaits ∨ feed'.Asking := by
  obtain ⟨fetch, hfetch, _, _, rfl⟩ := step_answer hstep
  obtain ⟨hlater, hinbox, hhandled⟩ := hawaits
  have hbefore : feed.Awaits :=
    ⟨hlater, fun entry hentry => hinbox entry (List.mem_append_left _ hentry), hhandled⟩
  rcases h hbefore with hwaits | ⟨asked, hasked, hepoch⟩
  · exact Or.inl hwaits
  · -- this is the book that was awaited
    obtain rfl : fetch = asked := Option.some.inj (hfetch.symm.trans hasked)
    have hnew := hinbox _ (List.mem_append_right _ List.mem_cons_self)
    simp only [Delivery.isRefetch, decide_eq_false_iff_not] at hnew
    exact absurd hepoch.ge hnew

theorem coming_fail (h : feed.Awaits → feed.RefreshWaits ∨ feed.Asking) {nowMs : ℤ}
    {jitteredMs : Option ℤ} (hguard : RefetchFirst snapCfg tokenKey feed (.fail nowMs jitteredMs))
    (hstep : feed.step snapCfg tokenKey (.fail nowMs jitteredMs) = some feed')
    (hawaits : feed'.Awaits) : feed'.RefreshWaits ∨ feed'.Asking := by
  rw [step_fail hstep] at hawaits ⊢
  have hbefore : feed.Awaits := hawaits
  rcases h hbefore with hwaits | hasking
  · exact Or.inl hwaits
  · exact Or.inl (hguard hbefore hasking)

theorem Refreshed.coming_step (h : feed.Refreshed tokenKey) {e : FeedEvent}
    (hguard : RefetchFirst snapCfg tokenKey feed e)
    (hstep : feed.step snapCfg tokenKey e = some feed') :
    feed'.Awaits → feed'.RefreshWaits ∨ feed'.Asking := by
  cases e with
  | venueUpdate message =>
    obtain ⟨_, rfl⟩ := step_venueUpdate hstep
    exact h.coming
  | disconnect =>
    simp only [step] at hstep
    split at hstep
    · cases hstep
      exact h.coming
    · cases hstep
  | connect triggerSent =>
    rw [step_connect hstep]
    rintro ⟨hlater, _, _⟩
    have hsent : triggerSent = true := hguard.resolve_left (by
      have hepoch : (feed.connect triggerSent).epoch = feed.epoch + 1 := rfl
      omega)
    subst hsent
    exact Or.inl (Or.inl ⟨_, List.mem_append_right _ List.mem_cons_self, rfl⟩)
  | receive arrival noteSent =>
    obtain ⟨message, _, rfl⟩ := step_receive hstep
    refine coming_of_grow h.coming ?_ (List.subset_append_left _ _) rfl rfl rfl
    rintro ⟨hlater, hinbox, hhandled⟩
    exact ⟨hlater, fun entry hentry => hinbox entry (List.mem_append_left _ hentry), hhandled⟩
  | receiveOther arrival message noteSent =>
    obtain ⟨_, rfl⟩ := step_receiveOther hstep
    refine coming_of_grow h.coming ?_ (List.subset_append_left _ _) rfl rfl rfl
    rintro ⟨hlater, hinbox, hhandled⟩
    exact ⟨hlater, fun entry hentry => hinbox entry (List.mem_append_left _ hentry), hhandled⟩
  | request command =>
    simp only [step] at hstep
    split at hstep
    · cases hstep
      exact coming_of_grow h.coming (fun hawaits => hawaits) (List.subset_append_left _ _) rfl rfl rfl
    · cases hstep
  | wake nowMs => exact coming_wake h.coming hstep
  | round nowMs kind targets => exact coming_round h.coming hguard hstep
  | answer captured book arrival => exact coming_answer h.coming hstep
  | fail nowMs jitteredMs => exact coming_fail h.coming hguard hstep
  | handle env =>
    obtain ⟨delivery, event, rest, hinbox, rfl⟩ := step_handle hstep
    refine coming_of_grow h.coming ?_ (List.Subset.refl _) rfl rfl rfl
    rintro ⟨hlater, hrest, hhandled⟩
    refine ⟨hlater, ?_, fun entry hentry => hhandled entry (List.mem_append_left _ hentry)⟩
    rw [hinbox]
    intro entry hentry
    rcases List.mem_cons.mp hentry with rfl | hold
    · exact hhandled _ (List.mem_append_right _ List.mem_cons_self)
    · exact hrest entry hold
  | lose =>
    obtain ⟨first, rest, hinbox, rfl⟩ := step_lose hstep
    refine coming_of_grow h.coming ?_ (List.Subset.refl _) rfl rfl rfl
    rintro ⟨hlater, hrest, hhandled⟩
    refine ⟨hlater, ?_, hhandled⟩
    rw [hinbox]
    intro entry hentry
    rcases List.mem_cons.mp hentry with rfl | hold
    · -- what was dropped is not the book that is awaited
      exact Delivery.isRefetch_mono hlater (hguard entry (by rw [hinbox]; rfl))
    · exact hrest entry hold
  | elsewhere env message =>
    obtain ⟨_, rfl⟩ := step_elsewhere hstep
    exact h.coming

/-! ### One step -/

/-- Neither the queue nor the shard changes. -/
theorem Refreshed.of_same (h : feed.Refreshed tokenKey) (hlabelled : feed'.Labelled tokenKey)
    (hinbox : feed'.inbox = feed.inbox) (hworker : feed'.worker = feed.worker)
    (hhandled : feed'.handled = feed.handled)
    (hcoming : feed'.Awaits → feed'.RefreshWaits ∨ feed'.Asking) : feed'.Refreshed tokenKey where
  labelled := hlabelled
  closed := (gapClosed_of_handled hhandled).mpr h.closed
  loads := hinbox ▸ h.loads
  taken := hhandled ▸ h.taken
  covered := by
    intro before entry after hsplit epoch hepoch
    rw [hinbox] at hsplit
    exact (h.covered before entry after hsplit epoch hepoch).congr hworker hhandled
  coming := hcoming

/-- An event is put into the queue. -/
theorem Refreshed.push (h : feed.Refreshed tokenKey) (hlabelled : feed'.Labelled tokenKey)
    {last : Delivery × Event} (hinbox : feed'.inbox = feed.inbox ++ [last])
    (hworker : feed'.worker = feed.worker) (hhandled : feed'.handled = feed.handled)
    (hcoming : feed'.Awaits → feed'.RefreshWaits ∨ feed'.Asking)
    (hloads : last.1.isSnapshot = true → last.2.payload.bids.isSome = true)
    (hcovered : ∀ epoch ∈ last.1.reconnectEpoch, feed.Covered tokenKey feed.inbox epoch) :
    feed'.Refreshed tokenKey where
  labelled := hlabelled
  closed := (gapClosed_of_handled hhandled).mpr h.closed
  loads := by
    rw [hinbox]
    intro entry hentry
    rcases List.mem_append.mp hentry with hold | hnew
    · exact h.loads entry hold
    · rw [List.mem_singleton.mp hnew]
      exact hloads
  taken := hhandled ▸ h.taken
  covered := by
    intro before entry after hsplit epoch hepoch
    apply Covered.congr _ hworker hhandled
    rw [hinbox] at hsplit
    rcases List.eq_nil_or_concat after with rfl | ⟨init, final, rfl⟩
    · -- it is the new one
      obtain ⟨hbefore, hentry⟩ := List.append_inj' hsplit rfl
      cases hentry
      rw [← hbefore]
      exact hcovered epoch hepoch
    · have hassoc : feed.inbox ++ [last] = (before ++ entry :: init) ++ [final] := by
        rw [hsplit, List.concat_eq_append, List.append_assoc, List.cons_append]
      exact h.covered before entry init (List.append_inj' hassoc rfl).1 epoch hepoch
  coming := hcoming

/-- A level update that arrives is covered. -/
theorem Refreshed.covered_receive (h : feed.Refreshed tokenKey) {arrival : Arrival} {noteSent : Bool}
    (hguard : RefetchFirst snapCfg tokenKey feed (.receive arrival noteSent)) :
    ∀ epoch ∈ (Delivery.update feed.position feed.epoch).reconnectEpoch,
      feed.Covered tokenKey feed.inbox epoch := by
  intro epoch hepoch
  simp only [Delivery.reconnectEpoch] at hepoch
  split at hepoch
  · rename_i hlater
    cases hepoch
    by_cases hawaits : feed.Awaits
    · exact Or.inr (Or.inr (hguard hawaits (h.coming hawaits)))
    · by_cases hqueued : ∃ entry ∈ feed.inbox, entry.1.isRefetch feed.epoch = true
      · exact Or.inl hqueued
      · -- the book has been taken by the shard already
        right
        left
        have hsome : ∃ entry ∈ feed.handled, entry.1.isRefetch feed.epoch = true := by
          by_contra hnone
          refine hawaits ⟨hlater, fun entry hentry => ?_, fun entry hentry => ?_⟩
          · exact eq_false_of_ne_true fun htrue => hqueued ⟨entry, hentry, htrue⟩
          · exact eq_false_of_ne_true fun htrue => hnone ⟨entry, hentry, htrue⟩
        obtain ⟨entry, hentry, hrefetch⟩ := hsome
        unfold refetched
        rw [List.any_eq_true]
        refine ⟨entry, hentry, ?_⟩
        rw [h.taken entry hentry (Delivery.isSnapshot_of_isRefetch hrefetch), hrefetch]
        rfl
  · cases hepoch

/-- An event other than an awaited book is dropped. -/
theorem Refreshed.lose (h : feed.Refreshed tokenKey)
    (hguard : RefetchFirst snapCfg tokenKey feed .lose)
    (hstep : feed.step snapCfg tokenKey .lose = some feed') : feed'.Refreshed tokenKey := by
  have hlabelled := h.labelled.step hstep
  have hcoming := h.coming_step hguard hstep
  obtain ⟨first, rest, hinbox, rfl⟩ := step_lose hstep
  have hfirst : first.1.isRefetch 2 = false := hguard first (by rw [hinbox]; rfl)
  refine ⟨hlabelled, h.closed, ?_, h.taken, ?_, hcoming⟩
  · intro entry hentry
    exact h.loads entry (by rw [hinbox]; exact List.mem_cons_of_mem _ hentry)
  · intro before entry after hsplit epoch hepoch
    have hlater : 2 ≤ epoch := by
      cases hdelivery : entry.1 with
      | update index came =>
        rw [hdelivery] at hepoch
        simp only [Delivery.reconnectEpoch] at hepoch
        split at hepoch
        · rename_i hlt
          cases hepoch
          exact hlt
        · cases hepoch
      | snapshot | other =>
        rw [hdelivery] at hepoch
        cases hepoch
    have hwhole : feed.inbox = (first :: before) ++ entry :: after := by
      rw [hinbox]
      exact congrArg (first :: ·) hsplit
    rcases h.covered _ entry after hwhole epoch hepoch with ⟨earlier, hmem, hrefetch⟩ | hdone | hshut
    · rcases List.mem_cons.mp hmem with rfl | hmem
      · rw [Delivery.isRefetch_mono hlater hfirst] at hrefetch
        cases hrefetch
      · exact Or.inl ⟨earlier, hmem, hrefetch⟩
    · exact Or.inr (Or.inl hdone)
    · exact Or.inr (Or.inr ⟨hshut.1, fun e he => hshut.2 e (List.mem_cons_of_mem _ he)⟩)

/-- A snapshot in the queue will be applied. -/
theorem Refreshed.applies_snapshot (h : feed.Refreshed tokenKey) {entry : Delivery × Event}
    (hmem : entry ∈ feed.inbox) (hsnapshot : entry.1.isSnapshot = true) (env : ShardEnv) :
    (feed.worker.quoteFor env tokenKey entry.2).appliesLevels entry.2 = true := by
  obtain ⟨delivery, event⟩ := entry
  cases delivery with
  | snapshot captured epoch =>
    unfold Shard.QuoteState.appliesLevels
    rw [(h.labelled.carries _ hmem).2.1]
    simp only [h.loads _ hmem rfl, Bool.true_or]
  | update | other => cases hsnapshot

/-- Nothing but a snapshot opens the book. -/
theorem Refreshed.holds_handle (h : feed.Refreshed tokenKey) (hholds : feed.Holds tokenKey)
    {entry : Delivery × Event} (hmem : entry ∈ feed.inbox) (hother : entry.1.isSnapshot = false)
    {env : ShardEnv} (hworker : feed'.worker = feed.worker.handle env (.event entry.2)) :
    feed'.Holds tokenKey := by
  obtain ⟨delivery, event⟩ := entry
  have hcarries := h.labelled.carries _ hmem
  unfold Holds
  rw [hworker]
  cases delivery with
  | snapshot => cases hother
  | update index came =>
    obtain ⟨hkey, hvenue, hkind, _⟩ := hcarries
    exact hholds.event h.labelled.nodup hkey (by rw [hkind]; decide) fun _ => hvenue
  | other =>
    obtain ⟨hkey, hsnapshot, hdelta⟩ := hcarries
    exact hholds.event h.labelled.nodup hkey hsnapshot fun hkind => absurd hkind hdelta

/-- What the shard takes was covered, and what is behind it stays so. -/
theorem Refreshed.handle (h : feed.Refreshed tokenKey) {env : ShardEnv}
    (hguard : RefetchFirst snapCfg tokenKey feed (.handle env))
    (hstep : feed.step snapCfg tokenKey (.handle env) = some feed') : feed'.Refreshed tokenKey := by
  have hlabelled := h.labelled.step hstep
  have hcoming := h.coming_step hguard hstep
  obtain ⟨delivery, event, rest, hinbox, hfeed⟩ := step_handle hstep
  have hmem : (delivery, event) ∈ feed.inbox := by
    rw [hinbox]
    exact List.mem_cons_self
  have hhandled : feed'.handled = feed.handled ++ [(delivery, event,
      (feed.worker.quoteFor env tokenKey event).appliesLevels event)] := by
    rw [hfeed]
    rfl
  have hworker : feed'.worker = feed.worker.handle env (.event event) := by
    rw [hfeed]
    rfl
  have hrest : feed'.inbox = rest := by
    rw [hfeed]
    rfl
  have happlied : delivery.isSnapshot = true →
      (feed.worker.quoteFor env tokenKey event).appliesLevels event = true :=
    fun hsnapshot => h.applies_snapshot hmem hsnapshot env
  refine ⟨hlabelled, (gapClosed_append hhandled).mpr ⟨h.closed, ?_⟩, ?_, ?_, ?_, hcoming⟩
  · -- an update that is applied was covered by a snapshot
    intro happlies epoch hepoch
    rcases h.covered [] (delivery, event) rest hinbox epoch hepoch with ⟨_, hnone, _⟩ | hdone | hshut
    · cases hnone
    · exact hdone
    · cases delivery with
      | update index came => exact absurd hshut.1 ((applies_iff h.labelled hmem).mp happlies)
      | snapshot | other => cases hepoch
  · rw [hrest]
    intro entry hentry
    exact h.loads entry (by rw [hinbox]; exact List.mem_cons_of_mem _ hentry)
  · rw [hhandled]
    intro entry hentry
    rcases List.mem_append.mp hentry with hold | hnew
    · exact h.taken entry hold
    · rw [List.mem_singleton.mp hnew]
      exact happlied
  · intro before entry after hsplit epoch hepoch
    have hwhole : feed.inbox = ((delivery, event) :: before) ++ entry :: after := by
      rw [hinbox, ← hrest, hsplit, List.cons_append]
    rcases h.covered _ entry after hwhole epoch hepoch with
      ⟨earlier, hearlier, hrefetch⟩ | hdone | hshut
    · rcases List.mem_cons.mp hearlier with rfl | hbehind
      · -- the snapshot that was asked for since has just been applied
        right
        left
        unfold refetched
        rw [hhandled, List.any_append, happlied (Delivery.isSnapshot_of_isRefetch hrefetch)]
        simp [hrefetch]
      · exact Or.inl ⟨earlier, hbehind, hrefetch⟩
    · right
      left
      unfold refetched at hdone ⊢
      rw [hhandled, List.any_append, hdone]
      rfl
    · -- nothing that opens the book has been taken
      right
      right
      exact ⟨h.holds_handle hshut.1 hmem (hshut.2 _ List.mem_cons_self) hworker,
        fun e he => hshut.2 e (List.mem_cons_of_mem _ he)⟩

/-- The shard takes what is not about the token's book. -/
theorem Refreshed.elsewhere (h : feed.Refreshed tokenKey) {env : ShardEnv} {message : ShardMessage}
    (hstep : feed.step snapCfg tokenKey (.elsewhere env message) = some feed') :
    feed'.Refreshed tokenKey := by
  have hlabelled := h.labelled.step hstep
  obtain ⟨hmessage, rfl⟩ := step_elsewhere hstep
  refine ⟨hlabelled, h.closed, h.loads, h.taken, ?_, h.coming⟩
  intro before entry after hsplit epoch hepoch
  rcases h.covered before entry after hsplit epoch hepoch with hqueued | hdone | hshut
  · exact Or.inl hqueued
  · exact Or.inr (Or.inl hdone)
  · exact Or.inr (Or.inr ⟨hshut.1.elsewhere h.labelled.nodup hmessage, hshut.2⟩)

theorem Refreshed.step (h : feed.Refreshed tokenKey) {e : FeedEvent}
    (hguard : RefetchFirst snapCfg tokenKey feed e)
    (hstep : feed.step snapCfg tokenKey e = some feed') : feed'.Refreshed tokenKey := by
  have hlabelled := h.labelled.step hstep
  have hcoming := h.coming_step hguard hstep
  cases e with
  | handle env => exact h.handle hguard hstep
  | lose => exact h.lose hguard hstep
  | elsewhere env message => exact h.elsewhere hstep
  | receive arrival noteSent =>
    obtain ⟨message, _, rfl⟩ := step_receive hstep
    exact h.push hlabelled rfl rfl rfl hcoming (fun hsnapshot => Bool.noConfusion hsnapshot)
      (h.covered_receive hguard)
  | receiveOther arrival message noteSent =>
    obtain ⟨_, rfl⟩ := step_receiveOther hstep
    exact h.push hlabelled rfl rfl rfl hcoming (fun hsnapshot => Bool.noConfusion hsnapshot)
      fun epoch hepoch => by cases hepoch
  | answer captured book arrival =>
    obtain ⟨fetch, _, _, _, rfl⟩ := step_answer hstep
    exact h.push hlabelled rfl rfl rfl hcoming (fun _ => rfl) fun epoch hepoch => by cases hepoch
  | venueUpdate message =>
    obtain ⟨_, rfl⟩ := step_venueUpdate hstep
    exact h.of_same hlabelled rfl rfl rfl hcoming
  | connect triggerSent =>
    rw [step_connect hstep] at hlabelled hcoming ⊢
    exact h.of_same hlabelled rfl rfl rfl hcoming
  | disconnect | request | wake | round | fail =>
    obtain ⟨hsame, _⟩ := step_quiet rfl hstep
    exact h.of_same hlabelled hsame.inbox hsame.worker hsame.handled hcoming

end OpinionFeed

/-- In a run in which every refresh after a reconnect goes through before updates arrive, no update
is applied across a gap. -/
theorem gapClosed_of_refetchFirst {shardCfg : ShardConfig} {snapCfg : SnapshotConfig}
    {tokenKey : String} {start final : OpinionFeed}
    (hinit : (feedMachine shardCfg snapCfg tokenKey).init start) {es : List FeedEvent}
    (hrun : (feedMachine shardCfg snapCfg tokenKey).run start es = some final)
    (hmeets : (feedMachine shardCfg snapCfg tokenKey).RunMeets (RefetchFirst snapCfg tokenKey)
      start es) : final.GapClosed := by
  have hstart : start.Refreshed tokenKey := by
    have hlabelled : start.Labelled tokenKey :=
      OpinionFeed.labelled_of_reachable ⟨start, [], hinit, rfl⟩
    obtain ⟨opening, rfl⟩ := hinit
    refine ⟨hlabelled, ?_, fun _ hmem => ?_, fun _ hmem => ?_, ?_, ?_⟩
    · intro before entry after hhandled
      exact absurd hhandled.symm (by simp [OpinionFeed.start])
    · cases hmem
    · cases hmem
    · intro before entry after hinbox
      exact absurd hinbox.symm (by simp [OpinionFeed.start])
    · rintro ⟨hlater, _⟩
      cases hlater
  exact (Lib.Machine.inv_of_runMeets _ _ (fun s e s' hs hg hstep => hs.step hg hstep) hstart hmeets
    hrun).closed

/-! ## Sample runs -/

instance (feed : OpinionFeed) : Decidable feed.Awaits :=
  inferInstanceAs (Decidable (_ ∧ _ ∧ _))

instance (feed : OpinionFeed) : Decidable feed.RefreshWaits :=
  inferInstanceAs (Decidable (_ ∨ _))

instance (feed : OpinionFeed) : Decidable feed.Asking :=
  inferInstanceAs (Decidable (∃ fetch ∈ feed.fetch, _))

instance (tokenKey : String) (feed : OpinionFeed) : Decidable (feed.Shut tokenKey) :=
  inferInstanceAs (Decidable ((∀ st ∈ feed.worker.state tokenKey, _) ∧ _))

instance decidableRefetchFirst (snapCfg : SnapshotConfig) (tokenKey : String) (feed : OpinionFeed) :
    ∀ e, Decidable (RefetchFirst snapCfg tokenKey feed e)
  | .connect triggerSent => inferInstanceAs (Decidable (feed.epoch = 0 ∨ triggerSent = true))
  | .round nowMs kind _ => inferInstanceAs (Decidable (kind = .triggerAll → feed.Awaits →
      tokenKey ∈ snapCfg.targets ∧ feed.snapshotter.Passes snapCfg nowMs tokenKey))
  | .fail .. => inferInstanceAs (Decidable (feed.Awaits → feed.Asking → feed.RefreshWaits))
  | .receive .. => inferInstanceAs (Decidable
      (feed.Awaits → feed.RefreshWaits ∨ feed.Asking → feed.Shut tokenKey))
  | .lose => inferInstanceAs (Decidable
      (∀ entry ∈ feed.inbox.head?, entry.1.isRefetch 2 = false))
  | .venueUpdate _ | .disconnect | .receiveOther .. | .request _ | .wake _ | .answer .. | .handle _
  | .elsewhere .. => inferInstanceAs (Decidable True)

/-- The ask gets smaller. -/
def smallerAsk : MarketMessage := ⟨.depthDiff, none, some .ask, some (13 / 25), some 4, false⟩

/-- The book is loaded, the connection drops while the bid gets smaller, and it is there again. -/
def reconnectedRun : List FeedEvent :=
  arrivingRun ++ [.handle Shard.calmEnv, .disconnect, .venueUpdate smallerBid, .connect true]

/-- The new book is fetched, then another update arrives. -/
def refreshedRun : List FeedEvent :=
  reconnectedRun ++
    [.wake 9000, .round 9000 .triggerAll ["token"],
      .answer 1 ⟨[⟨1 / 2, 4⟩], [⟨13 / 25, 10⟩], none⟩ (arrivalAt 9100), .venueUpdate smallerAsk,
      .receive (arrivalAt 9200) true, .handle Shard.calmEnv, .handle Shard.calmEnv]

/-- The other update arrives first. -/
def gapRun : List FeedEvent :=
  reconnectedRun ++
    [.venueUpdate smallerAsk, .receive (arrivalAt 9000) true, .handle Shard.calmEnv]

def refreshed : OpinionFeed :=
  (exampleFeed.run (OpinionFeed.start Shard.exampleConfig smallOpening) refreshedRun).get
    (by decide +kernel)

def gapped : OpinionFeed :=
  (exampleFeed.run (OpinionFeed.start Shard.exampleConfig smallOpening) gapRun).get
    (by decide +kernel)

/-- The update that came after the new book was applied. -/
theorem gapClosed_refreshed :
    refreshed.GapClosed ∧ refreshed.handled.map (fun entry => (entry.1, entry.2.2)) =
      [(.snapshot 0 1, true), (.snapshot 1 2, true), (.update 1 2, true)] :=
  ⟨gapClosed_of_refetchFirst ⟨smallOpening, rfl⟩ (Option.some_get _).symm (by decide +kernel),
    by decide +kernel⟩

/-- An update that follows a reconnect is applied to the book from before the gap. -/
theorem gap_papered_over :
    ¬ ∀ (shardCfg : ShardConfig) (snapCfg : SnapshotConfig) (tokenKey : String)
      (feed : OpinionFeed), (feedMachine shardCfg snapCfg tokenKey).Reachable feed →
      feed.GapClosed := by
  intro hall
  have hclosed := hall Shard.exampleConfig exampleSnapConfig "token" gapped
    ⟨_, gapRun, ⟨smallOpening, rfl⟩, (Option.some_get _).symm⟩
  have hlast : gapped.handled =
      [(.snapshot 0 1, smallAnswer.event (arrivalAt 1000) "token", true)] ++
        (.update 1 2, smallerAsk.event (arrivalAt 9000) "token", true) :: [] := by decide +kernel
  have hrefetched := hclosed _ _ _ hlast rfl 2 rfl
  exact absurd hrefetched (by decide)

end AlphaMonitor.Feed
