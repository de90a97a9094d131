import AlphaMonitor.Feed.System

/-!
# Snapshots and level updates race

Snapshots are fetched while level updates arrive, and nothing orders the two: what the
shard holds is the book of the last snapshot it took, with the updates that came to it
after that snapshot.  If the venue changed a level between taking that snapshot and the
shard's loading it, the change was there and is gone again.

## Main results

- `Races.step`: what the shard holds, along a run
- `caught_up_iff`: when the shard ends up with the venue's book
-/

namespace AlphaMonitor.Feed

open Shard (Grid LevelWrite ShardWorker ShardEnv ShardMessage ShardConfig levelWritesOf levelsAfter)
open Lib (writeAll)

/-! ## The venue's book -/

namespace OpinionFeed

variable (feed : OpinionFeed)

/-- What the venue wrote from update `i` on, before update `j`. -/
def writesBetween (i j : ℕ) : List LevelWrite :=
  ((feed.updates.take j).drop i).flatMap (·.writes)

/-- The levels that these updates write. -/
def written (i j : ℕ) : List (BookSide × ℕ) := (feed.writesBetween i j).map Prod.fst

theorem writesBetween_self (i : ℕ) : feed.writesBetween i i = [] := by
  unfold writesBetween
  rw [List.drop_of_length_le]
  · rfl
  · rw [List.length_take]
    exact Nat.min_le_left i _

theorem writesBetween_append {i j k : ℕ} (hij : i ≤ j) (hjk : j ≤ k) :
    feed.writesBetween i k = feed.writesBetween i j ++ feed.writesBetween j k := by
  unfold writesBetween
  rw [← List.flatMap_append]
  congr 1
  have htake : feed.updates.take j = (feed.updates.take k).take j := by
    rw [List.take_take, Nat.min_eq_left hjk]
  rw [htake]
  conv_lhs => rw [← List.take_append_drop j (feed.updates.take k)]
  by_cases hlength : i ≤ ((feed.updates.take k).take j).length
  · rw [List.drop_append_of_le_length hlength]
  · -- the venue has not come as far as `i`
    have hshort : (feed.updates.take k).length ≤ i := by
      rw [List.length_take] at hlength
      omega
    have hnone : (feed.updates.take k).drop j = [] := by
      apply List.drop_of_length_le
      omega
    rw [hnone, List.append_nil, List.append_nil]

theorem writesBetween_succ {i j : ℕ} (hij : i ≤ j) {message : MarketMessage}
    (hmessage : feed.updates[j]? = some message) :
    feed.writesBetween i (j + 1) = feed.writesBetween i j ++ message.writes := by
  rw [feed.writesBetween_append hij (Nat.le_succ j)]
  congr 1
  unfold writesBetween
  obtain ⟨hlt, hget⟩ := List.getElem?_eq_some_iff.mp hmessage
  rw [List.take_add_one, hmessage, Option.toList_some, List.drop_append_of_le_length]
  · rw [List.drop_of_length_le]
    · simp
    · exact List.length_take_le j _
  · rw [List.length_take]
    omega

/-- A later book is an earlier one with the updates in between. -/
theorem bookAt_eq {i j : ℕ} (hij : i ≤ j) :
    feed.bookAt j = writeAll (feed.bookAt i) (feed.writesBetween i j) := by
  have hzero : ∀ n, feed.bookAt n = writeAll feed.opening (feed.writesBetween 0 n) := by
    intro n
    rfl
  rw [hzero, hzero, ← Lib.writeAll_append, ← feed.writesBetween_append (Nat.zero_le i) hij]

end OpinionFeed

/-! ## The shard's copy -/

/-- Where the shard's copy of the book comes from: the snapshot was taken after `captured` updates
and loaded after `loadedAt`, and now the first `seen` updates have come by. -/
structure Copy where
  (captured loadedAt seen : ℕ)

/-- What comes by next. -/
def Copy.take (copy : Copy) : Delivery → Copy
  | .update index _ => { copy with seen := index + 1 }
  | .snapshot captured _ => ⟨captured, copy.seen, copy.seen⟩
  | .other => copy

/-- A book that was right after `n` updates. -/
def Copy.fresh (n : ℕ) : Copy := ⟨n, n, n⟩

namespace OpinionFeed

/-- Where the shard's copy comes from, given that it was right at `start`. -/
def copySince (start feed : OpinionFeed) : Copy :=
  ((feed.handled.drop start.handled.length).map Prod.fst).foldl Copy.take
    (.fresh start.position)

/-- The levels of the copy. -/
def copied (feed : OpinionFeed) (copy : Copy) : Grid :=
  writeAll (feed.bookAt copy.captured) (feed.writesBetween copy.loadedAt copy.seen)

/-- Every level that the venue changed after it took the snapshot and before the shard loaded it
has the size of the snapshot again, or gets its size from an update that came later. -/
def NothingReverted (feed : OpinionFeed) (copy : Copy) : Prop :=
  ∀ level ∈ feed.written copy.captured copy.loadedAt,
    level ∉ feed.written copy.loadedAt feed.updates.length →
      feed.bookAt copy.captured level = feed.bookAt copy.loadedAt level

/-- The copy is the venue's book just in case the last snapshot reverts nothing. -/
theorem copied_eq_iff (feed : OpinionFeed) {copy : Copy}
    (hcaptured : copy.captured ≤ feed.updates.length) (hloaded : copy.loadedAt ≤ copy.seen) (hseen : copy.seen = feed.updates.length) :
    feed.copied copy = feed.bookAt feed.updates.length ↔ feed.NothingReverted copy := by
  unfold copied
  rw [hseen] at hloaded ⊢
  rw [feed.bookAt_eq hloaded, Lib.writeAll_eq_iff]
  constructor
  · intro hagree level _ hlevel
    exact hagree level hlevel
  · intro hnothing level hlevel
    by_cases hwritten : level ∈ feed.written copy.captured copy.loadedAt
    · exact hnothing level hwritten hlevel
    · -- no update between the two books touched the level
      rcases Nat.le_total copy.captured copy.loadedAt with hle | hle
      · rw [feed.bookAt_eq hle]
        exact (Lib.writeAll_of_notMem _ _ hwritten).symm
      · rw [feed.bookAt_eq hle]
        apply Lib.writeAll_of_notMem
        intro hlater
        apply hlevel
        rw [feed.writesBetween_append hle hcaptured, List.map_append]
        exact List.mem_append_left _ hlater

end OpinionFeed

/-! ## Runs -/

/-- The WebSocket delivers every update, the shard's queue takes every event, and whenever the shard
handles one the token's book has been loaded and needs no new snapshot. -/
def OnTrack (tokenKey : String) (feed : OpinionFeed) : FeedEvent → Prop
  | .disconnect | .connect _ | .lose => False
  | .handle _ => ∃ st ∈ feed.worker.state tokenKey,
      st.bookInitialized = true ∧ st.resyncNeeded = false
  | _ => True

/-- An answer is the venue's book at a moment between request and answer. -/
def Honest (feed : OpinionFeed) : FeedEvent → Prop
  | .answer captured book _ => Grid.ofLevels book.bids book.asks = feed.bookAt captured
  | _ => True

/-- Which update an event is a copy of. -/
def Delivery.index : Delivery → Option ℕ
  | .update index _ => some index
  | _ => none

/-- The updates on their way to the shard. -/
def indices (inbox : List (Delivery × Event)) : List ℕ := inbox.filterMap (·.1.index)

theorem indices_append (inbox later : List (Delivery × Event)) :
    indices (inbox ++ later) = indices inbox ++ indices later := List.filterMap_append

theorem indices_cons (delivery : Delivery) (event : Event) (rest : List (Delivery × Event)) :
    indices ((delivery, event) :: rest) = delivery.index.toList ++ indices rest := by
  unfold indices
  rw [List.filterMap_cons]
  cases delivery.index <;> simp

namespace OpinionFeed

/-- A snapshot on its way to the shard is the venue's book at the time it was taken. -/
def CarriesBook (feed : OpinionFeed) (entry : Delivery × Event) : Prop :=
  ∀ captured epoch, entry.1 = .snapshot captured epoch →
    ∃ bids asks, entry.2.payload.bids = some bids ∧ entry.2.payload.asks = some asks ∧
      Grid.ofLevels bids asks = feed.bookAt captured

/-- What the shard holds while updates and snapshots race to it. -/
structure Races (tokenKey : String) (start feed : OpinionFeed) : Prop where
  labelled : feed.Labelled tokenKey
  later : start.handled.length ≤ feed.handled.length
  captured : (copySince start feed).captured ≤ feed.updates.length
  loadedAt : (copySince start feed).loadedAt ≤ (copySince start feed).seen
  seen : (copySince start feed).seen ≤ feed.position
  levels : feed.worker.levels tokenKey = some (feed.copied (copySince start feed))
  order : indices feed.inbox =
    List.range' (copySince start feed).seen (feed.position - (copySince start feed).seen)
  books : ∀ entry ∈ feed.inbox, feed.CarriesBook entry

/-- The shard's book is the venue's after the updates that were received, and nothing is on its
way to the shard. -/
structure UpToDate (tokenKey : String) (feed : OpinionFeed) : Prop where
  levels : feed.worker.levels tokenKey = some (feed.bookAt feed.position)
  inbox : feed.inbox = []

/-- All updates have been received, and all events handled. -/
structure Settled (feed : OpinionFeed) : Prop where
  received : feed.position = feed.updates.length
  inbox : feed.inbox = []

variable {snapCfg : SnapshotConfig} {tokenKey : String} {start feed feed' : OpinionFeed}

theorem copySince_self : copySince start start = .fresh start.position := by
  unfold copySince
  rw [List.drop_length]
  rfl

theorem copySince_handle {delivery : Delivery} {outcome : Event × Bool}
    (hlater : start.handled.length ≤ feed.handled.length)
    (hhandled : feed'.handled = feed.handled ++ [(delivery, outcome)]) :
    copySince start feed' = (copySince start feed).take delivery := by
  unfold copySince
  rw [hhandled, List.drop_append_of_le_length hlater, List.map_append, List.foldl_append]
  rfl

theorem races_of_upToDate (hlabelled : feed.Labelled tokenKey) (h : feed.UpToDate tokenKey) :
    Races tokenKey feed feed := by
  have hcopy : copySince feed feed = .fresh feed.position := copySince_self
  refine ⟨hlabelled, le_refl _, ?_, ?_, ?_, ?_, ?_, ?_⟩
  · rw [hcopy]
    exact hlabelled.position
  · rw [hcopy]
    exact le_refl _
  · rw [hcopy]
    exact le_refl _
  · rw [hcopy, h.levels]
    unfold copied Copy.fresh
    rw [feed.writesBetween_self, Lib.writeAll_nil]
  · rw [hcopy, h.inbox]
    unfold Copy.fresh
    rw [Nat.sub_self]
    rfl
  · rw [h.inbox]
    intro entry hentry
    cases hentry

/-! ### One step -/

theorem bookAt_grow {more : List MarketMessage} {n : ℕ} (h : n ≤ feed.updates.length) :
    OpinionFeed.bookAt { feed with updates := feed.updates ++ more } n = feed.bookAt n := by
  unfold bookAt
  rw [List.take_append_of_le_length h]

theorem copied_grow {more : List MarketMessage} {copy : Copy}
    (hcaptured : copy.captured ≤ feed.updates.length) (hseen : copy.seen ≤ feed.updates.length) :
    OpinionFeed.copied { feed with updates := feed.updates ++ more } copy = feed.copied copy := by
  unfold copied
  rw [bookAt_grow hcaptured]
  unfold writesBetween
  rw [List.take_append_of_le_length hseen]

/-- The shard takes an update. -/
theorem Races.takeUpdate (h : Races tokenKey start feed) {env : ShardEnv} {event : Event}
    {index epoch : ℕ} {rest : List (Delivery × Event)}
    (hinbox : feed.inbox = (.update index epoch, event) :: rest)
    (hlabelled : (feed.handle tokenKey env (.update index epoch) event rest).Labelled tokenKey)
    (htrack : OnTrack tokenKey feed (.handle env)) :
    Races tokenKey start (feed.handle tokenKey env (.update index epoch) event rest) := by
  obtain ⟨hkey, _, hkind, message, hmessage, hwrites⟩ :=
    h.labelled.carries (.update index epoch, event) (by rw [hinbox]; exact List.mem_cons_self)
  have hcopy : copySince start (feed.handle tokenKey env (.update index epoch) event rest) =
      (copySince start feed).take (.update index epoch) := copySince_handle h.later rfl
  -- the events come in the order in which the venue made the updates
  have horder := h.order
  rw [hinbox, indices_cons] at horder
  have hnext : feed.position - (copySince start feed).seen =
      feed.position - ((copySince start feed).seen + 1) + 1 := by
    have hlength := congrArg List.length horder
    rw [List.length_range', List.length_append] at hlength
    simp only [Delivery.index, Option.toList_some, List.length_singleton] at hlength
    omega
  rw [hnext, List.range'_succ] at horder
  simp only [Delivery.index, Option.toList_some, List.singleton_append, List.cons.injEq] at horder
  obtain ⟨hindex, hrest⟩ := horder
  refine ⟨hlabelled, ?_, ?_, ?_, ?_, ?_, ?_, ?_⟩
  · exact h.later.trans (by simp [OpinionFeed.handle])
  · rw [hcopy]
    exact h.captured
  · rw [hcopy, hindex]
    exact h.loadedAt.trans (Nat.le_succ _)
  · rw [hcopy, hindex]
    show (copySince start feed).seen + 1 ≤ feed.position
    omega
  · rw [hcopy]
    obtain ⟨st, hst, hinit, hresync⟩ := htrack
    have happlies : (feed.worker.quoteFor env tokenKey event).appliesLevels event = true := by
      rw [feed.worker.quoteFor_of_state env tokenKey hst]
      unfold Shard.QuoteState.appliesLevels Shard.QuoteState.allows
      rw [hkind, hinit, hresync]
      simp
    have hgrid : (feed.worker.quoteFor env tokenKey event).orderbook.grid =
        feed.copied (copySince start feed) := by
      rw [feed.worker.quoteFor_of_state env tokenKey hst]
      have hlevels := h.levels
      unfold ShardWorker.levels at hlevels
      rw [hst, Option.map_some] at hlevels
      exact Option.some.inj hlevels
    refine (feed.worker.levels_handle_event env tokenKey hkey h.labelled.nodup).trans ?_
    rw [if_pos happlies, hgrid]
    unfold levelsAfter
    rw [hkind, hwrites]
    congr 1
    show writeAll (feed.copied (copySince start feed)) message.writes =
      writeAll (feed.bookAt (copySince start feed).captured)
        (feed.writesBetween (copySince start feed).loadedAt (index + 1))
    unfold copied
    rw [hindex] at hmessage ⊢
    rw [feed.writesBetween_succ h.loadedAt hmessage, Lib.writeAll_append]
  · rw [hcopy, hindex]
    exact hrest
  · intro entry hentry
    apply h.books
    rw [hinbox]
    exact List.mem_cons_of_mem _ hentry

/-- The shard loads a snapshot. -/
theorem Races.takeSnapshot (h : Races tokenKey start feed) {env : ShardEnv} {event : Event}
    {captured epoch : ℕ} {rest : List (Delivery × Event)}
    (hinbox : feed.inbox = (.snapshot captured epoch, event) :: rest)
    (hlabelled : (feed.handle tokenKey env (.snapshot captured epoch) event rest).Labelled tokenKey) :
    Races tokenKey start (feed.handle tokenKey env (.snapshot captured epoch) event rest) := by
  have hmem : (Delivery.snapshot captured epoch, event) ∈ feed.inbox := by
    rw [hinbox]
    exact List.mem_cons_self
  obtain ⟨hkey, hkind, hcaptured⟩ := h.labelled.carries _ hmem
  obtain ⟨bids, asks, hbids, hasks, hbook⟩ := h.books _ hmem captured epoch rfl
  have hcopy : copySince start (feed.handle tokenKey env (.snapshot captured epoch) event rest) =
      (copySince start feed).take (.snapshot captured epoch) := copySince_handle h.later rfl
  have horder := h.order
  rw [hinbox, indices_cons] at horder
  refine ⟨hlabelled, ?_, ?_, ?_, ?_, ?_, ?_, ?_⟩
  · exact h.later.trans (by simp [OpinionFeed.handle])
  · rw [hcopy]
    exact hcaptured
  · rw [hcopy]
    exact le_refl _
  · rw [hcopy]
    exact h.seen
  · rw [hcopy]
    have happlies : (feed.worker.quoteFor env tokenKey event).appliesLevels event = true := by
      unfold Shard.QuoteState.appliesLevels
      rw [hkind, hbids]
      rfl
    refine (feed.worker.levels_handle_event env tokenKey hkey h.labelled.nodup).trans ?_
    rw [if_pos happlies]
    unfold levelsAfter
    rw [hkind, hbids, hasks]
    simp only
    rw [Grid.load_some, hbook]
    congr 1
    show feed.bookAt captured = writeAll (feed.bookAt captured)
      (feed.writesBetween (copySince start feed).seen (copySince start feed).seen)
    rw [feed.writesBetween_self, Lib.writeAll_nil]
  · rw [hcopy]
    exact horder
  · intro entry hentry
    apply h.books
    rw [hinbox]
    exact List.mem_cons_of_mem _ hentry

/-- The shard takes something else, in whatever way it comes. -/
theorem Races.takeOther (h : Races tokenKey start feed) {env : ShardEnv} {message : ShardMessage}
    {inbox : List (Delivery × Event)} {handled : List (Delivery × Event × Bool)}
    (hmessage : ∀ event, message = .event event → event.tokenKey = tokenKey →
      event.kind ≠ .bookSnapshot ∧ event.kind ≠ .bookDelta)
    (hlabelled : OpinionFeed.Labelled tokenKey { feed with
      inbox := inbox, worker := feed.worker.handle env message, handled := handled })
    (hinbox : ∀ entry ∈ inbox, entry ∈ feed.inbox) (hindices : indices inbox = indices feed.inbox)
    (hlater : start.handled.length ≤ handled.length)
    (hcopy : copySince start { feed with handled := handled } = copySince start feed) :
    Races tokenKey start { feed with
      inbox := inbox, worker := feed.worker.handle env message, handled := handled } := by
  have hcopy' : copySince start { feed with
      inbox := inbox, worker := feed.worker.handle env message, handled := handled } =
      copySince start feed := hcopy
  refine ⟨hlabelled, hlater, ?_, ?_, ?_, ?_, ?_, ?_⟩
  · rw [hcopy']
    exact h.captured
  · rw [hcopy']
    exact h.loadedAt
  · rw [hcopy']
    exact h.seen
  · rw [hcopy']
    refine (feed.worker.levels_handle_elsewhere env tokenKey h.labelled.nodup hmessage ?_).trans
      h.levels
    rw [h.levels]
    rfl
  · rw [hcopy']
    exact hindices.trans h.order
  · intro entry hentry
    exact h.books entry (hinbox entry hentry)

/-- Something happens to the queue only. -/
theorem Races.requeue (h : Races tokenKey start feed) (hlabelled : feed'.Labelled tokenKey)
    (hopening : feed'.opening = feed.opening) (hupdates : feed'.updates = feed.updates)
    (hworker : feed'.worker = feed.worker) (hhandled : feed'.handled = feed.handled)
    (hposition : feed.position ≤ feed'.position)
    (horder : indices feed'.inbox = List.range' (copySince start feed).seen
      (feed'.position - (copySince start feed).seen))
    (hbooks : ∀ entry ∈ feed'.inbox, feed.CarriesBook entry) : Races tokenKey start feed' := by
  have hcopy : copySince start feed' = copySince start feed := by
    unfold copySince
    rw [hhandled]
  have hbookAt : ∀ n, feed'.bookAt n = feed.bookAt n := by
    intro n
    unfold bookAt
    rw [hopening, hupdates]
  refine ⟨hlabelled, ?_, ?_, ?_, ?_, ?_, ?_, ?_⟩
  · rw [hhandled]
    exact h.later
  · rw [hcopy, hupdates]
    exact h.captured
  · rw [hcopy]
    exact h.loadedAt
  · rw [hcopy]
    exact h.seen.trans hposition
  · rw [hworker, hcopy, h.levels]
    unfold copied writesBetween
    rw [hbookAt, hupdates]
  · rw [hcopy]
    exact horder
  · intro entry hentry captured epoch hdelivery
    rw [hbookAt]
    exact hbooks entry hentry captured epoch hdelivery

/-- The queue gets one more event. -/
theorem CarriesBook.push (h : ∀ entry ∈ feed.inbox, feed.CarriesBook entry)
    {entry : Delivery × Event} (hentry : feed.CarriesBook entry) :
    ∀ e ∈ feed.inbox ++ [entry], feed.CarriesBook e := by
  intro e hmem
  rcases List.mem_append.mp hmem with hold | hnew
  · exact h e hold
  · rw [List.mem_singleton.mp hnew]
    exact hentry

theorem Races.step (h : Races tokenKey start feed) {e : FeedEvent}
    (hguard : OnTrack tokenKey feed e ∧ Honest feed e)
    (hstep : feed.step snapCfg tokenKey e = some feed') : Races tokenKey start feed' := by
  have hlabelled := h.labelled.step hstep
  obtain ⟨htrack, hhonest⟩ := hguard
  have hsame : SameBooks feed feed' ∧ feed'.position = feed.position → Races tokenKey start feed' := by
    rintro ⟨⟨hopening, hupdates, hinbox, hworker, hhandled⟩, hposition⟩
    refine h.requeue hlabelled hopening hupdates hworker hhandled hposition.ge ?_ ?_
    · rw [hinbox, hposition]
      exact h.order
    · rw [hinbox]
      exact h.books
  cases e with
  | venueUpdate message =>
    obtain ⟨_, hfeed⟩ := step_venueUpdate hstep
    rw [hfeed] at hlabelled ⊢
    have hgrow : feed.updates.length ≤ (feed.updates ++ [message]).length :=
      (List.prefix_append _ _).length_le
    have hseen := h.seen.trans h.labelled.position
    refine ⟨hlabelled, h.later, h.captured.trans hgrow, h.loadedAt, h.seen, ?_, h.order, ?_⟩
    · refine h.levels.trans ?_
      congr 1
      exact (copied_grow h.captured hseen).symm
    · intro entry hentry captured epoch hdelivery
      obtain ⟨bids, asks, hbids, hasks, hbook⟩ := h.books entry hentry captured epoch hdelivery
      have hcarries := h.labelled.carries entry hentry
      rw [hdelivery] at hcarries
      exact ⟨bids, asks, hbids, hasks, hbook.trans (bookAt_grow hcarries.2.2).symm⟩
  | connect triggerSent => exact absurd htrack not_false
  | receive arrival noteSent =>
    obtain ⟨message, hmessage, hfeed⟩ := step_receive hstep
    rw [hfeed] at hlabelled ⊢
    refine h.requeue hlabelled rfl rfl rfl rfl (Nat.le_succ _) ?_ (CarriesBook.push h.books ?_)
    · have hseen := h.seen
      show indices (feed.inbox ++ [_]) = _
      rw [indices_append, h.order, indices_cons]
      show _ ++ [feed.position] = List.range' _ (feed.position + 1 - _)
      rw [Nat.sub_add_comm hseen, List.range'_concat, Nat.one_mul, Nat.add_sub_cancel' hseen]
    · intro captured epoch hdelivery
      cases hdelivery
  | receiveOther arrival message noteSent =>
    obtain ⟨_, hfeed⟩ := step_receiveOther hstep
    rw [hfeed] at hlabelled ⊢
    refine h.requeue hlabelled rfl rfl rfl rfl (le_refl _) ?_ (CarriesBook.push h.books ?_)
    · show indices (feed.inbox ++ [_]) = _
      rw [indices_append, h.order, indices_cons]
      exact List.append_nil _
    · intro captured epoch hdelivery
      cases hdelivery
  | answer captured book arrival =>
    obtain ⟨fetch, _, _, _, hfeed⟩ := step_answer hstep
    rw [hfeed] at hlabelled ⊢
    refine h.requeue hlabelled rfl rfl rfl rfl (le_refl _) ?_ (CarriesBook.push h.books ?_)
    · show indices (feed.inbox ++ [_]) = _
      rw [indices_append, h.order, indices_cons]
      exact List.append_nil _
    · intro captured' epoch hdelivery
      cases hdelivery
      exact ⟨book.bids, book.asks, rfl, rfl, hhonest⟩
  | handle env =>
    obtain ⟨delivery, event, rest, hinbox, hfeed⟩ := step_handle hstep
    rw [hfeed] at hlabelled ⊢
    cases delivery with
    | update index epoch => exact h.takeUpdate hinbox hlabelled htrack
    | snapshot captured epoch => exact h.takeSnapshot hinbox hlabelled
    | other =>
      have hmem : (Delivery.other, event) ∈ feed.inbox := by
        rw [hinbox]
        exact List.mem_cons_self
      obtain ⟨_, hkinds⟩ := h.labelled.carries _ hmem
      refine h.takeOther ?_ hlabelled ?_ ?_ ?_ ?_
      · intro event' hevent _
        cases hevent
        exact hkinds
      · intro entry hentry
        rw [hinbox]
        exact List.mem_cons_of_mem _ hentry
      · rw [hinbox, indices_cons]
        rfl
      · exact h.later.trans (by simp)
      · have hcopy : copySince start (feed.handle tokenKey env .other event rest) =
            (copySince start feed).take .other := copySince_handle h.later rfl
        exact hcopy
  | lose => exact absurd htrack not_false
  | elsewhere env message =>
    obtain ⟨hmessage, hfeed⟩ := step_elsewhere hstep
    rw [hfeed] at hlabelled ⊢
    exact h.takeOther hmessage hlabelled (fun _ hentry => hentry) rfl h.later rfl
  | disconnect => exact absurd htrack not_false
  | request | wake | round | fail =>
    obtain ⟨hbooks, hposition, _⟩ := step_quiet rfl hstep
    exact hsame ⟨hbooks, hposition⟩

end OpinionFeed

/-- A run from an up-to-date book that ends with nothing on its way: the shard has the venue's book
just in case the last snapshot it took reverted nothing. -/
theorem caught_up_iff {shardCfg : ShardConfig} {snapCfg : SnapshotConfig} {tokenKey : String}
    {start final : OpinionFeed} (h : (feedMachine shardCfg snapCfg tokenKey).Reachable start)
    (hstart : start.UpToDate tokenKey) {es : List FeedEvent}
    (hrun : (feedMachine shardCfg snapCfg tokenKey).run start es = some final)
    (hmeets : (feedMachine shardCfg snapCfg tokenKey).RunMeets
      (fun feed e => OnTrack tokenKey feed e ∧ Honest feed e) start es)
    (hsettled : final.Settled) :
    final.worker.levels tokenKey = some (final.bookAt final.updates.length) ↔
      final.NothingReverted (OpinionFeed.copySince start final) := by
  have hraces : OpinionFeed.Races tokenKey start final :=
    Lib.Machine.inv_of_runMeets _ _ (fun s e s' hs hg hstep => hs.step hg hstep)
      (OpinionFeed.races_of_upToDate (OpinionFeed.labelled_of_reachable h) hstart) hmeets hrun
  have hseen : (OpinionFeed.copySince start final).seen = final.updates.length := by
    have horder := congrArg List.length hraces.order
    rw [hsettled.inbox, List.length_range'] at horder
    have hle := hraces.seen
    have hreceived := hsettled.received
    have hnone : (indices []).length = 0 := rfl
    omega
  rw [hraces.levels, Option.some.injEq]
  exact final.copied_eq_iff hraces.captured hraces.loadedAt hseen

/-! ## A snapshot that is overtaken -/

instance decidableOnTrack (tokenKey : String) (feed : OpinionFeed) :
    ∀ e, Decidable (OnTrack tokenKey feed e)
  | .disconnect | .connect _ | .lose => inferInstanceAs (Decidable False)
  | .handle _ => inferInstanceAs (Decidable (∃ st ∈ feed.worker.state tokenKey,
      st.bookInitialized = true ∧ st.resyncNeeded = false))
  | .venueUpdate _ | .receive .. | .receiveOther .. | .request _ | .wake _ | .round .. | .answer ..
  | .fail .. | .elsewhere .. => inferInstanceAs (Decidable True)

/-- Books as they were at the start are honest answers. -/
theorem honest_of_opening {shardCfg : ShardConfig} {snapCfg : SnapshotConfig} {tokenKey : String}
    {feed : OpinionFeed} {es : List FeedEvent}
    (hopening : ∀ captured book arrival, FeedEvent.answer captured book arrival ∈ es →
      captured = 0 ∧ Grid.ofLevels book.bids book.asks = feed.opening) :
    (feedMachine shardCfg snapCfg tokenKey).RunMeets Honest feed es := by
  induction es generalizing feed with
  | nil => trivial
  | cons e es ih =>
    refine ⟨?_, fun feed' hstep => ih fun captured book arrival hanswer => ?_⟩
    · cases e with
      | answer captured book arrival =>
        obtain ⟨hzero, hbook⟩ := hopening captured book arrival List.mem_cons_self
        rw [hzero]
        exact hbook
      | _ => trivial
    · obtain ⟨hzero, hbook⟩ := hopening captured book arrival (List.mem_cons_of_mem _ hanswer)
      exact ⟨hzero, hbook.trans (OpinionFeed.step_opening hstep).symm⟩

/-- The settings of the sample runs. -/
def exampleSnapConfig : SnapshotConfig where
  targets := ["token"]
  orderbookWsStaleMs := 3000
  orderbookStalenessMs := 10000
  cooldownThresholdMs := 600000
  cooldownDurationMs := 900000

/-- The feed of the sample runs. -/
abbrev exampleFeed : Lib.Machine OpinionFeed FeedEvent :=
  feedMachine Shard.exampleConfig exampleSnapConfig "token"

/-- A book with one level on either side. -/
def smallAnswer : RestBook := ⟨[⟨1 / 2, 10⟩], [⟨13 / 25, 10⟩], none⟩

def arrivalAt (tsMs : ℤ) : Arrival := ⟨tsMs, 0, 60000⟩

/-- The venue's book at the start of the sample runs. -/
def smallOpening : Grid := Grid.ofLevels smallAnswer.bids smallAnswer.asks

/-- The book is asked for. -/
def fetchRun (tsMs : ℤ) : List FeedEvent :=
  [.request (.triggerToken "token" "signal"), .wake tsMs, .round tsMs .onDemand ["token"]]

/-- Up to the arrival of the first book. -/
def arrivingRun : List FeedEvent :=
  .connect false :: fetchRun 1000 ++ [.answer 0 smallAnswer (arrivalAt 1000)]

def arrived : OpinionFeed :=
  (exampleFeed.run (OpinionFeed.start Shard.exampleConfig smallOpening) arrivingRun).get
    (by decide +kernel)

theorem arrived_reachable : exampleFeed.Reachable arrived :=
  ⟨OpinionFeed.start Shard.exampleConfig smallOpening, arrivingRun, ⟨smallOpening, rfl⟩,
    (Option.some_get _).symm⟩

/-- The first book has been loaded. -/
def loaded : OpinionFeed :=
  arrived.handle "token" Shard.calmEnv (.snapshot 0 1)
    (smallAnswer.event (arrivalAt 1000) "token") []

theorem loaded_step : exampleFeed.step arrived (.handle Shard.calmEnv) = some loaded := by
  have hinbox : arrived.inbox =
      [(.snapshot 0 1, smallAnswer.event (arrivalAt 1000) "token")] := by decide +kernel
  show OpinionFeed.step exampleSnapConfig "token" arrived (.handle Shard.calmEnv) = some loaded
  simp only [OpinionFeed.step]
  rw [hinbox]
  rfl

theorem loaded_reachable : exampleFeed.Reachable loaded := arrived_reachable.step _ loaded_step

theorem loaded_opening : loaded.opening = smallOpening :=
  OpinionFeed.run_opening (Option.some_get _).symm

theorem loaded_upToDate : loaded.UpToDate "token" := by
  refine ⟨?_, rfl⟩
  have hposition : loaded.position = 0 := by decide +kernel
  have hbook : loaded.bookAt 0 = loaded.opening := rfl
  rw [hposition, hbook, loaded_opening]
  exact arrived.worker.levels_handle_event Shard.calmEnv "token" rfl
    (OpinionFeed.labelled_of_reachable arrived_reachable).nodup

/-- The bid gets smaller. -/
def smallerBid : MarketMessage := ⟨.depthDiff, none, some .bid, some (1 / 2), some 4, false⟩

/-- The book is asked for again.  Before the answer arrives the bid gets smaller, and the shard
takes this update first. -/
def overtakenRun : List FeedEvent :=
  fetchRun 1100 ++
    [.venueUpdate smallerBid, .receive (arrivalAt 1200) true, .handle Shard.calmEnv,
      .answer 0 smallAnswer (arrivalAt 1300), .handle Shard.calmEnv]

def overtaken : OpinionFeed := (exampleFeed.run loaded overtakenRun).get (by decide +kernel)

/-- The answer is the one from before all updates. -/
def isOldAnswer : FeedEvent → Bool
  | .answer captured book _ =>
    decide (captured = 0 ∧ book.bids = smallAnswer.bids ∧ book.asks = smallAnswer.asks)
  | _ => true

theorem honest_of_oldAnswers {es : List FeedEvent} (h : es.all isOldAnswer = true) :
    exampleFeed.RunMeets Honest loaded es := by
  apply honest_of_opening
  intro captured book arrival hanswer
  have hold := List.all_eq_true.mp h _ hanswer
  simp only [isOldAnswer, decide_eq_true_eq] at hold
  rw [hold.1, hold.2.1, hold.2.2, loaded_opening]
  exact ⟨rfl, rfl⟩

theorem overtaken_meets :
    exampleFeed.RunMeets (fun feed e => OnTrack "token" feed e ∧ Honest feed e) loaded
      overtakenRun := by
  apply Lib.Machine.RunMeets.and
  · decide +kernel
  · exact honest_of_oldAnswers (by decide +kernel)

theorem overtaken_settled : overtaken.Settled := by
  constructor <;> decide +kernel

/-- The answer is in the queue before the update arrives. -/
def inOrderRun : List FeedEvent :=
  fetchRun 1100 ++
    [.answer 0 smallAnswer (arrivalAt 1200), .venueUpdate smallerBid, .receive (arrivalAt 1300) true,
      .handle Shard.calmEnv, .handle Shard.calmEnv]

def inOrder : OpinionFeed := (exampleFeed.run loaded inOrderRun).get (by decide +kernel)

/-- The update comes after the book from before it, and stays. -/
theorem caught_up_inOrder :
    inOrder.worker.levels "token" = some (inOrder.bookAt inOrder.updates.length) := by
  have hmeets : exampleFeed.RunMeets (fun feed e => OnTrack "token" feed e ∧ Honest feed e) loaded
      inOrderRun := by
    apply Lib.Machine.RunMeets.and
    · decide +kernel
    · exact honest_of_oldAnswers (by decide +kernel)
  refine (caught_up_iff loaded_reachable loaded_upToDate (Option.some_get _).symm hmeets
    ⟨by decide +kernel, by decide +kernel⟩).mpr ?_
  unfold OpinionFeed.NothingReverted
  decide +kernel

/-- A book that was fetched before an update and arrives after it takes the update back. -/
theorem update_taken_back :
    ¬ ∀ (shardCfg : ShardConfig) (snapCfg : SnapshotConfig) (tokenKey : String)
      (start final : OpinionFeed), (feedMachine shardCfg snapCfg tokenKey).Reachable start →
      start.UpToDate tokenKey → ∀ es : List FeedEvent,
        (feedMachine shardCfg snapCfg tokenKey).run start es = some final →
        (feedMachine shardCfg snapCfg tokenKey).RunMeets
          (fun feed e => OnTrack tokenKey feed e ∧ Honest feed e) start es →
        final.Settled →
        final.worker.levels tokenKey = some (final.bookAt final.updates.length) := by
  intro hall
  have hequal := hall Shard.exampleConfig exampleSnapConfig "token" loaded overtaken loaded_reachable
    loaded_upToDate overtakenRun (Option.some_get _).symm overtaken_meets overtaken_settled
  have hsize : (overtaken.worker.state "token").map (·.orderbook.grid (.bid, 5000)) =
      some 10000000 := by decide +kernel
  have hvenue : overtaken.bookAt overtaken.updates.length (.bid, 5000) = 4000000 := by
    decide +kernel
  unfold ShardWorker.levels at hequal
  obtain ⟨st, hst, hgrid⟩ := Option.map_eq_some_iff.mp hequal
  rw [hst, Option.map_some, Option.some.injEq, hgrid, hvenue] at hsize
  omega

end AlphaMonitor.Feed
