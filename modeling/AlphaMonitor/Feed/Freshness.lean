import AlphaMonitor.Feed.Race

/-!
# Fresh books

A token whose book was updated a moment ago is not fetched.  The snapshotter learns of
updates from the WebSocket task, as they arrive there, while whether an update changes
the book is up to the shard.

## Main results

- `fresh_of_runMeets`: fresh books were updated if every note follows its update
- `fresh_without_book`: in general they were not
-/

namespace AlphaMonitor.Feed

open Shard (ShardConfig)

/-- The event is one of the book, and not older than `sinceMs`.  A level update is as old as the
note of it, which is what freshness goes by; a snapshot is as old as its arrival. -/
def Delivery.isSince (notes : List (ℕ × ℤ)) (sinceMs : ℤ) (event : Event) : Delivery → Bool
  | .update index _ => notes.any fun note => decide (note.1 = index ∧ sinceMs ≤ note.2)
  | .snapshot .. => decide (sinceMs ≤ event.localTsMs)
  | .other => false

namespace OpinionFeed

/-- A book event of the token that is not older was applied to its book. -/
def appliedSince (feed : OpinionFeed) (sinceMs : ℤ) : Bool :=
  feed.handled.any fun entry => entry.2.2 && entry.1.isSince feed.notes sinceMs entry.2.1

/-- The level update was applied to the book. -/
def applied (feed : OpinionFeed) (index : ℕ) : Bool :=
  feed.handled.any fun entry => entry.2.2 && decide (entry.1.index = some index)

/-- Whenever the token is skipped as fresh, a book event inside the window was applied. -/
def FreshIsUpdated (snapCfg : SnapshotConfig) (tokenKey : String) (feed : OpinionFeed) : Prop :=
  ∀ (nowMs : ℤ) (targets : List String), 0 < snapCfg.orderbookWsStaleMs → tokenKey ∈ targets →
    tokenKey ∉ (feed.snapshotter.filterOrderbookTargets snapCfg nowMs targets).1 →
      feed.appliedSince (nowMs - snapCfg.orderbookWsStaleMs) = true

end OpinionFeed

/-- When the snapshotter notes updates of the token's book, the shard has applied one of them
already, or a book event that is no older. -/
def NotesFollow (tokenKey : String) (feed : OpinionFeed) : FeedEvent → Prop
  | .wake nowMs =>
    (∃ entry ∈ feed.commands, entry.1.isForeign tokenKey = false) →
      (∃ entry ∈ feed.commands, ∃ index ∈ entry.2, feed.applied index = true) ∨
        feed.appliedSince nowMs = true
  | _ => True

namespace OpinionFeed

variable {snapCfg : SnapshotConfig} {tokenKey : String} {feed feed' : OpinionFeed}

/-- More events and notes do not undo what was applied. -/
theorem appliedSince_grow {sinceMs : ℤ} (h : feed.appliedSince sinceMs = true)
    (hnotes : feed.notes <+: feed'.notes) (hhandled : feed.handled <+: feed'.handled) :
    feed'.appliedSince sinceMs = true := by
  unfold appliedSince at h ⊢
  rw [List.any_eq_true] at h ⊢
  obtain ⟨entry, hentry, hsince⟩ := h
  refine ⟨entry, hhandled.subset hentry, ?_⟩
  rw [Bool.and_eq_true] at hsince ⊢
  refine ⟨hsince.1, ?_⟩
  obtain ⟨delivery, event, outcome⟩ := entry
  cases delivery with
  | update index epoch =>
    have hany := hsince.2
    simp only [Delivery.isSince, List.any_eq_true] at hany ⊢
    obtain ⟨note, hnote, hindex⟩ := hany
    exact ⟨note, hnotes.subset hnote, hindex⟩
  | snapshot captured epoch => exact hsince.2
  | other => exact hsince.2

theorem appliedSince_mono {sinceMs earlierMs : ℤ} (h : feed.appliedSince sinceMs = true)
    (hle : earlierMs ≤ sinceMs) : feed.appliedSince earlierMs = true := by
  unfold appliedSince at h ⊢
  rw [List.any_eq_true] at h ⊢
  obtain ⟨entry, hentry, hsince⟩ := h
  refine ⟨entry, hentry, ?_⟩
  rw [Bool.and_eq_true] at hsince ⊢
  refine ⟨hsince.1, ?_⟩
  obtain ⟨delivery, event, outcome⟩ := entry
  cases delivery with
  | update index epoch =>
    have hany := hsince.2
    simp only [Delivery.isSince, List.any_eq_true, decide_eq_true_eq] at hany ⊢
    obtain ⟨note, hnote, hindex, hnoted⟩ := hany
    exact ⟨note, hnote, hindex, hle.trans hnoted⟩
  | snapshot captured epoch =>
    have harrived := hsince.2
    simp only [Delivery.isSince, decide_eq_true_eq] at harrived ⊢
    exact hle.trans harrived
  | other => exact hsince.2

/-! ## One step -/

/-- The time of the last book update is the time of one that was applied. -/
def TimeIsApplied (tokenKey : String) (feed : OpinionFeed) : Prop :=
  ∀ tsMs, feed.snapshotter.lastWsBookMs tokenKey = some tsMs → feed.appliedSince tsMs = true

/-- Only notes that are taken in change the time. -/
theorem step_lastWsBookMs {e : FeedEvent} (hwake : ∀ nowMs, e ≠ .wake nowMs)
    (hstep : feed.step snapCfg tokenKey e = some feed') :
    feed'.snapshotter.lastWsBookMs = feed.snapshotter.lastWsBookMs ∧
      feed'.notes = feed.notes ∧ feed.handled <+: feed'.handled := by
  cases e with
  | wake nowMs => exact absurd rfl (hwake nowMs)
  | venueUpdate message =>
    rw [(step_venueUpdate hstep).2]
    exact ⟨rfl, rfl, List.prefix_refl _⟩
  | connect triggerSent =>
    rw [step_connect hstep]
    exact ⟨rfl, rfl, List.prefix_refl _⟩
  | receive arrival noteSent =>
    obtain ⟨_, _, hfeed⟩ := step_receive hstep
    rw [hfeed]
    exact ⟨rfl, rfl, List.prefix_refl _⟩
  | receiveOther arrival message noteSent =>
    rw [(step_receiveOther hstep).2]
    exact ⟨rfl, rfl, List.prefix_refl _⟩
  | round nowMs kind targets =>
    obtain ⟨rest, hfeed⟩ := step_round hstep
    rw [hfeed]
    exact ⟨feed.snapshotter.select_lastWsBookMs snapCfg nowMs kind targets, rfl,
      List.prefix_refl _⟩
  | answer captured book arrival =>
    obtain ⟨_, _, _, _, hfeed⟩ := step_answer hstep
    rw [hfeed]
    exact ⟨feed.snapshotter.noteFetched_lastWsBookMs snapCfg _ tokenKey _, rfl,
      List.prefix_refl _⟩
  | fail nowMs jitteredMs =>
    simp only [step, Option.map_eq_some_iff] at hstep
    obtain ⟨_, _, hfeed⟩ := hstep
    rw [← hfeed]
    cases jitteredMs <;> exact ⟨rfl, rfl, List.prefix_refl _⟩
  | handle env =>
    obtain ⟨_, _, _, _, hfeed⟩ := step_handle hstep
    rw [hfeed]
    exact ⟨rfl, rfl, List.prefix_append _ _⟩
  | lose =>
    obtain ⟨_, _, _, hfeed⟩ := step_lose hstep
    rw [hfeed]
    exact ⟨rfl, rfl, List.prefix_refl _⟩
  | elsewhere env message =>
    rw [(step_elsewhere hstep).2]
    exact ⟨rfl, rfl, List.prefix_refl _⟩
  | disconnect =>
    simp only [step] at hstep
    split at hstep
    · cases hstep
      exact ⟨rfl, rfl, List.prefix_refl _⟩
    · cases hstep
  | request command =>
    simp only [step] at hstep
    split at hstep
    · cases hstep
      exact ⟨rfl, rfl, List.prefix_refl _⟩
    · cases hstep

theorem TimeIsApplied.wake (h : feed.TimeIsApplied tokenKey) {nowMs : ℤ}
    (hguard : NotesFollow tokenKey feed (.wake nowMs)) :
    (feed.wake snapCfg nowMs).TimeIsApplied tokenKey := by
  intro tsMs htime
  have hnotes : feed.notes <+: (feed.wake snapCfg nowMs).notes := List.prefix_append _ _
  have hhandled : feed.handled <+: (feed.wake snapCfg nowMs).handled := List.prefix_refl _
  rcases feed.snapshotter.takeCommands_lastWsBookMs snapCfg nowMs (feed.commands.map (·.1))
    tokenKey with hkept | ⟨hnow, lastPrice, payloadTsMs, hmem⟩
  · have hbefore : feed.snapshotter.lastWsBookMs tokenKey = some tsMs := hkept.symm.trans htime
    exact appliedSince_grow (h tsMs hbefore) hnotes hhandled
  · have htsMs : nowMs = tsMs := Option.some.inj (hnow.symm.trans htime)
    subst htsMs
    obtain ⟨entry, hentry, hcommand⟩ := List.mem_map.mp hmem
    have hforeign : entry.1.isForeign tokenKey = false := by
      rw [hcommand]
      simp [SnapshotCommand.isForeign]
    rcases hguard ⟨entry, hentry, hforeign⟩ with ⟨noted, hnoted, index, hindex, happlied⟩ | hsince
    · -- the update was applied, and from now on it counts as noted at this time
      unfold applied at happlied
      rw [List.any_eq_true] at happlied
      obtain ⟨done, hdone, hboth⟩ := happlied
      rw [Bool.and_eq_true, decide_eq_true_eq] at hboth
      unfold appliedSince
      rw [List.any_eq_true]
      refine ⟨done, hdone, ?_⟩
      rw [Bool.and_eq_true]
      refine ⟨hboth.1, ?_⟩
      obtain ⟨delivery, event, outcome⟩ := done
      cases delivery with
      | update i epoch =>
        have hi : i = index := Option.some.inj hboth.2
        simp only [Delivery.isSince, List.any_eq_true, decide_eq_true_eq]
        refine ⟨(index, nowMs), ?_, hi.symm, le_refl _⟩
        apply List.mem_append_right
        apply List.mem_map.mpr
        exact ⟨index, List.mem_filterMap.mpr ⟨noted, hnoted, hindex⟩, rfl⟩
      | snapshot captured epoch => cases hboth.2
      | other => cases hboth.2
    · exact appliedSince_grow hsince hnotes hhandled

theorem TimeIsApplied.step (h : feed.TimeIsApplied tokenKey) {e : FeedEvent}
    (hguard : NotesFollow tokenKey feed e)
    (hstep : feed.step snapCfg tokenKey e = some feed') : feed'.TimeIsApplied tokenKey := by
  by_cases hwake : ∃ nowMs, e = .wake nowMs
  · obtain ⟨nowMs, rfl⟩ := hwake
    rw [step_wake hstep]
    exact h.wake hguard
  · rw [not_exists] at hwake
    obtain ⟨htime, hnotes, hhandled⟩ := step_lastWsBookMs hwake hstep
    intro tsMs hts
    rw [htime] at hts
    exact appliedSince_grow (h tsMs hts) (hnotes ▸ List.prefix_refl _) hhandled

/-- Where the time is that of an applied event, what is skipped as fresh was updated. -/
theorem TimeIsApplied.fresh (h : feed.TimeIsApplied tokenKey) :
    feed.FreshIsUpdated snapCfg tokenKey := by
  intro nowMs targets hwindow htarget hskipped
  rw [Snapshotter.mem_filterOrderbookTargets] at hskipped
  have hbook : feed.snapshotter.bookStale snapCfg nowMs tokenKey = false := by
    by_contra hstale
    exact hskipped ⟨htarget, Or.inr (Or.inl (eq_true_of_ne_false hstale))⟩
  unfold Snapshotter.bookStale at hbook
  simp only at hbook
  rw [if_neg (not_le.mpr hwindow), decide_eq_false_iff_not, not_or, not_lt] at hbook
  obtain ⟨hnever, hage⟩ := hbook
  cases htime : feed.snapshotter.lastWsBookMs tokenKey with
  | none =>
    rw [htime] at hnever
    exact absurd rfl hnever
  | some tsMs =>
    rw [htime, Option.getD_some] at hage
    exact appliedSince_mono (h tsMs htime) (by omega)

end OpinionFeed

/-- In a run in which every note follows its update, a token that is skipped as fresh was updated
inside the window. -/
theorem fresh_of_runMeets {shardCfg : ShardConfig} {snapCfg : SnapshotConfig} {tokenKey : String}
    {start final : OpinionFeed} (hinit : (feedMachine shardCfg snapCfg tokenKey).init start)
    {es : List FeedEvent} (hrun : (feedMachine shardCfg snapCfg tokenKey).run start es = some final)
    (hmeets : (feedMachine shardCfg snapCfg tokenKey).RunMeets (NotesFollow tokenKey) start es) :
    final.FreshIsUpdated snapCfg tokenKey := by
  apply OpinionFeed.TimeIsApplied.fresh
  apply Lib.Machine.inv_of_runMeets _ _ (fun s e s' hs hg hstep => hs.step hg hstep) ?_ hmeets hrun
  obtain ⟨opening, rfl⟩ := hinit
  intro tsMs htime
  cases htime

/-! ## Sample runs -/

/-- A smaller bid with a time on it. -/
def datedBid : MarketMessage := { smallerBid with tsRaw := some 1700000000 }

/-- The time on it, in milliseconds. -/
def sampleMs : ℤ := 1700000000000

/-- The book is loaded, the bid gets smaller, and only then the snapshotter is told. -/
def followedRun : List FeedEvent :=
  arrivingRun ++
    [.handle Shard.calmEnv, .venueUpdate datedBid, .receive (arrivalAt sampleMs) true,
      .handle Shard.calmEnv, .wake sampleMs]

/-- The bid gets smaller while there is no book yet. -/
def unloadedRun : List FeedEvent :=
  [.connect false, .venueUpdate datedBid, .receive (arrivalAt sampleMs) true,
    .handle Shard.calmEnv, .wake sampleMs]

def followed : OpinionFeed :=
  (exampleFeed.run (OpinionFeed.start Shard.exampleConfig smallOpening) followedRun).get
    (by decide +kernel)

def unloaded : OpinionFeed :=
  (exampleFeed.run (OpinionFeed.start Shard.exampleConfig smallOpening) unloadedRun).get
    (by decide +kernel)

instance decidableNotesFollow (tokenKey : String) (feed : OpinionFeed) :
    ∀ e, Decidable (NotesFollow tokenKey feed e)
  | .wake nowMs => inferInstanceAs (Decidable
      ((∃ entry ∈ feed.commands, entry.1.isForeign tokenKey = false) →
        (∃ entry ∈ feed.commands, ∃ index ∈ entry.2, feed.applied index = true) ∨
          feed.appliedSince nowMs = true))
  | .venueUpdate _ | .disconnect | .connect _ | .receive .. | .receiveOther .. | .request _
  | .round .. | .answer .. | .fail .. | .handle _ | .lose | .elsewhere .. =>
    inferInstanceAs (Decidable True)

/-- The run in which the snapshotter is told last. -/
theorem fresh_followed : followed.FreshIsUpdated exampleSnapConfig "token" :=
  fresh_of_runMeets ⟨smallOpening, rfl⟩ (Option.some_get _).symm (by decide +kernel)

/-- An update that finds no book makes the token fresh, and keeps it from being fetched. -/
theorem fresh_without_book :
    ¬ ∀ (shardCfg : ShardConfig) (snapCfg : SnapshotConfig) (tokenKey : String)
      (feed : OpinionFeed), (feedMachine shardCfg snapCfg tokenKey).Reachable feed →
      feed.FreshIsUpdated snapCfg tokenKey := by
  intro hall
  have hfresh := hall Shard.exampleConfig exampleSnapConfig "token" unloaded
    ⟨_, unloadedRun, ⟨smallOpening, rfl⟩, (Option.some_get _).symm⟩ sampleMs ["token"]
    (by decide) (by decide) (by decide +kernel)
  have hnone : unloaded.appliedSince (sampleMs - exampleSnapConfig.orderbookWsStaleMs) = false := by
    decide +kernel
  rw [hnone] at hfresh
  cases hfresh

end AlphaMonitor.Feed
