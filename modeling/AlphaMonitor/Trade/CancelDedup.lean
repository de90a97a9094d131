import AlphaMonitor.Lib.DedupWindow
import AlphaMonitor.Trade.Runs

/-!
# The deduplication of the cancels

A cancel that was queued within the last second is not queued again for the same order.
The engine keeps the queued cancels in a map and in a queue, marks an order before it knows
whether the executor takes the request, and takes the mark back if it does not.

## Main definitions

- `CancelAttempt`: a call of `enqueue_cancel_order`
- `cancelLog`: the requests that a run of attempts queues

## Main results

- `dedup_enqueueCancelOrder`: the code is the deduplication window of the library
- `cancel_dedup_law`: the cancels of one order lie a window apart, and failures leave no mark
-/

namespace AlphaMonitor.Trade

open Lib (DedupWindow)

/-- A call of `enqueue_cancel_order`. -/
structure CancelAttempt where
  env : Env
  orderId : String

namespace Requests

/-- The requests after an attempt. -/
def attemptCancel (req : Requests) (a : CancelAttempt) : Requests :=
  (req.enqueueCancelOrder a.env a.orderId).1

/-- The requests after some attempts. -/
def attemptCancels (req : Requests) (attempts : List CancelAttempt) : Requests :=
  attempts.foldl attemptCancel req

/-- What the attempts queue for the executor, each with the time of its attempt. -/
def cancelLog : Requests → List CancelAttempt → List (ℤ × OrderRequest)
  | _, [] => []
  | req, a :: rest =>
    (((req.attemptCancel a).orderExec.drop req.orderExec.length).map fun r => (a.env.now, r)) ++
      cancelLog (req.attemptCancel a) rest

/-- The deduplication state. -/
def dedup (req : Requests) : DedupWindow ℤ String :=
  ⟨req.cancelDedupQueue, req.cancelDedupRecent⟩

/-! ## The code is the window of the library -/

theorem evictLoop_eq (now : ℤ) (queue : List (ℤ × String)) (recent : String → Option ℤ) :
    evictLoop now queue recent =
      ((DedupWindow.evict cancelDedupWindowMs now queue recent).queue,
        (DedupWindow.evict cancelDedupWindowMs now queue recent).recent) := by
  induction queue generalizing recent with
  | nil => rfl
  | cons e rest ih =>
    unfold evictLoop DedupWindow.evict
    simp only [ge_iff_le, ih]
    split
    · rfl
    · rfl

theorem dedup_evict (req : Requests) (now : ℤ) :
    (req.evictCancelDedup now).dedup = req.dedup.expire cancelDedupWindowMs now := by
  unfold evictCancelDedup
  rw [evictLoop_eq]
  rfl

theorem cancelledRecently_iff (req : Requests) (env : Env) (orderId : String) :
    req.cancelledRecently env orderId = true ↔
      req.dedup.Suppressed cancelDedupWindowMs env.now orderId := by
  unfold cancelledRecently DedupWindow.Suppressed
  simp only [dedup]
  cases req.cancelDedupRecent orderId with
  | none => simp
  | some last => simp

end Requests

/-- The attempt as the window sees it. -/
def CancelAttempt.offer (a : CancelAttempt) : DedupWindow.Attempt ℤ String :=
  ⟨a.env.now, a.orderId, a.env.execOpen⟩

namespace Requests

theorem dedup_enqueueCancelOrder (req : Requests) (a : CancelAttempt) :
    (req.attemptCancel a).dedup = (req.dedup.attempt cancelDedupWindowMs a.offer).1 ∧
      (req.enqueueCancelOrder a.env a.orderId).2.isSome =
        (req.dedup.attempt cancelDedupWindowMs a.offer).2 := by
  have hsuppressed_iff :
      (req.evictCancelDedup a.env.now).cancelledRecently a.env a.orderId = true ↔
        (req.dedup.expire cancelDedupWindowMs a.offer.time).Suppressed cancelDedupWindowMs
          a.offer.time a.offer.key := by
    rw [cancelledRecently_iff, dedup_evict]
    exact Iff.rfl
  unfold attemptCancel enqueueCancelOrder
  simp only
  split
  · rename_i hsuppressed
    rw [DedupWindow.attempt_of_suppressed (hsuppressed_iff.mp hsuppressed)]
    exact ⟨dedup_evict req a.env.now, rfl⟩
  · rename_i hfresh
    rw [DedupWindow.attempt_of_fresh (fun h => hfresh (hsuppressed_iff.mpr h))]
    have hevict : req.dedup.expire cancelDedupWindowMs a.offer.time =
        (req.evictCancelDedup a.env.now).dedup := (dedup_evict req a.env.now).symm
    rw [hevict]
    unfold enqueueOrderRequest CancelAttempt.offer
    -- A closed executor is the only way for an enqueued request to fail.
    cases a.env.execOpen with
    | true => exact ⟨rfl, rfl⟩
    | false => exact ⟨rfl, rfl⟩

/-- An attempt queues a cancel of its order just in case it yields a request id. -/
theorem attemptCancel_orderExec (req : Requests) (a : CancelAttempt) :
    (req.attemptCancel a).orderExec = req.orderExec ++
      (req.enqueueCancelOrder a.env a.orderId).2.toList.map fun id =>
        ⟨id, .cancelOrder a.orderId⟩ := by
  unfold attemptCancel enqueueCancelOrder
  simp only
  split
  · simp [evictCancelDedup]
  · unfold enqueueOrderRequest
    cases a.env.execOpen with
    | true => rfl
    | false => simp [evictCancelDedup]

theorem dedup_attemptCancels (req : Requests) (attempts : List CancelAttempt) :
    (req.attemptCancels attempts).dedup =
      req.dedup.run cancelDedupWindowMs (attempts.map CancelAttempt.offer) := by
  induction attempts generalizing req with
  | nil => rfl
  | cons a rest ih =>
    have hone := ih (req.attemptCancel a)
    rw [(req.dedup_enqueueCancelOrder a).1] at hone
    exact hone

/-- The cancels of the log, with their times and orders, are what the window accepts. -/
theorem cancelLog_eq (req : Requests) (attempts : List CancelAttempt) :
    (req.cancelLog attempts).map (fun e => (e.1, e.2.kind)) =
      (req.dedup.accepted cancelDedupWindowMs (attempts.map CancelAttempt.offer)).map
        fun a => (a.time, .cancelOrder a.key) := by
  induction attempts generalizing req with
  | nil => rfl
  | cons a rest ih =>
    have hrest := ih (req.attemptCancel a)
    obtain ⟨hdedup, haccepted⟩ := req.dedup_enqueueCancelOrder a
    rw [hdedup] at hrest
    -- The log gains the cancel just in case the window accepts the attempt.
    simp only [cancelLog, List.map_cons, DedupWindow.accepted, ← haccepted,
      attemptCancel_orderExec, List.drop_left, List.map_append, hrest]
    cases (req.enqueueCancelOrder a.env a.orderId).2 with
    | none => rfl
    | some id => rfl

/-! ## Runs of attempts -/

section

variable {req : Requests} {attempts : List CancelAttempt}

theorem inOrder_offers (horder : attempts.Pairwise fun a a' => a.env.now ≤ a'.env.now) :
    DedupWindow.InOrder (attempts.map CancelAttempt.offer) :=
  List.pairwise_map.mpr horder

theorem kept_attemptCancels (hempty : req.dedup = ⟨[], fun _ => none⟩)
    (horder : attempts.Pairwise fun a a' => a.env.now ≤ a'.env.now) :
    (req.attemptCancels attempts).dedup.Kept := by
  rw [dedup_attemptCancels, hempty]
  exact DedupWindow.kept_empty.run (inOrder_offers horder)
    fun _ _ => List.forall_mem_nil _

theorem until_attemptCancels (hempty : req.dedup = ⟨[], fun _ => none⟩)
    (horder : attempts.Pairwise fun a a' => a.env.now ≤ a'.env.now) {now : ℤ}
    (hnow : ∀ a ∈ attempts, a.env.now ≤ now) : (req.attemptCancels attempts).dedup.Until now := by
  rw [dedup_attemptCancels, hempty]
  apply DedupWindow.kept_empty.run_until (inOrder_offers horder)
    (fun _ _ => List.forall_mem_nil _) (List.forall_mem_nil _)
  intro offer hoffer
  obtain ⟨a, ha, rfl⟩ := List.mem_map.mp hoffer
  exact hnow a ha

/-- The cancels that are queued for one order lie a window apart. -/
theorem cancelLog_apart (hempty : req.dedup = ⟨[], fun _ => none⟩)
    (horder : attempts.Pairwise fun a a' => a.env.now ≤ a'.env.now) :
    (req.cancelLog attempts).Pairwise fun e e' => ∀ orderId,
      e.2.kind = .cancelOrder orderId → e'.2.kind = .cancelOrder orderId →
        cancelDedupWindowMs ≤ e'.1 - e.1 := by
  have hapart : (DedupWindow.accepted cancelDedupWindowMs ⟨[], fun _ => none⟩
      (attempts.map CancelAttempt.offer)).Pairwise fun a a' =>
        a'.key = a.key → cancelDedupWindowMs ≤ a'.time - a.time :=
    DedupWindow.accepted_apart (inOrder_offers horder) DedupWindow.kept_empty
      fun _ _ => List.forall_mem_nil _
  have hpairs : ((req.cancelLog attempts).map fun e => (e.1, e.2.kind)).Pairwise fun e e' =>
      ∀ orderId, e.2 = .cancelOrder orderId → e'.2 = .cancelOrder orderId →
        cancelDedupWindowMs ≤ e'.1 - e.1 := by
    rw [cancelLog_eq, hempty]
    apply List.pairwise_map.mpr
    refine hapart.imp ?_
    intro a a' hapart orderId hkind hkind'
    -- Two cancels of one order are two acceptances of one key.
    apply hapart
    exact (OrderRequestKind.cancelOrder.inj hkind').trans
      (OrderRequestKind.cancelOrder.inj hkind).symm
  exact List.pairwise_map.mp hpairs

end

end Requests

/-- From an empty state on, and with any failures of the executor: the cancels of one order lie
a window apart, every key of the map is in the queue, an attempt leaves young entries only, and
an attempt that queues nothing leaves what the eviction leaves, so that it changes nothing for
the next one. -/
theorem cancel_dedup_law (req : Requests) (hempty : req.dedup = ⟨[], fun _ => none⟩)
    (attempts : List CancelAttempt)
    (horder : attempts.Pairwise fun a a' => a.env.now ≤ a'.env.now) :
    (req.cancelLog attempts).Pairwise (fun e e' => ∀ orderId,
        e.2.kind = .cancelOrder orderId → e'.2.kind = .cancelOrder orderId →
          cancelDedupWindowMs ≤ e'.1 - e.1) ∧
      (∀ orderId time, (req.attemptCancels attempts).cancelDedupRecent orderId = some time →
        (time, orderId) ∈ (req.attemptCancels attempts).cancelDedupQueue) ∧
      ∀ a : CancelAttempt, (∀ a' ∈ attempts, a'.env.now ≤ a.env.now) →
        (∀ e ∈ ((req.attemptCancels attempts).attemptCancel a).cancelDedupQueue,
          a.env.now - e.1 < cancelDedupWindowMs) ∧
        (((req.attemptCancels attempts).enqueueCancelOrder a.env a.orderId).2 = none →
          ((req.attemptCancels attempts).attemptCancel a).dedup =
              ((req.attemptCancels attempts).evictCancelDedup a.env.now).dedup ∧
            ∀ next : CancelAttempt, a.env.now ≤ next.env.now →
              (((req.attemptCancels attempts).attemptCancel a).attemptCancel next).dedup =
                  ((req.attemptCancels attempts).attemptCancel next).dedup ∧
                ((((req.attemptCancels attempts).attemptCancel a).enqueueCancelOrder next.env
                    next.orderId).2.isSome =
                  ((req.attemptCancels attempts).enqueueCancelOrder next.env
                    next.orderId).2.isSome) ∧
                (((req.attemptCancels attempts).evictCancelDedup a.env.now).cancelledRecently
                    a.env a.orderId = false →
                  next.orderId = a.orderId → next.env.execOpen = true →
                    (((req.attemptCancels attempts).attemptCancel a).enqueueCancelOrder next.env
                      next.orderId).2.isSome = true)) := by
  have hkept := Requests.kept_attemptCancels hempty horder
  refine ⟨Requests.cancelLog_apart hempty horder, ?_, ?_⟩
  · intro orderId time hrecent
    exact (hkept.mem_iff time orderId).mpr hrecent
  intro a ha
  have huntil := Requests.until_attemptCancels hempty horder ha
  generalize req.attemptCancels attempts = mid at hkept huntil ⊢
  obtain ⟨hdedup, haccepted⟩ := mid.dedup_enqueueCancelOrder a
  constructor
  · intro e he
    have hqueue := congrArg DedupWindow.queue hdedup
    rw [Requests.dedup] at hqueue
    exact hkept.attempt_young (a := a.offer) (by decide) e (hqueue ▸ he)
  intro hnone
  rw [hnone] at haccepted
  have hfailed := hkept.attempt_failed haccepted.symm
  rw [← hdedup] at hfailed
  refine ⟨hfailed.trans (mid.dedup_evict a.env.now).symm, ?_⟩
  intro next hle
  obtain ⟨hnext, hnextsent⟩ := mid.dedup_enqueueCancelOrder next
  obtain ⟨hafter, haftersent⟩ := (mid.attemptCancel a).dedup_enqueueCancelOrder next
  -- The failed attempt has only evicted, and the next one evicts again.
  have hsame : (mid.attemptCancel a).dedup.attempt cancelDedupWindowMs next.offer =
      mid.dedup.attempt cancelDedupWindowMs next.offer := by
    rw [hfailed]
    exact hkept.attempt_expire (a := next.offer) hle
  refine ⟨?_, ?_, ?_⟩
  · rw [hafter, hsame, hnext]
  · rw [haftersent, hsame, hnextsent]
  · intro hfresh hid hopen
    rw [haftersent, hsame, DedupWindow.attempt_of_fresh]
    · simp [CancelAttempt.offer, hopen]
    · -- The order was not suppressed then, so it is not suppressed now.
      intro hsuppressed
      have hearlier := hkept.suppressed_earlier hle hsuppressed
      rw [CancelAttempt.offer, hid, ← Requests.dedup_evict, ← Requests.cancelledRecently_iff,
        hfresh] at hearlier
      cases hearlier

/-- One order, cancelled while the executor is gone, then three times while it is there. -/
def sampleAttempts : List CancelAttempt :=
  [⟨{ sampleEnv 0 "x" with execOpen := false }, "e1"⟩, ⟨sampleEnv 0 "x", "e1"⟩,
    ⟨sampleEnv 500 "x", "e1"⟩, ⟨sampleEnv 1000 "x", "e1"⟩]

theorem sample_cancels_apart :
    ((Requests.start 0).cancelLog sampleAttempts).map Prod.fst = [0, 1000] ∧
      ((Requests.start 0).cancelLog sampleAttempts).Pairwise (fun e e' => ∀ orderId,
        e.2.kind = .cancelOrder orderId → e'.2.kind = .cancelOrder orderId →
          cancelDedupWindowMs ≤ e'.1 - e.1) :=
  ⟨by decide, (cancel_dedup_law (Requests.start 0) rfl sampleAttempts
    (by simp [sampleAttempts, sampleEnv])).1⟩

end AlphaMonitor.Trade
