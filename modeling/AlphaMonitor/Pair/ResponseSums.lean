import AlphaMonitor.Pair.Confluence
import AlphaMonitor.Pair.Pending
import Mathlib.Data.List.Count

/-!
# What a response sums up

A shard sends every bar of a token once for each pair that the token is registered with, and
the aggregator appends each of them to the history of the token.  A token of several pairs
has every second several times in its history.

## Main definitions

- `deliveries`: the copies of a token's bars
- `SumsOnce`: a response adds up each second once

## Main results

- `opiBarHistory_run`: the history of a token in any run
- `sumsOnce_iff`: when a response adds up each second once
- `shared_token_counts_twice`: two pairs with one token
-/

namespace AlphaMonitor.Pair

open AlphaMonitor.Lib

/-! ## The history of a token -/

/-- The Opinion bars of a token among the messages. -/
def opiBars (tokenKey : String) (es : List PendingEvent) : List HistoryBar :=
  es.filterMap fun
    | .tokenBar bar => if bar.venue = .opinion ∧ bar.tokenKey = tokenKey then some bar else none
    | _ => none

/-- The history that a sequence of bars leaves. -/
def historyOf (bars : List HistoryBar) : Option History :=
  if bars = [] then none else some (bars.foldl storeBar [])

theorem historyOf_append (bars : List HistoryBar) (bar : HistoryBar) :
    historyOf (bars ++ [bar]) = some (storeBar ((historyOf bars).getD []) bar) := by
  unfold historyOf
  rw [if_neg (by simp), List.foldl_append]
  split
  · rename_i hnil
    rw [hnil]
    rfl
  · rfl

theorem handleShock_opiBarHistory (st : PendingState) (captureEnabled : Bool) (gapAllow : ℕ)
    (shock : ShockInput) (env : ShockContext) :
    (st.handleShock captureEnabled gapAllow shock env).opiBarHistory = st.opiBarHistory := by
  unfold PendingState.handleShock
  split
  · generalize st.shockEntries gapAllow shock env = entries
    induction entries generalizing st with
    | nil => rfl
    | cons entry entries ih => exact (ih (st.pushPending entry)).trans rfl
  · rfl

/-- In any run the history of a token holds the last 600 of its Opinion bars. -/
theorem opiBarHistory_run {captureEnabled : Bool} {gapAllow : ℕ}
    {opiTokenMap pmTokenMap : PairKey → Option String} {es : List PendingEvent} {s : PendingSystem}
    (hr : (pendingMachine captureEnabled gapAllow).run
      (PendingSystem.start opiTokenMap pmTokenMap) es = some s) (tokenKey : String) :
    s.state.opiBarHistory tokenKey = historyOf (opiBars tokenKey es) := by
  have hstep : ∀ hist s e s', s.state.opiBarHistory tokenKey = historyOf (opiBars tokenKey hist) →
      True → (pendingMachine captureEnabled gapAllow).step s e = some s' →
      s'.state.opiBarHistory tokenKey = historyOf (opiBars tokenKey (hist ++ [e])) := by
    intro hist s e s' h _ hs
    have hbars : opiBars tokenKey (hist ++ [e]) =
        opiBars tokenKey hist ++ opiBars tokenKey [e] := List.filterMap_append
    rw [hbars]
    cases e with
    | tokenBar bar =>
      cases hs
      show (s.state.storeTokenBar bar).opiBarHistory tokenKey = _
      unfold PendingState.storeTokenBar
      by_cases hbar : bar.venue = .opinion ∧ bar.tokenKey = tokenKey
      · obtain ⟨hvenue, rfl⟩ := hbar
        have hone : opiBars bar.tokenKey [.tokenBar bar] = [bar] := by simp [opiBars, hvenue]
        rw [hvenue, hone, historyOf_append, ← h]
        exact Function.update_self _ _ _
      · have hnone : opiBars tokenKey [.tokenBar bar] = [] := by simp [opiBars, hbar]
        rw [hnone, List.append_nil, ← h]
        cases hvenue : bar.venue with
        | opinion =>
          have hother : tokenKey ≠ bar.tokenKey := fun heq => hbar ⟨hvenue, heq.symm⟩
          exact Function.update_of_ne hother _ _
        | polymarket => rfl
    | shock shock env =>
      cases hs
      rw [show opiBars tokenKey [.shock shock env] = [] from rfl, List.append_nil, ← h]
      exact congrFun (handleShock_opiBarHistory _ _ _ _ _) tokenKey
    | tick barSecond clock accepts =>
      cases hs
      rw [show opiBars tokenKey [.tick barSecond clock accepts] = [] from rfl, List.append_nil, ← h]
  have hstart : (PendingSystem.start opiTokenMap pmTokenMap).state.opiBarHistory tokenKey =
      historyOf (opiBars tokenKey []) := rfl
  exact (pendingMachine captureEnabled gapAllow).hist_of_runMeets hstep hstart
    ((pendingMachine captureEnabled gapAllow).runMeets_trivial _ es) hr

/-! ## Copies for several pairs -/

/-- The bars of a token as `emit_result` sends them, one copy for each pair. -/
def deliveries (pairIds : List ℤ) (bars : List HistoryBar) : List HistoryBar :=
  bars.flatMap fun bar =>
    pairIds.map fun pairId => { bar with toPairInput := { bar.toPairInput with pairId := pairId } }

/-- The bar with another volume and another volume delta. -/
def HistoryBar.withFlows (bar : HistoryBar) (volume cvd : ℚ) : HistoryBar :=
  { bar with volumeNotional1s := volume, cvdDelta1s := cvd }

/-- The seconds of the last 600 copies. -/
def keptSeconds (pairIds seconds : List ℤ) : List ℤ :=
  let copies := seconds.flatMap fun second => pairIds.map fun _ => second
  copies.drop (copies.length - historyCap)

/-- The seconds that a response is about. -/
def PendingResponse.covers (pending : PendingResponse) (second : ℤ) : Prop :=
  pending.triggerBarSecond < second ∧ second ≤ pending.target

instance (pending : PendingResponse) (second : ℤ) : Decidable (pending.covers second) :=
  inferInstanceAs (Decidable (_ ∧ _))

/-- Whatever was traded, a response computed after these seconds of the token adds up each
second that it is about once. -/
def SumsOnce (tokenKey : String) (pairIds seconds : List ℤ) (bar : ℤ → HistoryBar)
    (pending : PendingResponse) : Prop :=
  ∀ (volume cvd : ℤ → ℚ) (captureEnabled : Bool) (gapAllow : ℕ)
    (opiTokenMap pmTokenMap : PairKey → Option String) (es : List PendingEvent)
    (s : PendingSystem),
    (pendingMachine captureEnabled gapAllow).run
      (PendingSystem.start opiTokenMap pmTokenMap) es = some s →
    opiBars tokenKey es = deliveries pairIds
      (seconds.map fun second => (bar second).withFlows (volume second) (cvd second)) →
    ∀ (ln : ℚ → ℚ) (analysis : Analysis) (row : Store.OpinionResponseRow),
      buildResponseFromHistory ln analysis s.state.opiBarHistory pending pending.target =
        some row →
      row.opiVolumeSum = some ((seconds.filter (pending.covers ·)).map volume).sum ∧
        row.opiCvdSum = some ((seconds.filter (pending.covers ·)).map cvd).sum

/-- Every second that the response is about stands once among the last 600 copies. -/
def StoredOnce (pairIds seconds : List ℤ) (pending : PendingResponse) : Prop :=
  ∀ second ∈ seconds, pending.covers second → (keptSeconds pairIds seconds).count second = 1

section Sums

variable {tokenKey : String} {pairIds seconds : List ℤ} {bar : ℤ → HistoryBar}
  {pending : PendingResponse}

theorem map_barSecond_deliveries (hbar : ∀ second, (bar second).barSecond = second)
    (volume cvd : ℤ → ℚ) :
    (deliveries pairIds (seconds.map fun second =>
        (bar second).withFlows (volume second) (cvd second))).map (·.barSecond) =
      seconds.flatMap fun second => pairIds.map fun _ => second := by
  unfold deliveries
  rw [List.map_flatMap, List.flatMap_map]
  apply List.flatMap_congr
  intro second _
  rw [List.map_map]
  apply List.map_congr_left
  intro pairId _
  exact hbar second

/-- A copy has the flows of its second. -/
theorem flows_of_mem_deliveries (hbar : ∀ second, (bar second).barSecond = second)
    (volume cvd : ℤ → ℚ) {b : HistoryBar} (h : b ∈ deliveries pairIds (seconds.map fun second =>
      (bar second).withFlows (volume second) (cvd second))) :
    b.volumeNotional1s = volume b.barSecond ∧ b.cvdDelta1s = cvd b.barSecond := by
  obtain ⟨sent, hsent, hcopy⟩ := List.mem_flatMap.mp h
  obtain ⟨second, -, rfl⟩ := List.mem_map.mp hsent
  obtain ⟨pairId, -, rfl⟩ := List.mem_map.mp hcopy
  have hsecond : ((bar second).withFlows (volume second) (cvd second)).barSecond = second :=
    hbar second
  show volume second = volume _ ∧ cvd second = cvd _
  rw [hsecond]
  exact ⟨rfl, rfl⟩

/-- A value of the second, summed over the stored bars that a response is about. -/
theorem sum_responseRange {bars : List HistoryBar} {value : HistoryBar → ℚ} {f : ℤ → ℚ}
    (hsorted : (bars.map (·.barSecond)).Pairwise (· ≤ ·))
    (hvalue : ∀ b ∈ bars, value b = f b.barSecond)
    (hle : pending.triggerBarSecond ≤ pending.target) :
    ((responseRange (bars.foldl storeBar []) pending.triggerBarSecond pending.target).map
        value).sum =
      ((((bars.map (·.barSecond)).drop (bars.length - historyCap)).filter
        (pending.covers ·)).map f).sum := by
  rw [foldl_storeBar, ← List.map_drop]
  generalize bars.length - historyCap = n
  have hkept : (bars.drop n).Pairwise fun a b => a.barSecond ≤ b.barSecond :=
    (List.pairwise_map.mp hsorted).sublist (List.drop_sublist _ _)
  rw [responseRange_eq hkept hle, List.filter_map, List.map_map]
  congr 1
  apply List.map_congr_left
  intro b hb
  exact hvalue b (List.mem_of_mem_drop (List.mem_of_mem_filter hb))

/-- Sums agree for every function just in case the lists hold the same items as often. -/
theorem sum_map_eq_iff {xs ys : List ℤ} :
    (∀ f : ℤ → ℚ, (xs.map f).sum = (ys.map f).sum) ↔ xs.Perm ys := by
  constructor
  · intro h
    rw [List.perm_iff_count]
    intro x
    have hone := h fun y => if y = x then 1 else 0
    have hcount : ∀ zs : List ℤ, (zs.map fun y => if y = x then (1 : ℚ) else 0).sum =
        zs.count x := by
      intro zs
      induction zs with
      | nil => rfl
      | cons z zs ih =>
        rw [List.map_cons, List.sum_cons, ih, List.count_cons]
        by_cases hz : z = x
        · simp [hz, add_comm]
        · simp [hz]
    rw [hcount, hcount] at hone
    exact_mod_cast hone
  · intro h f
    exact (h.map f).sum_eq

/-- The covered seconds of the copies are the covered seconds just in case each is stored once. -/
theorem perm_keptSeconds_iff (hsorted : seconds.Pairwise (· < ·)) :
    ((keptSeconds pairIds seconds).filter (pending.covers ·)).Perm
        (seconds.filter (pending.covers ·)) ↔ StoredOnce pairIds seconds pending := by
  have hnodup : seconds.Nodup := hsorted.imp fun h => ne_of_lt h
  have hcount : ∀ (xs : List ℤ) (x : ℤ), pending.covers x →
      (xs.filter (pending.covers ·)).count x = xs.count x :=
    fun xs x hx => List.count_filter (decide_eq_true hx)
  rw [List.perm_iff_count]
  constructor
  · intro h second hmem hcovers
    have hsame := h second
    rw [hcount _ _ hcovers, hcount _ _ hcovers, List.count_eq_one_of_mem hnodup hmem] at hsame
    exact hsame
  · intro h x
    by_cases hcovers : pending.covers x
    · rw [hcount _ _ hcovers, hcount _ _ hcovers]
      by_cases hmem : x ∈ seconds
      · rw [h x hmem hcovers, List.count_eq_one_of_mem hnodup hmem]
      · rw [List.count_eq_zero_of_not_mem hmem, List.count_eq_zero_of_not_mem]
        intro hkept
        obtain ⟨second, hsecond, hcopy⟩ := List.mem_flatMap.mp (List.mem_of_mem_drop hkept)
        obtain ⟨-, -, rfl⟩ := List.mem_map.mp hcopy
        exact hmem hsecond
    · have hnone : ∀ xs : List ℤ, (xs.filter (pending.covers ·)).count x = 0 := by
        intro xs
        apply List.count_eq_zero_of_not_mem
        intro hx
        exact hcovers (of_decide_eq_true (List.mem_filter.mp hx).2)
      rw [hnone, hnone]

theorem PendingResponse.trigger_le_target (h : pending.horizonS ∈ horizons) :
    pending.triggerBarSecond ≤ pending.target := by
  have hpos : ∀ horizon ∈ horizons, 0 ≤ horizon := by decide
  exact le_add_of_nonneg_right (hpos _ h)

/-- The sums of a response over the copies. -/
theorem sums_of_build {captureEnabled : Bool} {gapAllow : ℕ}
    {opiTokenMap pmTokenMap : PairKey → Option String} {es : List PendingEvent} {s : PendingSystem}
    {volume cvd : ℤ → ℚ} {ln : ℚ → ℚ} {analysis : Analysis} {row : Store.OpinionResponseRow}
    (hsorted : seconds.Pairwise (· < ·)) (hbar : ∀ second, (bar second).barSecond = second)
    (htoken : pending.opiTokenKey = some tokenKey) (hhorizon : pending.horizonS ∈ horizons)
    (hr : (pendingMachine captureEnabled gapAllow).run
      (PendingSystem.start opiTokenMap pmTokenMap) es = some s)
    (hbars : opiBars tokenKey es = deliveries pairIds
      (seconds.map fun second => (bar second).withFlows (volume second) (cvd second)))
    (hrow : buildResponseFromHistory ln analysis s.state.opiBarHistory pending pending.target =
      some row) :
    row.opiVolumeSum =
        some (((keptSeconds pairIds seconds).filter (pending.covers ·)).map volume).sum ∧
      row.opiCvdSum =
        some (((keptSeconds pairIds seconds).filter (pending.covers ·)).map cvd).sum := by
  have hflows := fun b => @flows_of_mem_deliveries pairIds seconds bar hbar volume cvd b
  have hseconds := @map_barSecond_deliveries pairIds seconds bar hbar volume cvd
  have hcopies : ((opiBars tokenKey es).map (·.barSecond)).Pairwise (· ≤ ·) := by
    rw [hbars, hseconds, List.pairwise_flatMap]
    refine ⟨fun second _ => ?_, hsorted.imp fun hlt a ha b hb => ?_⟩
    · refine List.pairwise_of_forall_mem_list fun a ha b hb => ?_
      obtain ⟨-, -, rfl⟩ := List.mem_map.mp ha
      obtain ⟨-, -, rfl⟩ := List.mem_map.mp hb
      exact le_refl _
    · obtain ⟨-, -, rfl⟩ := List.mem_map.mp ha
      obtain ⟨-, -, rfl⟩ := List.mem_map.mp hb
      exact hlt.le
  have hkept : ((opiBars tokenKey es).map (·.barSecond)).drop
      ((opiBars tokenKey es).length - historyCap) = keptSeconds pairIds seconds := by
    have hlength : (opiBars tokenKey es).length =
        ((opiBars tokenKey es).map (·.barSecond)).length := (List.length_map _).symm
    rw [hlength, hbars, hseconds]
    rfl
  have hle := PendingResponse.trigger_le_target hhorizon
  unfold buildResponseFromHistory at hrow
  rw [htoken, Option.bind_some, opiBarHistory_run hr tokenKey] at hrow
  unfold historyOf at hrow
  split at hrow
  · cases hrow
  · cases hrow
    rw [← hkept]
    constructor
    · exact congrArg some (sum_responseRange hcopies (fun b hb => (hflows b (hbars ▸ hb)).1) hle)
    · exact congrArg some (sum_responseRange hcopies (fun b hb => (hflows b (hbars ▸ hb)).2) hle)

/-- No message is refused. -/
theorem run_total (captureEnabled : Bool) (gapAllow : ℕ) (es : List PendingEvent)
    (s : PendingSystem) : ∃ s', (pendingMachine captureEnabled gapAllow).run s es = some s' := by
  induction es generalizing s with
  | nil => exact ⟨s, rfl⟩
  | cons e es ih =>
    have hstep : ∃ t, (pendingMachine captureEnabled gapAllow).step s e = some t := by
      cases e with
      | tokenBar bar => exact ⟨_, rfl⟩
      | shock shock env => exact ⟨_, rfl⟩
      | tick barSecond clock accepts => exact ⟨_, rfl⟩
    obtain ⟨t, ht⟩ := hstep
    obtain ⟨s', hs'⟩ := ih t
    refine ⟨s', ?_⟩
    rw [Machine.run_cons, ht]
    exact hs'

theorem opiBars_map_tokenBar {bars : List HistoryBar}
    (h : ∀ b ∈ bars, b.venue = .opinion ∧ b.tokenKey = tokenKey) :
    opiBars tokenKey (bars.map .tokenBar) = bars := by
  unfold opiBars
  rw [List.filterMap_map]
  conv_rhs => rw [← List.filterMap_some (l := bars)]
  apply List.filterMap_congr
  intro b hb
  exact if_pos (h b hb)

/-- A response adds up each second once, whatever was traded, just in case each second that it
is about stands once among the last 600 copies of the token's bars. -/
theorem sumsOnce_iff (hpairs : pairIds ≠ []) (hsorted : seconds.Pairwise (· < ·))
    (hbar : ∀ second, (bar second).barSecond = second ∧ (bar second).venue = .opinion ∧
      (bar second).tokenKey = tokenKey)
    (htoken : pending.opiTokenKey = some tokenKey) (hhorizon : pending.horizonS ∈ horizons) :
    SumsOnce tokenKey pairIds seconds bar pending ↔ StoredOnce pairIds seconds pending := by
  have hsecond := fun second => (hbar second).1
  rw [← perm_keptSeconds_iff hsorted]
  constructor
  · intro h
    rw [← sum_map_eq_iff]
    intro volume
    let bars := deliveries pairIds
      (seconds.map fun second => (bar second).withFlows (volume second) (volume second))
    have hbars : opiBars tokenKey (bars.map .tokenBar) = bars := by
      apply opiBars_map_tokenBar
      intro b hb
      obtain ⟨sent, hsent, hcopy⟩ := List.mem_flatMap.mp hb
      obtain ⟨second, -, rfl⟩ := List.mem_map.mp hsent
      obtain ⟨pairId, -, rfl⟩ := List.mem_map.mp hcopy
      exact (hbar second).2
    obtain ⟨s, hs⟩ := run_total true 0 (bars.map .tokenBar)
      (PendingSystem.start (fun _ => none) fun _ => none)
    cases hrow : buildResponseFromHistory (fun x => x) ⟨0, 0, 0⟩ s.state.opiBarHistory pending
        pending.target with
    | none =>
      -- without a row nothing has been stored, so there are no seconds
      unfold buildResponseFromHistory at hrow
      rw [htoken, Option.bind_some, opiBarHistory_run hs tokenKey, hbars,
        Option.map_eq_none_iff] at hrow
      have hnone : bars = [] := by
        by_contra hne
        unfold historyOf at hrow
        rw [if_neg hne] at hrow
        cases hrow
      have hseconds : seconds = [] := by
        cases seconds with
        | nil => rfl
        | cons second rest =>
          cases pairIds with
          | nil => exact absurd rfl hpairs
          | cons pairId ids => exact absurd hnone (List.cons_ne_nil _ _)
      rw [hseconds]
      simp [keptSeconds]
    | some row =>
      obtain ⟨hvolume, -⟩ := h volume volume true 0 _ _ _ s hs hbars _ _ row hrow
      obtain ⟨hkept, -⟩ := sums_of_build hsorted hsecond htoken hhorizon hs hbars hrow
      exact Option.some.inj (hkept.symm.trans hvolume)
  · intro hperm volume cvd captureEnabled gapAllow opiTokenMap pmTokenMap es s hr hbars ln
      analysis row hrow
    obtain ⟨hvolume, hcvd⟩ := sums_of_build hsorted hsecond htoken hhorizon hr hbars hrow
    rw [hvolume, hcvd]
    exact ⟨congrArg some (sum_map_eq_iff.mpr hperm volume),
      congrArg some (sum_map_eq_iff.mpr hperm cvd)⟩

/-- With one pair, up to 600 seconds after the trigger are all stored once. -/
theorem storedOnce_of_one_pair (pairId : ℤ) (hsorted : seconds.Pairwise (· < ·))
    (hfew : (seconds.filter fun second => pending.triggerBarSecond < second).length ≤ historyCap) :
    StoredOnce [pairId] seconds pending := by
  intro second hmem hcovers
  have hcopies : seconds.flatMap (fun second => [pairId].map fun _ => second) = seconds := by
    simp
  unfold keptSeconds
  rw [hcopies]
  simp only
  generalize historyCap = cap at hfew ⊢
  apply List.count_eq_one_of_mem
  · exact (hsorted.imp fun h => ne_of_lt h).sublist (List.drop_sublist _ _)
  · -- what has been dropped is not later than the trigger
    by_contra hdropped
    have hsplit := List.take_append_drop (seconds.length - cap) seconds
    rw [← hsplit, List.mem_append] at hmem
    have htaken := hmem.resolve_right hdropped
    rw [← hsplit, List.pairwise_append] at hsorted
    have hlate : ∀ x ∈ second :: seconds.drop (seconds.length - cap),
        pending.triggerBarSecond < x := by
      intro x hx
      rcases List.mem_cons.mp hx with rfl | hx
      · exact hcovers.1
      · exact hcovers.1.trans (hsorted.2.2 second htaken x hx)
    have hlong : (second :: seconds.drop (seconds.length - cap)).length ≤
        (seconds.filter fun second => pending.triggerBarSecond < second).length := by
      have hsub : (second :: seconds.drop (seconds.length - cap)).Sublist seconds := by
        conv_rhs => rw [← hsplit]
        exact (List.singleton_sublist.mpr htaken).append (List.Sublist.refl _)
      have hfilter := hsub.filter fun second => decide (pending.triggerBarSecond < second)
      rw [List.filter_eq_self.mpr fun x hx => decide_eq_true (hlate x hx)] at hfilter
      exact hfilter.length_le
    have htaken' : 0 < (seconds.take (seconds.length - cap)).length :=
      List.length_pos_of_mem htaken
    rw [List.length_take] at htaken'
    rw [List.length_cons, List.length_drop] at hlong
    omega

end Sums

/-! ## Two pairs with one token -/

/-- A bar of the Opinion token in which one dollar was traded. -/
def tradedBar (second : ℤ) : HistoryBar :=
  { toPairInput := { opiSecond with barSecond := second }
    spread := none
    volumeNotional1s := 1
    cvdDelta1s := 1 }

/-- The first response of a shock at second 100. -/
def firstResponse : PendingResponse :=
  { shockId := 5
    pairId := 7
    tokenSide := .yes
    triggerBarSecond := 100
    horizonS := 10
    opiTokenKey := some "opi-7-yes"
    baselineMid := none
    baselineSpread := none
    baselineStaleness := none
    baselineDepth := none
    baselineLiquidityPullFlag := none
    trueNetSpreadAtT0 := none
    arbModeFlagAtT0 := none
    estimatedLagSAtT0 := none
    lagConfidenceAtT0 := none
    obsLatencyPolyP99AtT0 := none
    obsLatencyOpiP99AtT0 := none }

/-- With one pair, the response adds up the seconds 101 and 102 once. -/
theorem sumsOnce_one_pair : SumsOnce "opi-7-yes" [7] [100, 101, 102] tradedBar firstResponse := by
  have hpairs : [(7 : ℤ)] ≠ [] := by decide
  have hsorted : [(100 : ℤ), 101, 102].Pairwise (· < ·) := by decide
  have hbar : ∀ second, (tradedBar second).barSecond = second ∧
      (tradedBar second).venue = .opinion ∧ (tradedBar second).tokenKey = "opi-7-yes" :=
    fun _ => ⟨rfl, rfl, rfl⟩
  have hhorizon : firstResponse.horizonS ∈ horizons := by decide
  apply (sumsOnce_iff hpairs hsorted hbar rfl hhorizon).mpr
  exact storedOnce_of_one_pair 7 hsorted (by decide)

/-- The bars of a token of two pairs. -/
def sharedBars : List HistoryBar := deliveries [7, 8] ([100, 101, 102].map tradedBar)

/-- The bars of the two seconds are stored twice, and the response says that four dollars were
traded instead of two. -/
theorem shared_token_counts_twice :
    ¬ SumsOnce "opi-7-yes" [7, 8] [100, 101, 102] tradedBar firstResponse ∧
      ∃ s row, (pendingMachine true 2).run (PendingSystem.start (fun _ => none) fun _ => none)
          (sharedBars.map .tokenBar) = some s ∧
        buildResponseFromHistory (fun x => x) ⟨2, 1000, 0⟩ s.state.opiBarHistory firstResponse
          firstResponse.target = some row ∧
        row.opiVolumeSum = some 4 := by
  have hrun : ∃ s row, (pendingMachine true 2).run
      (PendingSystem.start (fun _ => none) fun _ => none) (sharedBars.map .tokenBar) = some s ∧
      buildResponseFromHistory (fun x => x) ⟨2, 1000, 0⟩ s.state.opiBarHistory firstResponse
        firstResponse.target = some row ∧ row.opiVolumeSum = some 4 :=
    ⟨_, _, rfl, rfl, by decide +kernel⟩
  refine ⟨fun h => ?_, hrun⟩
  obtain ⟨s, row, hs, hrow, hfour⟩ := hrun
  obtain ⟨htwo, -⟩ := h (fun _ => 1) (fun _ => 1) true 2 _ _ _ s hs rfl _ _ row hrow
  rw [hfour] at htwo
  exact absurd htwo (by decide +kernel)

end AlphaMonitor.Pair
