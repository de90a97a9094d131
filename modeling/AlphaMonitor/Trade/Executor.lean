import AlphaMonitor.Trade.Position

/-!
# The engine and its executor

The executor takes the requests of the engine from a channel and works them side by
side, so it answers each of them at most once, in any order and after any delay.
`ExecSystem` is the engine together with the requests that it has sent and that are
not answered yet.

## Main results

- `placements_of_reachable`: the placements that are not answered are those that the
  pairs wait for
- `placing_bookkeeping`: what a pair knows about its placement, and what the response
  to it does
-/

namespace AlphaMonitor.Trade

/-! ## The system -/

/-- The request is a placement of the pair. -/
def OrderRequest.Places (key : PairKey) (request : OrderRequest) : Prop :=
  ∃ target side qty prices tag, request.kind = .placeChase key target side qty prices tag

instance (key : PairKey) : DecidablePred (OrderRequest.Places key)
  | ⟨_, .placeChase pairKey target side qty prices tag⟩ =>
    decidable_of_iff (pairKey = key)
      ⟨fun h => ⟨target, side, qty, prices, tag, by rw [h]⟩, fun ⟨_, _, _, _, _, h⟩ => by
        cases h
        rfl⟩
  | ⟨_, .cancelOrder _⟩ => isFalse fun ⟨_, _, _, _, _, h⟩ => nomatch h
  | ⟨_, .fetchFills _ _ _ _⟩ => isFalse fun ⟨_, _, _, _, _, h⟩ => nomatch h

/-- The response is one that the executor may give to the request. -/
def OrderResponse.answers (response : OrderResponse) (request : OrderRequest) : Bool :=
  match response, request.kind with
  | .placeChase id pairKey _, .placeChase key _ _ _ _ _ =>
    -- the id, and what the source checks besides it
    decide (id = request.id ∧ pairKey = key)
  | .cancelOrder id orderId _, .cancelOrder oid => decide (id = request.id ∧ orderId = oid)
  | .fetchFills id pairKey kind _, .fetchFills key k _ _ =>
    decide (id = request.id ∧ pairKey = key ∧ kind = k)
  | _, _ => false

structure ExecSystem where
  engine : TradeEngine
  /-- Requests that are sent and not answered. -/
  outstanding : List OrderRequest

namespace ExecSystem

def start (now : ℤ) : ExecSystem := ⟨TradeEngine.start now, []⟩

/-- The requests that stay unanswered when the message arrives, if it can arrive. -/
def unanswered (sys : ExecSystem) : TradeMessage → Option (List OrderRequest)
  | .orderResponse response =>
    -- each request is answered once at most
    if sys.outstanding.any response.answers then some (sys.outstanding.eraseP response.answers)
    else none
  | _ => some sys.outstanding

/-- The engine handles the message, and what it sends meanwhile is outstanding. -/
def handled (setup : Setup) (sys : ExecSystem) (env : Env) (message : TradeMessage)
    (unanswered : List OrderRequest) : ExecSystem :=
  let engine := TradeEngine.handle setup env sys.engine message
  -- what is sent while the message is handled comes last
  ⟨engine, unanswered ++ engine.desk.req.orderExec.drop sys.engine.desk.req.orderExec.length⟩

end ExecSystem

/-- The engine takes bars, shocks, ticks and messages of the user channel at any time,
and a response only to a request that is outstanding. -/
def execMachine (setup : Setup) : Lib.Machine ExecSystem (Env × TradeMessage) where
  init sys := ∃ now, sys = ExecSystem.start now
  step sys e := (sys.unanswered e.2).map (sys.handled setup e.1 e.2)

variable {setup : Setup} {env : Env} {key : PairKey}

theorem step_execMachine {sys sys' : ExecSystem} {e : Env × TradeMessage}
    (h : (execMachine setup).step sys e = some sys') :
    ∃ rest, sys.unanswered e.2 = some rest ∧ sys' = sys.handled setup e.1 e.2 rest := by
  obtain ⟨rest, hrest, rfl⟩ := Option.map_eq_some_iff.mp h
  exact ⟨rest, hrest, rfl⟩

theorem unanswered_response {sys : ExecSystem} {response : OrderResponse}
    {rest : List OrderRequest}
    (h : sys.unanswered (.orderResponse response) = some rest) :
    ∃ before request after, response.answers request = true ∧
      sys.outstanding = before ++ request :: after ∧ rest = before ++ after := by
  simp only [ExecSystem.unanswered] at h
  split at h
  · rename_i hany
    cases h
    obtain ⟨request, hmem, hanswers⟩ := List.any_eq_true.mp hany
    -- only the first request that is answered is taken away
    obtain ⟨request, before, after, -, hanswers, hsplit, hrest⟩ :=
      List.exists_of_eraseP hmem hanswers
    exact ⟨before, request, after, hanswers, hsplit, hrest⟩
  · cases h

theorem unanswered_subset {sys : ExecSystem} {message : TradeMessage} {rest : List OrderRequest}
    (h : sys.unanswered message = some rest) : rest.Sublist sys.outstanding := by
  cases message with
  | orderResponse response =>
    simp only [ExecSystem.unanswered] at h
    split at h
    · cases h
      exact List.eraseP_sublist
    · cases h
  | _ =>
    -- all other messages leave the requests open
    cases h
    exact List.Sublist.refl _

/-- The engine of a run with an executor is one of a run of its own. -/
theorem engine_of_reachable {sys : ExecSystem} (h : (execMachine setup).Reachable sys) :
    (engineMachine setup).Reachable sys.engine := by
  apply (execMachine setup).inv_of_reachable ?_ ?_ h
  · rintro _ ⟨now, rfl⟩
    exact ⟨TradeEngine.start now, [], ⟨now, rfl⟩, rfl⟩
  · rintro sys ⟨env, message⟩ sys' hreach hstep
    obtain ⟨rest, -, rfl⟩ := step_execMachine hstep
    exact reachable_handle hreach message

/-! ## Placements -/

/-- The desk sends these requests, each under an id that was not used before. -/
inductive DeskView.Sends (desk desk' : DeskView) (allow : OrderRequestKind → Prop) :
    List OrderRequest → Prop
  | nothing (hqueue : desk'.queue = desk.queue) (hnext : desk.nextId ≤ desk'.nextId) :
      Sends desk desk' allow []
  | one (kind : OrderRequestKind) (hkind : allow kind)
      (hqueue : desk'.queue = desk.queue ++ [⟨desk.nextId + 1, kind⟩])
      (hnext : desk'.nextId = desk.nextId + 1) :
      Sends desk desk' allow [⟨desk.nextId + 1, kind⟩]

theorem DeskView.Sends.queue {desk desk' : DeskView} {allow : OrderRequestKind → Prop}
    {new : List OrderRequest} (h : desk.Sends desk' allow new) :
    desk'.queue = desk.queue ++ new := by
  cases h with
  | nothing hqueue hnext => rw [hqueue, List.append_nil]
  | one kind hkind hqueue hnext => exact hqueue

/-- The kind is no placement. -/
def OrderRequestKind.PlacesNothing : OrderRequestKind → Prop
  | .placeChase .. => False
  | .cancelOrder _ => True
  | .fetchFills .. => True

theorem OrderRequest.not_places {request : OrderRequest} (h : request.kind.PlacesNothing) :
    ¬ request.Places key := by
  rintro ⟨target, side, qty, prices, tag, hkind⟩
  rw [hkind] at h
  exact h

/-- What a move of a pair does to the placement that the pair waits for. -/
inductive PlacementMove (key : PairKey) (s t : Slot) : Act → Prop
  | kept (a : Act) (new : List OrderRequest)
      (hreq : t.order.entryPlaceReqId = s.order.entryPlaceReqId)
      (hsends : s.desk.Sends t.desk OrderRequestKind.PlacesNothing new) :
      PlacementMove key s t a
  | queued (a : Act) (kind : OrderRequestKind) (hnone : s.order.entryPlaceReqId = none)
      (hreq : t.order.entryPlaceReqId = some (s.desk.nextId + 1))
      (hplaces : ∀ id, OrderRequest.Places key ⟨id, kind⟩)
      (hqueue : t.desk.queue = s.desk.queue ++ [⟨s.desk.nextId + 1, kind⟩])
      (hnext : t.desk.nextId = s.desk.nextId + 1) : PlacementMove key s t a
  | answered (a : Act) (reqId : ℕ) (ha : a = .refused reqId ∨ ∃ result, a = .placed reqId result)
      (hreq : s.order.entryPlaceReqId = some reqId) (hnone : t.order.entryPlaceReqId = none)
      (hqueue : t.desk.queue = s.desk.queue) (hnext : t.desk.nextId = s.desk.nextId) :
      PlacementMove key s t a

theorem OrderState.Wf.not_placing {live hasBar : Bool} {o : OrderState} (h : o.Wf live hasBar)
    (hstate : o.state ≠ .entryPlacing) : o.entryPlaceReqId = none := by
  by_contra hsome
  exact hstate (h.placing.mpr (Option.isSome_iff_ne_none.mpr hsome))

theorem OrderState.Holding.ne_placing {o : OrderState} (h : o.Holding) :
    o.state ≠ .entryPlacing := by
  rintro hstate
  rcases h with hs | hs | hs
  all_goals
    rw [hstate] at hs
    cases hs

theorem Upkeep.placement {s t : Slot} {live : Bool} (h : Upkeep key s t)
    (hwf : s.order.Wf live s.hasBar) (a : Act) : PlacementMove key s t a := by
  have hquiet : ∀ {order : OrderState} {lastBar : Option Bars1sPair},
      order.entryPlaceReqId = s.order.entryPlaceReqId →
        PlacementMove key s ⟨order, lastBar, s.desk⟩ a := by
    -- the request of the pair is not touched
    intro order lastBar hreq
    exact .kept a [] hreq (.nothing rfl (le_refl _))
  have hsent : ∀ {order : OrderState} {kind : OrderRequestKind}, kind.PlacesNothing →
      order.entryPlaceReqId = s.order.entryPlaceReqId →
        PlacementMove key s { s with order := order, desk := s.desk.send kind } a := by
    -- a cancel or a poll, under a new id
    intro order kind hkind hreq
    exact .kept a _ hreq (.one kind hkind rfl rfl)
  cases h with
  | sawBar bar hkey => exact hquiet rfl
  | expire hstate => exact hquiet (hwf.not_placing (by simp [hstate])).symm
  | forget hstate hdir =>
    refine hquiet (Eq.symm ?_)
    -- a placement that is outstanding has a direction
    by_contra hsome
    obtain ⟨reqId, hreq⟩ := Option.ne_none_iff_exists'.mp hsome
    obtain ⟨-, -, -, -, hne, -⟩ := hwf.pending reqId hreq
    exact hne hdir
  | giveUp hstate hbar => exact hquiet (hwf.not_placing (by simp [hstate])).symm
  | giveUpSending entry qty price hstate hbar =>
    exact hquiet (hwf.not_placing (by simp [hstate])).symm
  | stray reqId hreq hnone =>
    -- a response that is expected finds its entry
    obtain ⟨entry, hentry, -⟩ := hwf.pending reqId hreq
    rw [hnone] at hentry
    cases hentry
  | askEntryCancel reason hstate hreq => exact hquiet rfl
  | sendEntryCancel orderId hstate hreq hpend hid => exact hsent trivial rfl
  | entryCancelFailed => exact hquiet rfl
  | askExitCancel reason hstate hid => exact hquiet rfl
  | sendExitCancel orderId hstate hpend hid => exact hsent trivial rfl
  | exitCancelFailed => exact hquiet rfl
  | dropExitCancel hnone => exact hquiet rfl
  | burnId => exact .kept a [] rfl (.nothing rfl (Nat.le_succ _))
  | poll kind target since => exact hsent trivial rfl

theorem OrderState.exitPlaced_placeReq (o : OrderState) (result : PlaceResult) :
    (o.exitPlaced result).entryPlaceReqId = o.entryPlaceReqId := by
  unfold OrderState.exitPlaced
  cases result.order <;> rfl

/-- A live pair starts to wait for the placement that it queues, and stops when the
response to it arrives. -/
theorem Move.placement {s t : Slot} {a : Act} (hlive : setup.isLive = true)
    (h : Move setup key s a t) (hwf : s.order.Wf setup.isLive s.hasBar) :
    PlacementMove key s t a := by
  have hdry : setup.isLive ≠ false := by
    rw [hlive]
    exact Bool.noConfusion
  have hfree : ∀ {t : Slot}, s.order.entryPlaceReqId = none → t.order.entryPlaceReqId = none →
      t.desk.queue = s.desk.queue → t.desk.nextId = s.desk.nextId → PlacementMove key s t a := by
    -- the pair waited for nothing and still does not
    intro t hs ht hqueue hnext
    exact .kept a [] (ht.trans hs.symm) (.nothing hqueue hnext.ge)
  cases h with
  | upkeep hup => exact hup.placement hwf _
  | queueEntry entry qty first rest target _ hstate hbar hkey hdir hsized =>
    -- an idle pair waits for no placement
    have hnone := hwf.not_placing (by simp [hstate])
    exact .queued _ _ hnone rfl (fun id => ⟨_, _, _, _, _, rfl⟩) rfl rfl
  | enterPaper entry qty price rest now hpaper => exact absurd hpaper hdry
  | placed reqId result entry price qty now hreq =>
    exact .answered _ reqId (Or.inr ⟨result, rfl⟩) hreq rfl rfl rfl
  | refused reqId hreq => exact .answered _ reqId (Or.inl rfl) hreq rfl rfl rfl
  | entryFill fill now hbar htakes => exact .kept _ [] rfl (.nothing rfl (le_refl _))
  | openExit qty prices result calls =>
    refine .kept _ [] ?_ (.nothing rfl (le_refl _))
    exact OrderState.exitPlaced_placeReq _ result
  | retryExit qty prices result calls =>
    refine .kept _ [] ?_ (.nothing rfl (le_refl _))
    exact OrderState.exitPlaced_placeReq _ result
  | exitFill fill hbar htakes =>
    -- a position was opened after its placement had been answered
    have hopen := hwf.open_of_takesExitFill htakes
    exact hfree (hwf.not_placing (OrderState.Holding.ne_placing (Or.inr hopen))) rfl rfl rfl
  | cancelEntry cause hcause hpaper =>
    have hhold := hwf.holding_of_cause hcause hpaper
    exact hfree (hwf.not_placing hhold.ne_placing) rfl rfl rfl
  | abandonEntry cause hcause hbar =>
    have hseen := hwf.bar (hwf.not_idle_of_cause hcause)
    rw [hbar] at hseen
    cases hseen
  | cancelExit cause hcause => exact .kept _ [] rfl (.nothing rfl (le_refl _))
  | entryPaper price now hpaper => exact absurd hpaper hdry
  | openPaper hpaper => exact absurd hpaper hdry
  | exitPaper hpaper => exact absurd hpaper hdry

/-- The outstanding placements `out` are those that the pairs wait for, except that one
may just have been answered. -/
structure Placements (v : View) (out : List OrderRequest) (answered : Option (PairKey × ℕ)) :
    Prop where
  increasing : out.Pairwise fun r r' => r.id < r'.id
  used : ∀ r ∈ out, r.id ≤ v.desk.nextId
  issued : ∀ r ∈ out, ∀ key, r.Places key → (v.order key).entryPlaceReqId = some r.id
  known : ∀ key reqId, (v.order key).entryPlaceReqId = some reqId → reqId ≤ v.desk.nextId
  recorded : ∀ key reqId, (v.order key).entryPlaceReqId = some reqId →
    answered = some (key, reqId) ∨ ∃ r ∈ out, r.Places key ∧ r.id = reqId
  fresh : ∀ key reqId, answered = some (key, reqId) → reqId ≤ v.desk.nextId ∧ ∀ r ∈ out, r.id ≠ reqId

namespace Placements

variable {v w : View} {out new : List OrderRequest} {answered : Option (PairKey × ℕ)}

/-- What is sent under a new id is behind everything that is outstanding. -/
theorem increasing_send (h : Placements v out answered) (kind : OrderRequestKind) :
    (out ++ [(⟨v.desk.nextId + 1, kind⟩ : OrderRequest)]).Pairwise fun r r' => r.id < r'.id := by
  refine List.pairwise_append.mpr ⟨h.increasing, List.pairwise_singleton _ _, ?_⟩
  intro r hr r' hr'
  rw [List.mem_singleton.mp hr']
  exact Nat.lt_succ_of_le (h.used r hr)

theorem kept (h : Placements v out answered)
    (hreq : ∀ key, (w.order key).entryPlaceReqId = (v.order key).entryPlaceReqId)
    (hsends : v.desk.Sends w.desk OrderRequestKind.PlacesNothing new) :
    Placements w (out ++ new) answered := by
  cases hsends with
  | nothing hqueue hnext =>
    rw [List.append_nil]
    constructor
    · exact h.increasing
    · exact fun r hr => (h.used r hr).trans hnext
    · exact fun r hr key hplaces => (hreq key).trans (h.issued r hr key hplaces)
    · exact fun key reqId hid => (h.known key reqId ((hreq key).symm.trans hid)).trans hnext
    · exact fun key reqId hid => h.recorded key reqId ((hreq key).symm.trans hid)
    · exact fun key reqId hans => ((h.fresh key reqId hans).imp_left fun hle => hle.trans hnext)
  | one kind hkind hqueue hnext =>
    have hle : v.desk.nextId ≤ w.desk.nextId := by omega
    constructor
    · exact h.increasing_send kind
    · intro r hr
      rcases List.mem_append.mp hr with hr | hr
      · exact (h.used r hr).trans hle
      · rw [List.mem_singleton.mp hr]
        exact hnext.ge
    · intro r hr key hplaces
      rcases List.mem_append.mp hr with hr | hr
      · exact (hreq key).trans (h.issued r hr key hplaces)
      · rw [List.mem_singleton.mp hr] at hplaces
        exact absurd hplaces (OrderRequest.not_places hkind)
    · exact fun key reqId hid => (h.known key reqId ((hreq key).symm.trans hid)).trans hle
    · intro key reqId hid
      refine (h.recorded key reqId ((hreq key).symm.trans hid)).imp_right ?_
      rintro ⟨r, hr, hplaces⟩
      exact ⟨r, List.mem_append_left _ hr, hplaces⟩
    · intro key reqId hans
      obtain ⟨hused, hne⟩ := h.fresh key reqId hans
      refine ⟨hused.trans hle, fun r hr => ?_⟩
      rcases List.mem_append.mp hr with hr | hr
      · exact hne r hr
      · rw [List.mem_singleton.mp hr]
        show v.desk.nextId + 1 ≠ reqId
        omega

theorem queued (h : Placements v out answered) (kind : OrderRequestKind)
    (hnone : (v.order key).entryPlaceReqId = none)
    (hreq : (w.order key).entryPlaceReqId = some (v.desk.nextId + 1))
    (hframe : ∀ key', key' ≠ key → w.order key' = v.order key')
    (hplaces : ∀ id, OrderRequest.Places key ⟨id, kind⟩)
    (hnext : w.desk.nextId = v.desk.nextId + 1) :
    Placements w (out ++ [⟨v.desk.nextId + 1, kind⟩]) answered := by
  have hle : v.desk.nextId ≤ w.desk.nextId := by omega
  have hkind : ∀ {id : ℕ} {key' : PairKey}, OrderRequest.Places key' ⟨id, kind⟩ → key' = key := by
    rintro id key' ⟨_, _, _, _, _, hk'⟩
    obtain ⟨_, _, _, _, _, hk⟩ := hplaces id
    have hboth := hk'.symm.trans hk
    simp only [OrderRequestKind.placeChase.injEq] at hboth
    exact hboth.1
  constructor
  · exact h.increasing_send kind
  · intro r hr
    rcases List.mem_append.mp hr with hr | hr
    · exact (h.used r hr).trans hle
    · rw [List.mem_singleton.mp hr]
      exact hnext.ge
  · intro r hr key' hr'
    rcases List.mem_append.mp hr with hr | hr
    · -- the pair waits for nothing yet, so an older placement is one of another pair
      have hissued := h.issued r hr key' hr'
      rcases eq_or_ne key' key with rfl | hne
      · rw [hnone] at hissued
        cases hissued
      · rw [hframe key' hne]
        exact hissued
    · rw [List.mem_singleton.mp hr] at hr' ⊢
      rw [hkind hr', hreq]
  · intro key' reqId hid
    rcases eq_or_ne key' key with rfl | hne
    · rw [hreq] at hid
      cases hid
      exact hnext.ge
    · rw [hframe key' hne] at hid
      exact (h.known key' reqId hid).trans hle
  · intro key' reqId hid
    rcases eq_or_ne key' key with rfl | hne
    · rw [hreq] at hid
      cases hid
      exact Or.inr ⟨_, List.mem_append_right _ (List.mem_singleton_self _), hplaces _, rfl⟩
    · rw [hframe key' hne] at hid
      refine (h.recorded key' reqId hid).imp_right ?_
      rintro ⟨r, hr, hr'⟩
      exact ⟨r, List.mem_append_left _ hr, hr'⟩
  · intro key' reqId hans
    obtain ⟨hused, hne⟩ := h.fresh key' reqId hans
    refine ⟨hused.trans hle, fun r hr => ?_⟩
    rcases List.mem_append.mp hr with hr | hr
    · exact hne r hr
    · rw [List.mem_singleton.mp hr]
      show v.desk.nextId + 1 ≠ reqId
      omega

theorem consumed (h : Placements v out answered) {reqId : ℕ}
    (hans : answered = some (key, reqId)) (hreq : (v.order key).entryPlaceReqId = some reqId)
    (hnone : (w.order key).entryPlaceReqId = none)
    (hframe : ∀ key', key' ≠ key → w.order key' = v.order key')
    (hnext : w.desk.nextId = v.desk.nextId) : Placements w out answered := by
  constructor
  · exact h.increasing
  · exact fun r hr => (h.used r hr).trans hnext.ge
  · intro r hr key' hplaces
    have hissued := h.issued r hr key' hplaces
    rcases eq_or_ne key' key with rfl | hne
    · rw [hreq] at hissued
      cases hissued
      exact absurd rfl ((h.fresh _ _ hans).2 r hr)
    · rw [hframe key' hne]
      exact hissued
  · intro key' reqId' hid
    rcases eq_or_ne key' key with rfl | hne
    · rw [hnone] at hid
      cases hid
    · rw [hframe key' hne] at hid
      exact (h.known key' reqId' hid).trans hnext.ge
  · intro key' reqId' hid
    rcases eq_or_ne key' key with rfl | hne
    · rw [hnone] at hid
      cases hid
    · rw [hframe key' hne] at hid
      exact h.recorded key' reqId' hid
  · exact fun key' reqId' hans' => (h.fresh key' reqId' hans').imp_left fun hle => hle.trans hnext.ge

/-- A placement is only answered where a response to it arrives. -/
def AnswersOnly (answered : Option (PairKey × ℕ)) (a : PairKey × Act) : Prop :=
  ∀ reqId, (a.2 = .refused reqId ∨ ∃ result, a.2 = .placed reqId result) →
    answered = some (a.1, reqId)

theorem move (hlive : setup.isLive = true) (h : Placements v out answered) (hv : v.Inv setup)
    {a : PairKey × Act} (ha : AnswersOnly answered a) (hmove : View.Move setup v a w) :
    ∃ new, w.desk.queue = v.desk.queue ++ new ∧ Placements w (out ++ new) answered := by
  obtain ⟨key, act⟩ := a
  obtain ⟨t, ht, rfl⟩ := hmove
  have hself : (v.put key t).order key = t.order := View.put_order_self v key t
  have hframe : ∀ key', key' ≠ key → (v.put key t).order key' = v.order key' :=
    fun key' hne => View.put_order_of_ne v t hne
  have hselfReq : ((v.put key t).order key).entryPlaceReqId = t.order.entryPlaceReqId :=
    congrArg OrderState.entryPlaceReqId hself
  cases ht.placement hlive (hv.wf key) with
  | kept new hreq hsends =>
    refine ⟨new, hsends.queue, h.kept ?_ hsends⟩
    intro key'
    rcases eq_or_ne key' key with rfl | hne
    · rw [hself]
      exact hreq
    · rw [hframe key' hne]
  | queued kind hnone hreq hplaces hqueue hnext =>
    exact ⟨_, hqueue, h.queued kind hnone (hselfReq.trans hreq) hframe hplaces hnext⟩
  | answered reqId hact hreq hnone hqueue hnext =>
    refine ⟨[], by rw [List.append_nil]; exact hqueue, ?_⟩
    rw [List.append_nil]
    exact h.consumed (ha reqId hact) hreq (hselfReq.trans hnone) hframe hnext

/-- A chain keeps the books: what it sends is what the queue got longer by. -/
theorem steps (hlive : setup.isLive = true) (h : Placements v out answered) (hv : v.Inv setup)
    {allow : View → PairKey × Act → Prop} (hallow : ∀ u a, allow u a → AnswersOnly answered a)
    (hsteps : EngineSteps setup allow v w) :
    Placements w (out ++ w.desk.queue.drop v.desk.queue.length) answered := by
  have hchain : (∃ new, w.desk.queue = v.desk.queue ++ new ∧ Placements w (out ++ new) answered) ∧
      w.Inv setup := by
    apply Lib.Chain.inv (fun u => (∃ new, u.desk.queue = v.desk.queue ++ new ∧
      Placements u (out ++ new) answered) ∧ u.Inv setup) ?_ hsteps
    · exact ⟨⟨[], by rw [List.append_nil], by rw [List.append_nil]; exact h⟩, hv⟩
    · rintro u a u' ⟨⟨new, hqueue, hu⟩, hinv⟩ ha hmove
      obtain ⟨more, hmore, hu'⟩ := hu.move hlive hinv (hallow u a ha) hmove
      refine ⟨⟨new ++ more, ?_, ?_⟩, hmove.inv hinv⟩
      · rw [hmore, hqueue, List.append_assoc]
      · rwa [← List.append_assoc]
  obtain ⟨⟨new, hqueue, hw⟩, -⟩ := hchain
  rw [hqueue, List.drop_left]
  exact hw

end Placements

/-! ## Every run -/

theorem TradeEngine.lookup_of_placeReq (eng : TradeEngine) {reqId : ℕ}
    (h : (eng.stateOf key).entryPlaceReqId = some reqId) :
    eng.states.lookup key = some (eng.stateOf key) := by
  apply eng.lookup_of_ne_idle
  intro hidle
  rw [hidle] at h
  cases h

/-- What the response to a placement does to the engine: the pair that waits for it takes
it, and no other pair changes. -/
structure PlacementConsumed (key : PairKey) (result : PlaceResult) (eng eng' : TradeEngine) :
    Prop where
  answered : (eng'.stateOf key).entryPlaceReqId = none ∧ (eng'.stateOf key).pendingEntry = none
  placed : ∀ order, result.order = some order → (eng'.stateOf key).state = .entryWorking ∧
    (eng'.stateOf key).entryOrderId = some order.orderId
  unnamed : result.order = none → result.lastErr = some "order_id_missing" →
    (eng'.stateOf key).state = .entryWorking ∧ (eng'.stateOf key).entryOrderId = none
  refused : result.order = none → result.lastErr ≠ some "order_id_missing" →
    (eng'.stateOf key).state = .cooldown
  others : ∀ key', key' ≠ key → eng'.stateOf key' = eng.stateOf key'

/-- The response to a placement is applied to the pair that waits for it. -/
theorem TradeEngine.handle_placement (eng : TradeEngine) {reqId : ℕ} {entry : PendingEntry}
    (result : PlaceResult) (hreq : (eng.stateOf key).entryPlaceReqId = some reqId)
    (hentry : (eng.stateOf key).pendingEntry = some entry) :
    TradeEngine.handle setup env eng (.orderResponse (.placeChase reqId key result)) =
      eng.putBack key (applyPlaceResult setup env eng
        { eng.stateOf key with entryPlaceReqId := none, pendingEntry := none } entry key
        result) := by
  have hlookup := eng.lookup_of_placeReq hreq
  show TradeEngine.handleEntryPlaceResult setup env eng key reqId result = _
  unfold TradeEngine.handleEntryPlaceResult TradeEngine.onKnown
  simp only [hlookup, hreq, hentry, ne_eq, not_true_eq_false, if_false]

/-- The pair that waits for the response takes it. -/
theorem TradeEngine.placement_consumed (eng : TradeEngine) {reqId : ℕ} {entry : PendingEntry}
    (result : PlaceResult) (hreq : (eng.stateOf key).entryPlaceReqId = some reqId)
    (hentry : (eng.stateOf key).pendingEntry = some entry) :
    PlacementConsumed key result eng
      (TradeEngine.handle setup env eng (.orderResponse (.placeChase reqId key result))) := by
  rw [eng.handle_placement result hreq hentry]
  have hothers : ∀ r : Desk × PairTradeState, ∀ key', key' ≠ key →
      (eng.putBack key r).stateOf key' = eng.stateOf key' := by
    intro r key' hne
    rw [TradeEngine.stateOf_putBack, if_neg hne]
  have hself : ∀ r : Desk × PairTradeState, (eng.putBack key r).stateOf key = r.2 := by
    intro r
    rw [TradeEngine.stateOf_putBack, if_pos rfl]
  -- the response is a success if it names the order or says that the name is missing
  by_cases hok : (result.order.map (·.orderId)).isSome ∨ result.lastErr = some "order_id_missing"
  · unfold TradeEngine.applyPlaceResult
    simp only [if_pos hok]
    constructor
    · rw [hself]
      exact ⟨rfl, rfl⟩
    · intro order horder
      rw [hself, horder]
      exact ⟨rfl, rfl⟩
    · intro hnone _
      rw [hself, hnone]
      exact ⟨rfl, rfl⟩
    · intro hnone herr
      rw [hnone] at hok
      exact absurd hok (by simp [herr])
    · exact hothers _
  · unfold TradeEngine.applyPlaceResult
    simp only [if_neg hok]
    obtain ⟨hnone, herr⟩ := not_or.mp hok
    constructor
    · rw [hself]
      exact ⟨rfl, rfl⟩
    · intro order horder
      rw [horder] at hnone
      exact absurd rfl hnone
    · intro _ hmissing
      exact absurd hmissing herr
    · intro _ _
      rw [hself]
      rfl
    · exact hothers _

/-- A response that the pair does not wait for changes no pair. -/
theorem TradeEngine.placement_ignored (eng : TradeEngine) {reqId : ℕ} (result : PlaceResult)
    (hreq : (eng.stateOf key).entryPlaceReqId ≠ some reqId) (key' : PairKey) :
    (TradeEngine.handle setup env eng (.orderResponse (.placeChase reqId key result))).stateOf
      key' = eng.stateOf key' := by
  show (TradeEngine.handleEntryPlaceResult setup env eng key reqId result).stateOf key' = _
  unfold TradeEngine.handleEntryPlaceResult TradeEngine.onKnown
  cases hlookup : eng.states.lookup key with
  | none => rfl
  | some st =>
    obtain rfl := eng.stateOf_of_lookup hlookup
    simp only [if_pos hreq]
    rw [TradeEngine.stateOf_putBack]
    split
    · rename_i heq
      rw [heq]
    · rfl

theorem OrderRequest.Places.response {request : OrderRequest} (hplaces : request.Places key)
    {response : OrderResponse} (h : response.answers request = true) :
    ∃ result, response = .placeChase request.id key result := by
  obtain ⟨target, side, qty, prices, tag, hkind⟩ := hplaces
  cases response with
  | placeChase reqId pairKey result =>
    simp only [OrderResponse.answers, hkind, decide_eq_true_eq] at h
    obtain ⟨rfl, rfl⟩ := h
    exact ⟨result, rfl⟩
  | cancelOrder reqId orderId result =>
    simp only [OrderResponse.answers, hkind] at h
    cases h
  | fetchFills reqId pairKey kind result =>
    simp only [OrderResponse.answers, hkind] at h
    cases h

theorem OrderResponse.places_of_answers {reqId : ℕ} {result : PlaceResult} {request : OrderRequest}
    (h : OrderResponse.answers (.placeChase reqId key result) request = true) :
    reqId = request.id ∧ request.Places key := by
  cases hkind : request.kind with
  | placeChase pairKey target side qty prices tag =>
    simp only [OrderResponse.answers, hkind, decide_eq_true_eq] at h
    obtain ⟨hid, rfl⟩ := h
    exact ⟨hid, target, side, qty, prices, tag, hkind⟩
  | cancelOrder orderId =>
    simp only [OrderResponse.answers, hkind] at h
    cases h
  | fetchFills pairKey kind target since =>
    simp only [OrderResponse.answers, hkind] at h
    cases h

/-- What the message answers: a placement that a pair waits for. -/
def TradeMessage.answered : TradeMessage → Option (PairKey × ℕ)
  | .orderResponse (.placeChase id pairKey _) => some (pairKey, id)
  | _ => none

theorem MessageAllow.answersOnly {eng : TradeEngine} {message : TradeMessage} {s : Slot} {a : Act}
    (h : MessageAllow setup env eng message key s a) :
    Placements.AnswersOnly message.answered (key, a) := by
  intro reqId ha
  obtain ⟨result, rfl, -⟩ := h.answer_message ha
  rfl

/-- While a message is handled, its own request is no longer outstanding. -/
theorem Placements.arrive {sys : ExecSystem} {message : TradeMessage} {rest : List OrderRequest}
    (h : Placements sys.engine.view sys.outstanding none)
    (hrest : sys.unanswered message = some rest) :
    Placements sys.engine.view rest message.answered := by
  have hsub := unanswered_subset hrest
  -- a placement that is not outstanding any more is the one that the message answers
  have hgone : ∀ r ∈ sys.outstanding, ∀ key, r.Places key →
      message.answered = some (key, r.id) ∨ r ∈ rest := by
    intro r hr key hplaces
    cases message with
    | orderResponse response =>
      obtain ⟨before, request, after, hanswers, hsplit, hafter⟩ := unanswered_response hrest
      rw [hsplit] at hr
      rcases List.mem_append.mp hr with hr | hr
      · exact Or.inr (hafter ▸ List.mem_append_left _ hr)
      · rcases List.mem_cons.mp hr with rfl | hr
        · obtain ⟨result, rfl⟩ := hplaces.response hanswers
          exact Or.inl rfl
        · exact Or.inr (hafter ▸ List.mem_append_right _ hr)
    | _ =>
      cases hrest
      exact Or.inr hr
  constructor
  · exact h.increasing.sublist hsub
  · exact fun r hr => h.used r (hsub.subset hr)
  · exact fun r hr => h.issued r (hsub.subset hr)
  · exact h.known
  · intro key reqId hid
    obtain hnone | ⟨r, hr, hplaces, rfl⟩ := h.recorded key reqId hid
    · cases hnone
    · exact (hgone r hr key hplaces).imp_right fun hmem => ⟨r, hmem, hplaces, rfl⟩
  · intro key reqId hans
    cases message with
    | orderResponse response =>
      obtain ⟨before, request, after, hanswers, hsplit, rfl⟩ := unanswered_response hrest
      have hid : request.id = reqId := by
        cases response with
        | placeChase id pairKey result =>
          cases hans
          exact (OrderResponse.places_of_answers hanswers).1.symm
        | cancelOrder => cases hans
        | fetchFills => cases hans
      have hmem : request ∈ sys.outstanding := by
        rw [hsplit]
        exact List.mem_append_right _ List.mem_cons_self
      have hincreasing := h.increasing
      rw [hsplit, List.pairwise_append, List.pairwise_cons] at hincreasing
      obtain ⟨-, ⟨hafter, -⟩, hbefore⟩ := hincreasing
      refine ⟨hid ▸ h.used request hmem, fun r hr => ?_⟩
      rcases List.mem_append.mp hr with hr | hr
      · have hlt := hbefore r hr request List.mem_cons_self
        omega
      · have hlt := hafter r hr
        omega
    | _ => cases hans

/-- The outstanding placements are those that the pairs wait for. -/
theorem placements_of_reachable (hlive : setup.isLive = true) {sys : ExecSystem}
    (h : (execMachine setup).Reachable sys) :
    Placements sys.engine.view sys.outstanding none := by
  have hboth : (engineMachine setup).Reachable sys.engine ∧
      Placements sys.engine.view sys.outstanding none := by
    apply (execMachine setup).inv_of_reachable ?_ ?_ h
    · rintro _ ⟨now, rfl⟩
      refine ⟨⟨TradeEngine.start now, [], ⟨now, rfl⟩, rfl⟩, ?_⟩
      constructor
      · exact List.Pairwise.nil
      · exact fun r hr => absurd hr List.not_mem_nil
      · exact fun r hr => absurd hr List.not_mem_nil
      · exact fun key reqId hid => by cases hid
      · exact fun key reqId hid => by cases hid
      · exact fun key reqId hid => by cases hid
    · rintro sys ⟨env, message⟩ sys' ⟨hreach, hplacements⟩ hstep
      obtain ⟨rest, hrest, rfl⟩ := step_execMachine hstep
      have hinv := inv_of_reachable hreach
      refine ⟨reachable_handle hreach message, ?_⟩
      have hsteps := @TradeEngine.handle_steps setup env sys.engine message hinv
      have hnow := (hplacements.arrive hrest).steps hlive ⟨hinv.wf, hinv.bars⟩
        (fun _ _ ha => ha.answersOnly) hsteps
      -- the pair took the answer, so it does not wait for it any more
      refine { hnow with
        recorded := fun key reqId hid => ?_
        fresh := fun _ _ hnone => by cases hnone }
      refine (hnow.recorded key reqId hid).imp_left fun hans => ?_
      cases message with
      | orderResponse response =>
        cases response with
        | placeChase id pairKey result =>
          cases hans
          by_cases hreq : (sys.engine.stateOf key).entryPlaceReqId = some reqId
          · obtain ⟨entry, hentry, -⟩ := (hinv.wf key).pending reqId hreq
            have hconsumed := @TradeEngine.placement_consumed setup env key sys.engine reqId entry
              result hreq hentry
            have hcleared := hconsumed.answered.1
            exact absurd (hcleared.symm.trans hid) nofun
          · have hsame := @TradeEngine.placement_ignored setup env key sys.engine reqId result
              hreq key
            exact absurd ((congrArg (·.entryPlaceReqId) hsame).symm.trans hid) hreq
        | cancelOrder => cases hans
        | fetchFills => cases hans
      | _ => cases hans
  exact hboth.2

/-- A pair that has a pending entry waits for its placement. -/
theorem placeReq_of_pendingEntry {eng : TradeEngine} (hlive : setup.isLive = true)
    (h : (engineMachine setup).Reachable eng)
    (hpending : (eng.stateOf key).pendingEntry.isSome = true) :
    (eng.stateOf key).entryPlaceReqId.isSome = true := by
  let P : OrderState → Prop := fun o => o.pendingEntry.isSome = true → o.entryPlaceReqId.isSome = true
  have hP : P (eng.stateOf key).toOrderState := by
    refine @orderInv_of_reachable setup key P (fun hidle => by cases hidle) ?_ eng h
    intro s a t hwf hs hmove
    have hdry : setup.isLive ≠ false := by
      rw [hlive]
      exact Bool.noConfusion
    have hexit : ∀ (o : OrderState) (result : PlaceResult), P o → P (o.exitPlaced result) := by
      intro o result ho
      unfold OrderState.exitPlaced
      cases result.order <;> exact ho
    cases hmove with
    | upkeep hup =>
      cases hup with
      | expire => exact fun hidle => by cases hidle
      | forget => exact fun hidle => by cases hidle
      | giveUp => exact fun hidle => by cases hidle
      | giveUpSending => exact fun hidle => by cases hidle
      | stray reqId hreq hnone =>
        intro hsome
        rw [hnone] at hsome
        cases hsome
      | _ => exact hs
    | queueEntry => exact fun _ => rfl
    | enterPaper entry qty price rest now hpaper => exact absurd hpaper hdry
    | placed => exact fun hnone => by cases hnone
    | refused => exact fun hnone => by cases hnone
    | entryFill => exact hs
    | openExit qty prices result =>
      exact hexit { s.order with state := .exitWorking } result hs
    | retryExit qty prices result => exact hexit s.order result hs
    | exitFill => exact fun hnone => by cases hnone
    | cancelEntry => exact fun hnone => by cases hnone
    | abandonEntry => exact fun hnone => by cases hnone
    | cancelExit => exact hs
    | entryPaper => exact hs
    | openPaper => exact hs
    | exitPaper => exact fun hnone => by cases hnone
  exact hP hpending

/-- At most one placement of a pair is outstanding. -/
theorem Placements.count_le_one {v : View} {out : List OrderRequest}
    {answered : Option (PairKey × ℕ)} (h : Placements v out answered) (key : PairKey) :
    out.countP (fun r => decide (r.Places key)) ≤ 1 := by
  rw [List.countP_eq_length_filter]
  have hincreasing := h.increasing.filter fun r => decide (r.Places key)
  have hissued : ∀ r ∈ out.filter (fun r => decide (r.Places key)),
      (v.order key).entryPlaceReqId = some r.id := by
    intro r hr
    obtain ⟨hmem, hplaces⟩ := List.mem_filter.mp hr
    exact h.issued r hmem key (of_decide_eq_true hplaces)
  generalize out.filter (fun r => decide (r.Places key)) = placements at hincreasing hissued
  match placements with
  | [] => exact Nat.zero_le _
  | [_] => exact le_refl _
  | r :: r' :: _ =>
    have hlt := (List.pairwise_cons.mp hincreasing).1 r' List.mem_cons_self
    have hr := hissued r List.mem_cons_self
    have hr' := hissued r' (List.mem_cons_of_mem _ List.mem_cons_self)
    have hid := Option.some.inj (hr.symm.trans hr')
    omega

/-- A live pair is placing an entry just in case it waits for a placement, and just in case
it has a pending entry.  At most one of its placements is outstanding, and that is the one
it waits for.  It takes the response to it; any other response changes no pair. -/
theorem placing_bookkeeping (hlive : setup.isLive = true) {sys : ExecSystem}
    (h : (execMachine setup).Reachable sys) (key : PairKey) :
    ((sys.engine.stateOf key).state = .entryPlacing ↔
        (sys.engine.stateOf key).entryPlaceReqId.isSome = true) ∧
      ((sys.engine.stateOf key).state = .entryPlacing ↔
        (sys.engine.stateOf key).pendingEntry.isSome = true) ∧
      sys.outstanding.countP (fun r => decide (r.Places key)) ≤ 1 ∧
      (∀ r ∈ sys.outstanding, r.Places key →
        (sys.engine.stateOf key).entryPlaceReqId = some r.id) ∧
      (∀ reqId, (sys.engine.stateOf key).entryPlaceReqId = some reqId →
        ∃ r ∈ sys.outstanding, r.Places key ∧ r.id = reqId) ∧
      ∀ (env : Env) (reqId : ℕ) (result : PlaceResult) (eng' : TradeEngine),
        TradeEngine.handle setup env sys.engine (.orderResponse (.placeChase reqId key result)) =
          eng' →
        ((sys.engine.stateOf key).entryPlaceReqId = some reqId →
          PlacementConsumed key result sys.engine eng') ∧
        ((sys.engine.stateOf key).entryPlaceReqId ≠ some reqId →
          ∀ key', eng'.stateOf key' = sys.engine.stateOf key') := by
  have hreach := engine_of_reachable h
  have hwf := (inv_of_reachable hreach).wf key
  have hplacements := placements_of_reachable hlive h
  refine ⟨hwf.placing, ?_, hplacements.count_le_one key, ?_, ?_, ?_⟩
  · constructor
    · intro hstate
      obtain ⟨reqId, hreq⟩ := Option.isSome_iff_exists.mp (hwf.placing.mp hstate)
      obtain ⟨entry, hentry, -⟩ := hwf.pending reqId hreq
      exact Option.isSome_iff_exists.mpr ⟨entry, hentry⟩
    · intro hpending
      exact hwf.placing.mpr (placeReq_of_pendingEntry hlive hreach hpending)
  · exact fun r hr hplaces => hplacements.issued r hr key hplaces
  · exact fun reqId hreq => (hplacements.recorded key reqId hreq).resolve_left nofun
  · rintro env reqId result _ rfl
    constructor
    · intro hreq
      obtain ⟨entry, hentry, -⟩ := hwf.pending reqId hreq
      exact sys.engine.placement_consumed result hreq hentry
    · exact fun hreq => sys.engine.placement_ignored result hreq

/-- The engine and its executor after a list of messages that can all arrive. -/
def ExecSystem.after (setup : Setup) (messages : List (Env × TradeMessage)) : ExecSystem :=
  ((execMachine setup).run (ExecSystem.start 0) messages).getD (ExecSystem.start 0)

theorem ExecSystem.run_after {messages : List (Env × TradeMessage)}
    (h : ((execMachine setup).run (ExecSystem.start 0) messages).isSome = true) :
    (execMachine setup).run (ExecSystem.start 0) messages =
      some (ExecSystem.after setup messages) := by
  obtain ⟨sys, hsys⟩ := Option.isSome_iff_exists.mp h
  unfold ExecSystem.after
  rw [hsys]
  rfl

theorem ExecSystem.reachable_after {messages : List (Env × TradeMessage)}
    (h : ((execMachine setup).run (ExecSystem.start 0) messages).isSome = true) :
    (execMachine setup).Reachable (ExecSystem.after setup messages) :=
  ⟨ExecSystem.start 0, messages, ⟨0, rfl⟩, ExecSystem.run_after h⟩

/-- An entry has just been queued: its placement is outstanding. -/
theorem placing_bookkeeping_queued :
    (ExecSystem.after sampleSetup (sampleEntering.take 2)).outstanding.countP
        (fun r => decide (r.Places sampleKey)) ≤ 1 ∧
      ∃ r ∈ (ExecSystem.after sampleSetup (sampleEntering.take 2)).outstanding,
        r.Places sampleKey ∧ r.id = 1 := by
  have hreach : (execMachine sampleSetup).Reachable
      (ExecSystem.after sampleSetup (sampleEntering.take 2)) :=
    ExecSystem.reachable_after (by decide +kernel)
  obtain ⟨-, -, hcount, -, hrecorded, -⟩ :=
    placing_bookkeeping isLive_sampleSetup hreach sampleKey
  exact ⟨hcount, hrecorded 1 (by decide +kernel)⟩

end AlphaMonitor.Trade
