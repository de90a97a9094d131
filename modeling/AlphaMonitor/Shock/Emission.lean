import AlphaMonitor.Shock.Engine
import AlphaMonitor.Store.Messages

/-!
# Messages about shocks

A shard gives every pending shock of a pair an id and remembers it under the pair, the
type and the trigger.  The final signal takes the id from there, so the update of a shock
comes after its event.

The text of a context is a parameter.

## Main definitions

- `ShardShocks`: what a shard keeps of shocks, and what it is about to send
- `ShockTag`: which shock a message creates or changes
-/

namespace AlphaMonitor.Shock

open Store (DbMessage ShockEvent ShockEventUpdate)

/-! ## Events and updates -/

/-- What a shock event takes from the bar. -/
structure BarTags where
  tokenKey : String
  tokenSide : TokenSide
  obsLatencyVenueP99Ms : Option ℤ
  connectionHealthFlags : ℤ
  deriving DecidableEq, Repr

/-- The key of `pending_shocks`: pair, type and trigger. -/
abbrev ShockKey := ℤ × ShockType × ℤ

section

variable (contextJson : List (String × ContextValue) → Option String)

/-- The event of a pending shock. -/
def shockEvent (bar : BarTags) (pairId shockId : ℤ) (pending : ShockPending) : ShockEvent where
  shockId := shockId
  tokenKey := bar.tokenKey
  pairId := some pairId
  tokenSide := bar.tokenSide
  shockType := pending.shockType.asStr
  direction := pending.direction
  noiseFlag := pending.noiseFlag
  startTsMs := pending.startTsMs
  triggerTsMs := pending.triggerTsMs
  peakTsMs := pending.triggerTsMs
  magnitude := pending.magnitude
  contextJson := contextJson pending.context
  obsLatencyMs := bar.obsLatencyVenueP99Ms
  connectionHealthFlags := bar.connectionHealthFlags
  status := .pending
  peakFinalized := 0

/-- The update of a final shock. -/
def shockEventUpdate (shockId : ℤ) (finalized : ShockFinal) : ShockEventUpdate where
  shockId := shockId
  startTsMs := finalized.startTsMs
  peakTsMs := finalized.peakTsMs
  magnitude := finalized.magnitude
  contextJson := contextJson finalized.context
  direction := finalized.direction
  noiseFlag := finalized.noiseFlag
  status := .final
  peakFinalized := 1

/-! ## Shards -/

/-- The shocks of a shard: the ids of pending ones in the state of each token, the signals of the
current bar that `emit_result` has still to look at, each for a pair, and the message that it is
about to send. -/
structure ShardShocks where
  pendingShocks : String → ShockKey → Option ℤ
  todo : List (BarTags × ℤ × ShockSignal)
  outgoing : Option DbMessage

namespace ShardShocks

/-- A shard of a process that has just been started. -/
def start : ShardShocks := ⟨fun _ _ => none, [], none⟩

variable (shard : ShardShocks)

/-- `pending_shocks.insert` and `pending_shocks.remove`. -/
def remember (tokenKey : String) (key : ShockKey) (shockId : Option ℤ) : ShardShocks :=
  { shard with
    pendingShocks := Function.update shard.pendingShocks tokenKey
      (Function.update (shard.pendingShocks tokenKey) key shockId) }

/-- The loops of `emit_result` over the pairs of a token and the signals of a bar begin. -/
def beginBar (bar : BarTags) (pairIds : List ℤ) (signals : List ShockSignal) : ShardShocks :=
  { shard with todo := pairIds.flatMap fun pairId => signals.map fun signal => (bar, pairId, signal) }

/-- The next signal, up to the message that it leads to; the second component is the shock counter
after it. -/
def handleSignal (alphaCaptureEnabled : Bool) (shockCounter : ℤ) : ShardShocks × ℤ :=
  match shard.todo with
  | [] => (shard, shockCounter)
  | (bar, pairId, .pending pending) :: rest =>
    let key := (pairId, pending.shockType, pending.triggerTsMs)
    let event := shockEvent contextJson bar pairId shockCounter pending
    ({ shard.remember bar.tokenKey key (some shockCounter) with
        todo := rest
        outgoing := if alphaCaptureEnabled then some (.shockEvent event) else none },
      shockCounter + 1)
  | (bar, pairId, .final finalized) :: rest =>
    let key := (pairId, finalized.shockType, finalized.triggerTsMs)
    let update := (shard.pendingShocks bar.tokenKey key).map fun shockId =>
      DbMessage.shockEventUpdate (shockEventUpdate contextJson shockId finalized)
    ({ shard.remember bar.tokenKey key none with
        todo := rest
        outgoing := if alphaCaptureEnabled then update else none },
      shockCounter)

end ShardShocks

end

end AlphaMonitor.Shock

namespace AlphaMonitor.Store

/-! ## What a message does to a shock -/

/-- The shock that a message creates or changes. -/
inductive ShockTag where
  | event (shockId : ℤ)
  | update (shockId : ℤ)
  deriving DecidableEq, Repr

/-- An update needs the event of its shock. -/
def ShockTag.needs : ShockTag → Option ShockTag
  | .event _ => none
  | .update shockId => some (.event shockId)

def DbMessage.shockTag : DbMessage → Option ShockTag
  | .shockEvent event => some (.event event.shockId)
  | .shockEventUpdate update => some (.update update.shockId)
  | .rawEvent _ | .bars1sToken _ | .bars1sPair _ | .clockOffset _ | .tokenRegistryUpsert _ => none
  | .pairTokenOverride .. | .resyncLog _ | .connectionHealth _ | .chainMetrics _ => none
  | .opinionResponse _ | .tradeAudit _ | .cancelTriggerSnapshot _ => none

end AlphaMonitor.Store

namespace AlphaMonitor.Shock

open Store (ShockTag)

namespace ShardShocks

variable {contextJson : List (String × ContextValue) → Option String} {shard : ShardShocks}

/-- The remembered ids are among some, and so is that of an update that is about to be sent; the
last one may be that of an event that is still to be sent. -/
structure Sound (sent : ℤ → Prop) (shard : ShardShocks) : Prop where
  remembered : ∀ tokenKey key, ∀ shockId ∈ shard.pendingShocks tokenKey key,
    sent shockId ∨ shard.outgoing.bind Store.DbMessage.shockTag = some (.event shockId)
  update : ∀ shockId, shard.outgoing.bind Store.DbMessage.shockTag = some (.update shockId) →
    sent shockId

theorem sound_start (sent : ℤ → Prop) : start.Sound sent where
  remembered _ _ _ h := by cases h
  update _ h := by cases h

theorem Sound.mono {sent sent' : ℤ → Prop} (h : shard.Sound sent)
    (hsent : ∀ shockId, sent shockId → sent' shockId) : shard.Sound sent' where
  remembered tokenKey key shockId hmem :=
    (h.remembered tokenKey key shockId hmem).imp_left (hsent shockId)
  update shockId hupdate := hsent shockId (h.update shockId hupdate)

theorem Sound.beginBar {sent : ℤ → Prop} (h : shard.Sound sent) (bar : BarTags)
    (pairIds : List ℤ) (signals : List ShockSignal) :
    (shard.beginBar bar pairIds signals).Sound sent :=
  ⟨h.remembered, h.update⟩

/-- Remembering an id adds no other. -/
theorem remember_cases {tokenKey tokenKey' : String} {key key' : ShockKey} {found : Option ℤ}
    {shockId : ℤ}
    (h : shockId ∈ (shard.remember tokenKey key found).pendingShocks tokenKey' key') :
    shockId ∈ found ∨ shockId ∈ shard.pendingShocks tokenKey' key' := by
  unfold remember at h
  dsimp only at h
  by_cases htoken : tokenKey' = tokenKey
  · subst htoken
    rw [Function.update_self] at h
    by_cases hkey : key' = key
    · rw [hkey, Function.update_self] at h
      exact .inl h
    · rw [Function.update_of_ne hkey] at h
      exact .inr h
  · rw [Function.update_of_ne htoken] at h
    exact .inr h

/-- A signal is looked at only once the message of the one before it is sent. -/
theorem Sound.handleSignal {sent : ℤ → Prop} (h : shard.Sound sent) (hsent : shard.outgoing = none)
    (shockCounter : ℤ) : (shard.handleSignal contextJson true shockCounter).1.Sound sent := by
  have hall : ∀ tokenKey key, ∀ shockId ∈ shard.pendingShocks tokenKey key, sent shockId := by
    intro tokenKey key shockId hmem
    rcases h.remembered tokenKey key shockId hmem with hdone | hevent
    · exact hdone
    · rw [hsent] at hevent
      cases hevent
  unfold ShardShocks.handleSignal
  split
  · exact h
  · rename_i bar pairId pending rest htodo
    constructor
    · intro tokenKey key shockId hmem
      rcases remember_cases hmem with hnew | hold
      · cases hnew
        exact .inr rfl
      · exact .inl (hall tokenKey key shockId hold)
    · intro shockId hupdate
      cases hupdate
  · rename_i bar pairId finalized rest htodo
    constructor
    · intro tokenKey key shockId hmem
      rcases remember_cases hmem with hnone | hold
      · cases hnone
      · exact .inl (hall tokenKey key shockId hold)
    · intro shockId hupdate
      dsimp only at hupdate
      rw [if_pos rfl] at hupdate
      -- the update carries the id under which the shock was remembered
      cases hfound : shard.pendingShocks bar.tokenKey
          (pairId, finalized.shockType, finalized.triggerTsMs) with
      | none =>
        rw [hfound] at hupdate
        cases hupdate
      | some remembered =>
        rw [hfound] at hupdate
        cases hupdate
        exact hall _ _ _ hfound

/-- Without alpha capture nothing is sent. -/
theorem outgoing_handleSignal_of_off (hsent : shard.outgoing = none) (shockCounter : ℤ) :
    (shard.handleSignal contextJson false shockCounter).1.outgoing = none := by
  unfold ShardShocks.handleSignal
  split
  · exact hsent
  · rfl
  · rfl

end ShardShocks

end AlphaMonitor.Shock
