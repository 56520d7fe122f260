import InfSplitter.Routing.Routes

/-!
# A route on its own

What a route is answered should not depend on the requests of others. So next to a run of the
handlers there is another one in which only the requests of that route are made, in the same order,
with the same answers of the upstream, and finding the same batches. Its store is the part of the
first one's that the route owns (`Separate`), as long as every step of the first keeps the routes
apart, and so what the next request looks for, an interaction or a batch, is the same in both
(`routes_apart`).
-/

set_option autoImplicit false

namespace InfSplitter.Routing

open Lib Session SplitSend

/-- The request of a label. -/
def Label.request? : Label → Option (Route × Event)
  | .request route event => some (route, event)
  | _ => none

/-- The requests of a run, newest first. -/
def requestsOf (moments : List (RoutedWorld × Label)) : List (Route × Event) :=
  moments.filterMap fun m => m.2.request?

/-- The batches in flight in `part` are those of `store` with an id in `own`. -/
structure RestrictsBatches (own : String → Prop) (store part : StoreV2) : Prop where
  kept : ∀ k, own k → part.inFlight.lookup k = store.inFlight.lookup k
  gone : ∀ k, ¬ own k → part.inFlight.lookup k = none

/-- `v` is what `w` would be without the other routes. -/
structure Separate (route : Route) (w v : RoutedWorld) : Prop extends
    Restricts (w.Own route) w.store.interactions v.store.interactions where
  pending : v.pending = w.pending.filter fun y => y.1 = route
  issued : ∀ id ∈ v.issued, id ∈ w.issued
  created : v.created = w.created.filter fun c => c.1 = route
  batches : RestrictsBatches (fun k => (route, k) ∈ w.created) w.store v.store

/-! ## Batches of a part -/

namespace RestrictsBatches

variable {own own' : String → Prop} {store part store' part' : StoreV2} {id : String}

/-- A change of one batch of the part, or a new one, that is the same in both. -/
theorem changed (h : RestrictsBatches own store part) (hown : ∀ k, own' k ↔ k = id ∨ own k)
    (hstore : ∀ k, k ≠ id → store'.inFlight.lookup k = store.inFlight.lookup k)
    (hpart : ∀ k, k ≠ id → part'.inFlight.lookup k = part.inFlight.lookup k)
    (hid : part'.inFlight.lookup id = store'.inFlight.lookup id) :
    RestrictsBatches own' store' part' where
  kept k hk := by
    by_cases heq : k = id
    · exact heq ▸ hid
    · rw [hstore k heq, hpart k heq]
      exact h.kept k (((hown k).mp hk).resolve_left heq)
  gone k hk := by
    obtain ⟨hne, hk⟩ := not_or.mp fun hor => hk ((hown k).mpr hor)
    rw [hpart k hne]
    exact h.gone k hk

/-- A change of a batch outside the part. -/
theorem changed_other (h : RestrictsBatches own store part) (hother : ¬ own id)
    (hstore : ∀ k, k ≠ id → store'.inFlight.lookup k = store.inFlight.lookup k) :
    RestrictsBatches own store' part where
  kept k hk := by
    have hne : k ≠ id := by
      rintro rfl
      exact hother hk
    rw [hstore k hne]
    exact h.kept k hk
  gone := h.gone

/-- Where all batches of a key are in the part, a search for the key finds the same. -/
theorem findsBatch_iff (h : RestrictsBatches own store part) {key : BatchKey}
    (hown : ∀ k b, store.inFlight.lookup k = some b → b.key = key → own k)
    {found : Option InFlightBatch} : FindsBatch store key found ↔ FindsBatch part key found := by
  have hsame : ∀ b : InFlightBatch, b.key = key → ∀ k,
      store.inFlight.lookup k = some b ↔ part.inFlight.lookup k = some b := by
    intro b hkey k
    by_cases hk : own k
    · rw [h.kept k hk]
    · rw [h.gone k hk]
      exact iff_of_false (fun hb => hk (hown k b hb hkey)) (by simp)
  cases found with
  | none =>
    rw [findsBatch_none_iff, findsBatch_none_iff]
    constructor
    · exact fun hnone k b hb hkey => hnone k b ((hsame b hkey k).mpr hb) hkey
    · exact fun hnone k b hb hkey => hnone k b ((hsame b hkey k).mp hb) hkey
  | some b =>
    rw [findsBatch_some_iff, findsBatch_some_iff]
    refine and_congr_right fun hkey => ?_
    exact exists_congr (hsame b hkey)

/-- Where nothing is found, nothing is found in the part. -/
theorem misses (h : RestrictsBatches own store part) {key : BatchKey}
    (miss : FindsBatch store key none) : FindsBatch part key none := by
  rw [findsBatch_none_iff] at miss ⊢
  intro k b hb
  by_cases hk : own k
  · exact miss k b ((h.kept k hk).symm.trans hb)
  · exact absurd ((h.gone k hk).symm.trans hb) (by simp)

theorem congr (h : RestrictsBatches own store part) (hstore : store'.inFlight = store.inFlight)
    (hpart : part'.inFlight = part.inFlight) : RestrictsBatches own store' part' where
  kept k hk := by
    rw [hstore, hpart]
    exact h.kept k hk
  gone k hk := by
    rw [hpart]
    exact h.gone k hk

theorem batchIsComplete_eq (h : RestrictsBatches own store part) (hid : own id) :
    part.batchIsComplete id = store.batchIsComplete id := by
  unfold StoreV2.batchIsComplete
  rw [h.kept id hid]

end RestrictsBatches

/-! ## What the inserts do to the lookups -/

section
variable {w : RoutedWorld} {route : Route} {x : Exchange} {store' : StoreV2} {ids : List String}
  {batch : Option String} {node : ClientInteractionNode}

theorem Inserts.lookup (ins : Inserts w route x store' ids batch node) (k : String) :
    store'.interactions.clients.lookup k =
      if k = node.id then some node else w.store.interactions.clients.lookup k := by
  rw [ins.same.clients, InteractionStore.insertClient_lookup]

theorem Inserts.link (ins : Inserts w route x store' ids batch node) (k : String) :
    store'.interactions.prevToClient.lookup k =
      if node.prevId = some k then some node.id
      else w.store.interactions.prevToClient.lookup k := by
  rw [ins.same.prevToClient, InteractionStore.insertClient_prevToClient_lookup]

/-- The interactions after an extension: at most one node is stamped. -/
theorem extendLifetime_interactions_eq (store : StoreV2) (now : UInt64) (sessionId : String)
    (expiresAtUtc : UInt64) :
    (store.extendLifetime now sessionId expiresAtUtc).interactions =
      (((store.sessions.lookup sessionId).bind SessionInfo.lastInteractionId).map fun id =>
        StoreV2.touchClient store.interactions id now).getD store.interactions := by
  unfold StoreV2.extendLifetime
  cases store.sessions.lookup sessionId with
  | none => rfl
  | some session =>
    cases h : session.lastInteractionId <;> simp [h]

/-- Whether a batch completes, and as what, is a matter of the batch. -/
theorem completeBatch_result {store other store' : StoreV2} {now : UInt64} {batchId : String}
    {node : ClientInteractionNode}
    (hsame : other.inFlight.lookup batchId = store.inFlight.lookup batchId)
    (h : store.completeBatch now batchId = (store', .ok node)) :
    ∃ other', other.completeBatch now batchId = (other', .ok node) := by
  obtain ⟨_, own, all, rfl, _⟩ := completeBatch_ok_cases (congrArg Prod.snd h)
  exact ⟨_, completeBatch_all (hsame.trans own) all⟩

theorem completeBatch_fails {store other store' : StoreV2} {now : UInt64} {batchId : String}
    {error : BatchError} (hsame : other.inFlight.lookup batchId = store.inFlight.lookup batchId)
    (h : store.completeBatch now batchId = (store', .error error)) :
    ∃ other' error', other.completeBatch now batchId = (other', .error error') := by
  cases completing store now batchId with
  | missing own _ => exact ⟨_, _, completeBatch_missing (hsame.trans own)⟩
  | partly own unacked _ =>
    obtain ⟨error', result⟩ := @completeBatch_partly other now batchId _ (hsame.trans own) unacked
    exact ⟨_, error', result⟩
  | whole _ _ result => exact absurd (congrArg Prod.snd (h.symm.trans result)) (by simp)

end

/-! ## Steps of other routes -/

namespace Separate

variable {route : Route} {w v : RoutedWorld}

/-- The part a route owns, and what it has on its own. -/
theorem partOf (h : Separate route w v) (owned : Owned w) (sound : RoutedSound v) :
    PartOf (w.Own route) w.store.interactions v.store.interactions where
  toRestricts := h.toRestricts
  toClosed := owned.closed route
  partWellFormed := sound.wellFormed

theorem init (route : Route) : Separate route RoutedWorld.init RoutedWorld.init where
  kept _ _ := rfl
  gone _ _ := rfl
  links _ _ := rfl
  pending := rfl
  issued _ hid := hid
  created := rfl
  batches := ⟨fun _ _ => rfl, fun _ _ => rfl⟩

theorem pending_erase_other {route' : Route} (hne : route' ≠ route) (h : Separate route w v)
    (x : Exchange) : v.pending = (w.pending.erase (route', x)).filter fun y => y.1 = route := by
  rw [h.pending, ← List.erase_filter, List.erase_of_not_mem]
  intro hmem
  exact hne (of_decide_eq_true (List.mem_filter.mp hmem).2)

/-- A batch that another route has started is not the route's. -/
theorem not_created {route' : Route} (hne : route' ≠ route) (owned : Owned w) {k : String}
    (hk : (route', k) ∈ w.created) : (route, k) ∉ w.created :=
  fun hk' => hne (owned.createdOnce route' route k hk hk')

theorem recorded_other {route' : Route} (hne : route' ≠ route) (h : Separate route w v)
    (owned : Owned w) {x : Exchange} {store' : StoreV2} {ids : List String}
    {batch : Option String} {node : ClientInteractionNode}
    (ins : Inserts w route' x store' ids batch node)
    (hfrom : ∀ p, node.prevId = some p → w.Own route' p) :
    Separate route (w.recorded route' x store' ids) v := by
  have hown : ∀ k, (w.recorded route' x store' ids).Own route k → k ∉ ids ∧ w.Own route k := by
    intro k hk
    have hold : k ∉ ids := by
      intro hmem
      rw [RoutedWorld.Own, RoutedWorld.recorded_origin_new hmem] at hk
      exact hne (Option.some.inj hk)
    rw [RoutedWorld.Own, RoutedWorld.recorded_origin_old hold] at hk
    exact ⟨hold, hk⟩
  refine ⟨⟨?_, ?_, ?_⟩, h.pending_erase_other hne x, fun id hid => ?_, h.created,
    fun k hk => ?_, h.batches.gone⟩
  · intro k hk
    obtain ⟨hold, hk⟩ := hown k hk
    have hnode : k ≠ node.id := fun heq => hold (heq ▸ ins.idMem)
    show v.store.interactions.clients.lookup k = store'.interactions.clients.lookup k
    rw [ins.lookup, if_neg hnode]
    exact h.kept k hk
  · intro k hk
    refine h.gone k fun hk' => hk ?_
    exact owned.own_recorded ins.fresh hk'
  · intro k hk
    obtain ⟨_, hk⟩ := hown k hk
    have hprev : node.prevId ≠ some k := by
      intro hp
      have hother := hfrom k hp
      rw [RoutedWorld.Own, hk] at hother
      exact hne (Option.some.inj hother).symm
    show v.store.interactions.prevToClient.lookup k = store'.interactions.prevToClient.lookup k
    rw [ins.link, if_neg hprev]
    exact h.links k hk
  · exact List.mem_append_left _ (h.issued id hid)
  · have hnot : k ∉ batch := fun hmem => not_created hne owned (ins.own k hmem) hk
    show v.store.inFlight.lookup k = store'.inFlight.lookup k
    rw [ins.inFlight, if_neg hnot]
    exact h.batches.kept k hk

/-! ## Steps of the route itself -/

theorem recorded_own (h : Separate route w v) (owned : Owned w) (sound : RoutedSound v)
    {x : Exchange} {store' other' : StoreV2} {ids : List String} {batch : Option String}
    {node : ClientInteractionNode} (ins : Inserts w route x store' ids batch node)
    (ins' : Inserts v route x other' ids batch node) :
    Separate route (w.recorded route x store' ids) (v.recorded route x other' ids) := by
  -- an id that was not issued is in neither store
  have hfresh : ∀ k ∈ ids, w.store.interactions.clients.lookup k = none ∧
      w.store.interactions.prevToClient.lookup k = none ∧
      v.store.interactions.prevToClient.lookup k = none := by
    intro k hk
    refine ⟨?_, ?_, ?_⟩
    · by_contra hsome
      obtain ⟨c, hc⟩ := Option.ne_none_iff_exists'.mp hsome
      have hissued := owned.chained.idIssued (owned.chained.stored hc)
      rw [owned.chained.keyed hc] at hissued
      exact ins.fresh k hk hissued
    · by_contra hsome
      obtain ⟨d, hd⟩ := Option.ne_none_iff_exists'.mp hsome
      exact ins.fresh k hk (owned.linkIssued k d hd)
    · by_contra hsome
      obtain ⟨d, hd⟩ := Option.ne_none_iff_exists'.mp hsome
      exact ins'.fresh k hk (sound.linkIssued k d hd)
  have hold : ∀ k, k ∉ ids → ((w.recorded route x store' ids).Own route k ↔ w.Own route k) := by
    intro k hk
    rw [RoutedWorld.Own, RoutedWorld.recorded_origin_old hk]
    rfl
  refine ⟨⟨?_, ?_, ?_⟩, ?_, ?_, h.created, fun k hk => ?_, fun k hk => ?_⟩
  · intro k hk
    show other'.interactions.clients.lookup k = store'.interactions.clients.lookup k
    rw [ins.lookup, ins'.lookup]
    by_cases hnode : k = node.id
    · rw [if_pos hnode, if_pos hnode]
    · rw [if_neg hnode, if_neg hnode]
      by_cases hmem : k ∈ ids
      · rw [(hfresh k hmem).1]
        exact h.gone k fun hk' => ins.fresh k hmem (owned.originIssued k route hk')
      · exact h.kept k ((hold k hmem).mp hk)
  · intro k hk
    have hmem : k ∉ ids := fun hmem => hk (RoutedWorld.recorded_origin_new hmem)
    have hnode : k ≠ node.id := fun heq => hmem (heq ▸ ins.idMem)
    show other'.interactions.clients.lookup k = none
    rw [ins'.lookup, if_neg hnode]
    exact h.gone k fun hk' => hk ((hold k hmem).mpr hk')
  · intro k hk
    show other'.interactions.prevToClient.lookup k = store'.interactions.prevToClient.lookup k
    rw [ins.link, ins'.link]
    by_cases hprev : node.prevId = some k
    · rw [if_pos hprev, if_pos hprev]
    · rw [if_neg hprev, if_neg hprev]
      by_cases hmem : k ∈ ids
      · rw [(hfresh k hmem).2.1, (hfresh k hmem).2.2]
      · exact h.links k ((hold k hmem).mp hk)
  · show v.pending.erase (route, x) = (w.pending.erase (route, x)).filter fun y => y.1 = route
    rw [h.pending, List.erase_filter]
  · intro id hid
    rcases List.mem_append.mp hid with hid | hid
    · exact List.mem_append_left _ (h.issued id hid)
    · exact List.mem_append_right _ hid
  · show other'.inFlight.lookup k = store'.inFlight.lookup k
    rw [ins.inFlight, ins'.inFlight, h.batches.kept k hk]
  · show other'.inFlight.lookup k = none
    rw [ins'.inFlight, h.batches.gone k hk, ite_self]

theorem mem_pending (h : Separate route w v) {x : Exchange} (hx : (route, x) ∈ w.pending) :
    (route, x) ∈ v.pending := by
  rw [h.pending]
  exact List.mem_filter.mpr ⟨hx, decide_eq_true rfl⟩

theorem mem_created (h : Separate route w v) {k : String} (hk : (route, k) ∈ w.created) :
    (route, k) ∈ v.created := by
  rw [h.created]
  exact List.mem_filter.mpr ⟨hk, decide_eq_true rfl⟩

/-- A change of both stores that leaves the rest of the worlds alone. -/
theorem withStores (h : Separate route w v) (store' other' : StoreV2)
    (hrestricts : Restricts (w.Own route) store'.interactions other'.interactions)
    (hbatches : RestrictsBatches (fun k => (route, k) ∈ w.created) store' other') :
    Separate route { w with store := store' } { v with store := other' } where
  toRestricts := hrestricts
  pending := h.pending
  issued := h.issued
  created := h.created
  batches := hbatches

/-- The same client nodes, in both stores or in one of them. -/
theorem restricts_congr (h : Separate route w v) {store' other' : StoreV2}
    (same : SameChains w.store.interactions store'.interactions)
    (same' : SameChains v.store.interactions other'.interactions) :
    Restricts (w.Own route) store'.interactions other'.interactions where
  kept k hk := by
    rw [same.clients, same'.clients]
    exact h.kept k hk
  gone k hk := by
    rw [same'.clients]
    exact h.gone k hk
  links k hk := by
    rw [same.prevToClient, same'.prevToClient]
    exact h.links k hk

/-! ## Batches -/

theorem begun_other {route' : Route} (hne : route' ≠ route) (h : Separate route w v)
    (x : Exchange) {sessionId : String} {second : UInt64} (now : UInt64) (count : Nat)
    (hapart : ∀ r, (r, batchIdOf sessionId second) ∈ w.created → r = route') :
    Separate route (w.begun route' x sessionId second now count) v := by
  obtain ⟨_, _, hlookup⟩ := lookup_createKeyed w.store now (batchIdOf sessionId second)
    (batchKey x sessionId) count
  have hmem : ∀ k, (route, k) ∈ (w.begun route' x sessionId second now count).created ↔
      (route, k) ∈ w.created := by
    intro k
    refine List.mem_cons.trans (or_iff_right ?_)
    exact fun heq => hne (congrArg Prod.fst heq).symm
  have hbatches := h.batches.changed_other 
    (fun hown => hne (hapart route hown).symm) fun k hk => (hlookup k).trans (if_neg hk)
  refine ⟨h.toRestricts, h.pending, h.issued, ?_, fun k hk => ?_, fun k hk => ?_⟩
  · show v.created = ((route', batchIdOf sessionId second) :: w.created).filter _
    rw [List.filter_cons_of_neg (by simpa using hne), h.created]
  · exact hbatches.kept k ((hmem k).mp hk)
  · exact hbatches.gone k fun hk' => hk ((hmem k).mpr hk')

theorem begun_own (h : Separate route w v) (x : Exchange) (sessionId : String)
    (second now : UInt64) (count : Nat) :
    Separate route (w.begun route x sessionId second now count)
      (v.begun route x sessionId second now count) := by
  have hlookup : ∀ s : StoreV2, ∀ k, k ≠ batchIdOf sessionId second →
      (createKeyed s now (batchIdOf sessionId second) (batchKey x sessionId) count).inFlight.lookup
        k = s.inFlight.lookup k := fun s k hk => AList.lookup_insert_ne hk
  refine ⟨h.toRestricts, h.pending, h.issued, ?_, ?_⟩
  · show _ :: v.created = ((route, batchIdOf sessionId second) :: w.created).filter _
    rw [List.filter_cons_of_pos (by simp), h.created]
  · refine h.batches.changed  (fun k => ?_) (hlookup w.store)
      (hlookup v.store) ?_
    · simp [RoutedWorld.begun]
    · exact (AList.lookup_insert v.store.inFlight).trans (AList.lookup_insert w.store.inFlight).symm

/-- The same stamp in both worlds. -/
theorem touch_own (h : Separate route w v) (id : String) (now : UInt64) :
    Restricts (w.Own route) (StoreV2.touchClient w.store.interactions id now)
      (StoreV2.touchClient v.store.interactions id now) := by
  refine ⟨?_, ?_, ?_⟩
  · intro k hk
    rw [touchClient_clients, touchClient_clients, h.kept k hk]
  · intro k hk
    rw [touchClient_clients, h.gone k hk]
    rfl
  · intro k hk
    rw [touchClient_prevToClient, touchClient_prevToClient, h.links k hk]

/-- A stamp on a node of another route. -/
theorem touch_other {route' : Route} (hne : route' ≠ route) (h : Separate route w v) {id : String}
    (now : UInt64)
    (hown : ∀ c, w.store.interactions.clients.lookup id = some c → w.Own route' id) :
    Restricts (w.Own route) (StoreV2.touchClient w.store.interactions id now)
      v.store.interactions := by
  refine ⟨?_, h.gone, ?_⟩
  · intro k hk
    rw [touchClient_clients, h.kept k hk]
    cases hc : w.store.interactions.clients.lookup k with
    | none => rfl
    | some c =>
      have heq : k ≠ id := by
        rintro rfl
        have hother := hown c hc
        rw [RoutedWorld.Own, hk] at hother
        exact absurd (Option.some.inj hother).symm hne
      simp [heq]
  · intro k hk
    rw [touchClient_prevToClient, h.links k hk]

/-! ## Following a run -/

/-- A step that is a request of another route, or of none, leaves the route's part as it is. -/
theorem skip (h : Separate route w v) (owned : Owned w) {label : Label} {w' : RoutedWorld}
    (hother : ∀ event, label ≠ .request route event) (hstart : label ≠ .restart)
    (hapart : KeepsApart w label) (hstep : RoutedStep w label w') : Separate route w' v := by
  have hne : ∀ {route' : Route} {event : Event},
      label = .request route' event → route' ≠ route := by
    intro route' event hlabel heq
    exact hother event (heq ▸ hlabel)
  cases hstep with
  | answered => exact h
  | @lookup route' request frontier found proceeds =>
    refine ⟨h.toRestricts, ?_, h.issued, h.created, h.batches⟩
    rw [List.filter_cons_of_neg (by simpa using hne rfl)]
    exact h.pending
  | findBatch => exact h
  | await => exact h
  | @startContent _ x sessionId second now count _ _ =>
    exact h.begun_other (hne rfl) x now count hapart
  | @startSystem _ x sessionId second now count _ =>
    exact h.begun_other (hne rfl) x now count hapart
  | @update _ batchId update now now' own =>
    have acts := ActsOn.apply update now now' batchId
    exact h.withStores _ v.store
      (h.restricts_congr (acts.chains w.store) (SameChains.refl _))
      (h.batches.changed_other (not_created (hne rfl) owned own) fun k hk => acts.writes w.store hk)
  | commit now sessionId mem fresh =>
    exact h.recorded_other (hne rfl) owned (owned.inserts_commit now sessionId mem fresh)
      (owned.pendingOwn _ mem)
  | commitSplit mem own completed sent fresh =>
    obtain ⟨batch, hb, _, hnode, _⟩ := completeBatch_ok_cases (congrArg Prod.snd completed)
    refine h.recorded_other (hne rfl) owned
      (owned.inserts_commitSplit mem own hb completed sent fresh) fun p hp => ?_
    exact owned.batchOwn _ _ batch own hb p (by rwa [hnode] at hp)
  | failSplit own failed =>
    exact h.withStores _ v.store
      (h.restricts_congr (completeBatch_error failed) (SameChains.refl _))
      (h.batches.changed_other (not_created (hne rfl) owned own) fun k hk =>
        (lookup_completeBatch failed k).trans (if_neg hk))
  | drop =>
    exact ⟨h.toRestricts, h.pending_erase_other (hne rfl) _, h.issued, h.created, h.batches⟩
  | @extendLifetime route' now sessionId expiresAtUtc =>
    refine h.withStores _ v.store ?_
      (h.batches.congr (extendLifetime_inFlight w.store now sessionId expiresAtUtc) rfl)
    rw [extendLifetime_interactions_eq]
    cases hid : (w.store.sessions.lookup sessionId).bind SessionInfo.lastInteractionId with
    | none => exact h.toRestricts
    | some id =>
      obtain ⟨session, hsession, hlast⟩ := Option.bind_eq_some_iff.mp hid
      exact h.touch_other (hne rfl) now fun c hc => hapart session id c hsession hlast hc
  | @cleanAll route' =>
    obtain ⟨hnodes, hbatches⟩ := hapart
    refine h.withStores _ v.store ⟨fun k hk => ?_, h.gone, h.links⟩ ⟨fun k hk => ?_, h.batches.gone⟩
    · have hnone : w.store.interactions.clients.lookup k = none := by
        by_contra hsome
        obtain ⟨c, hc⟩ := Option.ne_none_iff_exists'.mp hsome
        have hown := hnodes k c hc
        rw [RoutedWorld.Own, hk] at hown
        exact hne rfl (Option.some.inj hown).symm
      rw [h.kept k hk, hnone]
      rfl
    · have hnone : w.store.inFlight.lookup k = none := by
        by_contra hsome
        obtain ⟨batch, hb⟩ := Option.ne_none_iff_exists'.mp hsome
        exact not_created (hne rfl) owned (hbatches k batch hb) hk
      rw [h.batches.kept k hk, hnone]
      rfl
  | restart => exact absurd rfl hstart
  | other clients hashIndex prevToClient inFlight =>
    exact h.withStores _ v.store
      (h.restricts_congr ⟨clients, hashIndex, prevToClient⟩ (SameChains.refl _))
      (h.batches.congr inFlight rfl)

/-- A step of the route is taken by the route on its own as well. -/
theorem follow (h : Separate route w v) (owned : Owned w) {event : Event} {w' : RoutedWorld}
    (hapart : KeepsApart w (.request route event))
    (hstep : RoutedStep w (.request route event) w') {moments : List (RoutedWorld × Label)}
    (run : routed.Run moments v) :
    ∃ moments' v', routed.Run moments' v' ∧ Separate route w' v' ∧
      requestsOf moments' = (route, event) :: requestsOf moments := by
  have sound := RoutedSound.of_run run
  have part := h.partOf owned sound
  cases hstep with
  | @answered _ request frontier found finished =>
    rw [← part.findFrontier_eq hapart none] at found
    exact ⟨_, _, run.step (RoutedStep.answered found finished), h, rfl⟩
  | @lookup _ request frontier found proceeds =>
    rw [← part.findFrontier_eq hapart none] at found
    refine ⟨_, _, run.step (RoutedStep.lookup found proceeds),
      ⟨h.toRestricts, ?_, h.issued, h.created, h.batches⟩, rfl⟩
    rw [List.filter_cons_of_pos (by simp), h.pending]
  | findBatch finds =>
    have finds' := (h.batches.findsBatch_iff hapart).mp finds
    exact ⟨_, _, run.step (RoutedStep.findBatch finds'), h, rfl⟩
  | @await _ request prev frontier batchId complete found done =>
    rw [← part.findFrontier_eq hapart.1 prev] at found
    rw [← h.batches.batchIsComplete_eq hapart.2] at done
    exact ⟨_, _, run.step (RoutedStep.await found done), h, rfl⟩
  | @startContent _ x sessionId second now count mem miss =>
    exact ⟨_, _, run.step (RoutedStep.startContent sessionId second now count (h.mem_pending mem)
      (h.batches.misses miss)), h.begun_own x sessionId second now count, rfl⟩
  | @startSystem _ x sessionId second now count mem =>
    exact ⟨_, _, run.step (RoutedStep.startSystem sessionId second now count (h.mem_pending mem)),
      h.begun_own x sessionId second now count, rfl⟩
  | @update _ batchId update now now' own =>
    have acts := ActsOn.apply update now now' batchId
    refine ⟨_, _, run.step (RoutedStep.update update now now' (h.mem_created own)),
      h.withStores _ _ (h.restricts_congr (acts.chains w.store) (acts.chains v.store)) ?_, rfl⟩
    refine h.batches.changed (fun k => (or_iff_right_of_imp ?_).symm)
      (fun k hk => acts.writes w.store hk) (fun k hk => acts.writes v.store hk)
      (acts.reads (h.batches.kept batchId own))
    rintro rfl
    exact own
  | commit now sessionId mem fresh =>
    have mem' := h.mem_pending mem
    have fresh' := fun hid => fresh (h.issued _ hid)
    exact ⟨_, _, run.step (RoutedStep.commit now sessionId mem' fresh'),
      h.recorded_own owned sound (owned.inserts_commit now sessionId mem fresh)
        (sound.inserts_commit now sessionId mem' fresh'), rfl⟩
  | @commitSplit _ x batchId now store' node mem own completed sent fresh =>
    have mem' := h.mem_pending mem
    have own' := h.mem_created own
    have fresh' := fun id hid => fun hissued => fresh id hid (h.issued id hissued)
    obtain ⟨batch, hb, _⟩ := completeBatch_ok_cases (congrArg Prod.snd completed)
    have hsame := h.batches.kept batchId own
    obtain ⟨other', completed'⟩ := completeBatch_result hsame completed
    exact ⟨_, _, run.step (RoutedStep.commitSplit mem' own' completed' sent fresh'),
      h.recorded_own owned sound (owned.inserts_commitSplit mem own hb completed sent fresh)
        (sound.inserts_commitSplit mem' own' (hsame.trans hb) completed' sent fresh'), rfl⟩
  | @failSplit _ batchId now store' error own failed =>
    obtain ⟨other', error', failed'⟩ := completeBatch_fails (h.batches.kept batchId own) failed
    refine ⟨_, _, run.step (RoutedStep.failSplit (h.mem_created own) failed'), h.withStores _ _
      (h.restricts_congr (completeBatch_error failed) (completeBatch_error failed')) ?_, rfl⟩
    refine h.batches.changed (fun k => (or_iff_right_of_imp ?_).symm)
      (fun k hk => (lookup_completeBatch failed k).trans (if_neg hk))
      (fun k hk => (lookup_completeBatch failed' k).trans (if_neg hk)) ?_
    · rintro rfl
      exact own
    · rw [lookup_completeBatch failed, lookup_completeBatch failed', if_pos rfl, if_pos rfl]
  | drop =>
    refine ⟨_, _, run.step RoutedStep.drop, ⟨h.toRestricts, ?_, h.issued, h.created, h.batches⟩,
      rfl⟩
    rw [h.pending, List.erase_filter]
  | extendLifetime now sessionId expiresAtUtc =>
    -- the session is there after a change outside what is compared
    let other : StoreV2 := { v.store with sessions := w.store.sessions }
    have changed : RoutedStep v .other { v with store := other } :=
      RoutedStep.other rfl rfl rfl rfl
    have h' : Separate route w { v with store := other } :=
      h.withStores w.store other h.toRestricts (h.batches.congr rfl rfl)
    refine ⟨_, _, (run.step changed).step
      (RoutedStep.extendLifetime now sessionId expiresAtUtc), h'.withStores _ _ ?_
        (h'.batches.congr (extendLifetime_inFlight ..) (extendLifetime_inFlight ..)), rfl⟩
    rw [extendLifetime_interactions_eq, extendLifetime_interactions_eq]
    cases hid : (w.store.sessions.lookup sessionId).bind SessionInfo.lastInteractionId with
    | none => exact h.toRestricts
    | some id => exact h.touch_own id now
  | cleanAll =>
    exact ⟨_, _, run.step RoutedStep.cleanAll,
      h.withStores _ _ ⟨fun _ _ => rfl, fun _ _ => rfl, h.links⟩ ⟨fun _ _ => rfl, fun _ _ => rfl⟩,
      rfl⟩

/-- What a step shows of a route: its event, if the step is the route's. -/
def seenOf (route : Route) (label : Label) : Option (Route × Event) :=
  label.request?.filter fun request => request.1 = route

/-- The program is started again in both worlds. -/
theorem restarted (h : Separate route w v) :
    Separate route { w with store := w.store.discardAllInflight.1, pending := [] }
      { v with store := v.store.discardAllInflight.1, pending := [] } where
  toRestricts := h.toRestricts
  pending := rfl
  issued := h.issued
  created := h.created
  batches := ⟨fun _ _ => rfl, fun _ _ => rfl⟩

theorem followAny (h : Separate route w v) (owned : Owned w) {label : Label} {w' : RoutedWorld}
    (hapart : KeepsApart w label) (hstep : RoutedStep w label w')
    {moments : List (RoutedWorld × Label)} (run : routed.Run moments v) :
    ∃ moments' v', routed.Run moments' v' ∧ Separate route w' v' ∧
      requestsOf moments' = (seenOf route label).toList ++ requestsOf moments := by
  by_cases hlabel : ∃ event, label = .request route event
  · obtain ⟨event, rfl⟩ := hlabel
    have hseen : seenOf route (.request route event) = some (route, event) := by
      simp [seenOf, Label.request?]
    rw [hseen]
    exact h.follow owned hapart hstep run
  · have hother : ∀ event, label ≠ .request route event := fun event heq => hlabel ⟨event, heq⟩
    have hseen : seenOf route label = none := by
      cases label with
      | restart => rfl
      | other => rfl
      | request route' event =>
        have hne : route' ≠ route := fun heq => hother event (heq ▸ rfl)
        simp [seenOf, Label.request?, hne]
    rw [hseen]
    by_cases hstart : label = .restart
    · subst hstart
      cases hstep
      exact ⟨_, _, run.step RoutedStep.restart, h.restarted, rfl⟩
    · exact ⟨moments, v, run, h.skip owned hother hstart hapart hstep, rfl⟩

/-- **Next to every run that keeps the routes apart** there is one of each route on its own. -/
theorem of_run (route : Route) {moments : List (RoutedWorld × Label)} {w : RoutedWorld}
    (run : routed.Run moments w) (hapart : ∀ m ∈ moments, KeepsApart m.1 m.2) :
    ∃ moments' v, routed.Run moments' v ∧ Separate route w v ∧
      requestsOf moments' = (requestsOf moments).filter fun request => request.1 = route := by
  obtain ⟨moments', v, run', ⟨_, h⟩, hseen⟩ := run.follow (T := routed) (seenOf route)
    Label.request? (R := fun w v => Owned w ∧ Separate route w v) KeepsApart
    ⟨Owned.init, Separate.init route⟩ (by
      intro w label w' v moments' ⟨owned, h⟩ hok hstep run'
      obtain ⟨moments'', v', run'', h', hrequests⟩ := h.followAny owned hok hstep run'
      exact ⟨moments'', v', run'', ⟨owned.step hok hstep, h'⟩, hrequests⟩) hapart
  refine ⟨moments', v, run', h, ?_⟩
  unfold requestsOf
  rw [List.filter_filterMap]
  exact hseen

end Separate

/-! ## Requests that keep to their route -/

/-- What a search comes to is the route's own: the interaction that is continued by a request
without a previous id, and the one it is answered with. -/
def RoutedWorld.AnswersOwn (w : RoutedWorld) (route : Route) (prev : Option String)
    (frontier : Frontier) : Prop :=
  (∀ id, frontier.matchedClientId = some id → w.Own route id) ∧
    (prev = none → ∀ id, frontier.previousInteractionId = some id → w.Own route id)

/-- **Sessions of different routes stay apart** in every run whose steps keep them apart. The next
request of a route, if it meets the condition too, is continued or answered with an interaction of
that route, and what it looks for is what it would find if the requests of all other routes had not
been made: the interaction, the batch it has to wait for, and whether that batch is complete. -/
theorem routes_apart {moments : List (RoutedWorld × Label)} {w : RoutedWorld}
    (run : routed.Run moments w) (hapart : ∀ m ∈ moments, KeepsApart m.1 m.2) (route : Route) :
    ∃ moments' v, routed.Run moments' v ∧
      requestsOf moments' = (requestsOf moments).filter (fun request => request.1 = route) ∧
      (∀ hashes prev sys, w.Unmixed route hashes →
        ∃ frontier, findFrontier w.store.interactions hashes prev sys = some frontier ∧
          w.AnswersOwn route prev frontier ∧
          findFrontier v.store.interactions hashes prev sys = some frontier ∧
          ∀ id, frontier.matchedClientId = some id →
            v.store.interactions.getClient id = w.store.interactions.getClient id) ∧
      (∀ key, w.OwnBatches route key → ∀ found,
        FindsBatch w.store key found ↔ FindsBatch v.store key found) ∧
      ∀ batchId, (route, batchId) ∈ w.created →
        v.store.batchIsComplete batchId = w.store.batchIsComplete batchId := by
  obtain ⟨moments', v, run', h, hrequests⟩ := Separate.of_run route run hapart
  have owned := Owned.of_run run hapart
  have part := h.partOf owned (RoutedSound.of_run run')
  refine ⟨moments', v, run', hrequests, ?_, ?_, ?_⟩
  · intro hashes prev sys hunmixed
    obtain ⟨frontier, found, _⟩ :=
      findFrontier_outcome owned.toRoutedSound.wellFormed hashes prev sys
    have own := (owned.closed route).frontier_own hunmixed found
    refine ⟨frontier, found, own, ?_, fun id hid => h.kept id (own.1 id hid)⟩
    rw [part.findFrontier_eq hunmixed prev]
    exact found
  · intro key hown found
    exact h.batches.findsBatch_iff hown
  · intro batchId hown
    exact h.batches.batchIsComplete_eq hown

/-! ## Two routes at once -/

def flash : Route := { sectionName := "google", model := "gemini-flash" }

def pro : Route := { sectionName := "vertex", model := "gemini-pro" }

/-- A request with one harness message on an empty store. -/
def question : Exchange :=
  { request := { hashes := [1], systemInstructionHash := none }
    frontier := { index := 0, previousInteractionId := none, allKnown := false,
                  matchedClientId := none } }

def otherQuestion : Exchange :=
  { question with request := { hashes := [2], systemInstructionHash := none } }

/-- The world in which `flash` has asked. -/
def RoutedWorld.asked : RoutedWorld :=
  { RoutedWorld.init with pending := [(flash, question)] }

def RoutedWorld.bothAsked : RoutedWorld :=
  { RoutedWorld.init with pending := [(pro, otherQuestion), (flash, question)] }

/-- `flash` is split, into one piece. -/
def RoutedWorld.splitting : RoutedWorld :=
  RoutedWorld.bothAsked.begun flash question "session" 0 0 1

/-- `pro` is answered, while the piece of `flash` is on its way. -/
def RoutedWorld.oneAnswered : RoutedWorld :=
  RoutedWorld.splitting.recorded pro otherQuestion
    (recordInteraction RoutedWorld.splitting.store 0 "session" "int-2" none [2] none) ["int-2"]

def apartMoments : List (RoutedWorld × Label) :=
  [(RoutedWorld.splitting, .request pro (.commit otherQuestion "int-2" 0 "session")),
    (RoutedWorld.splitting, .request pro (.findBatch otherQuestion "session" none)),
    (RoutedWorld.bothAsked, .request flash (.start question "session" 0 1)),
    (RoutedWorld.asked, .request pro (.lookup otherQuestion.request)),
    (RoutedWorld.init, .request flash (.lookup question.request))]

theorem step_asked : RoutedStep RoutedWorld.init (.request flash (.lookup question.request))
    RoutedWorld.asked :=
  RoutedStep.lookup (by decide : findFrontier _ question.request.hashes none none =
    some question.frontier) (by decide)

theorem run_apart : routed.Run apartMoments RoutedWorld.oneAnswered := by
  have both : RoutedStep RoutedWorld.asked (.request pro (.lookup otherQuestion.request))
      RoutedWorld.bothAsked :=
    RoutedStep.lookup (by decide : findFrontier _ otherQuestion.request.hashes none none =
      some otherQuestion.frontier) (by decide)
  have split : RoutedStep RoutedWorld.bothAsked
      (.request flash (.start question "session" 0 1)) RoutedWorld.splitting :=
    RoutedStep.startContent "session" 0 0 1 (by decide) ⟨[], List.Perm.nil, rfl⟩
  have searched : RoutedStep RoutedWorld.splitting
      (.request pro (.findBatch otherQuestion "session" none)) RoutedWorld.splitting :=
    RoutedStep.findBatch ⟨_, List.Perm.refl _, rfl⟩
  have answered : RoutedStep RoutedWorld.splitting
      (.request pro (.commit otherQuestion "int-2" 0 "session")) RoutedWorld.oneAnswered :=
    RoutedStep.commit 0 "session" (by decide) (by decide)
  have asked := System.Run.init.step (S := routed) step_asked
  exact (((asked.step both).step split).step searched).step answered

/-- An empty store holds no first hash. -/
theorem unmixed_of_empty {w : RoutedWorld} (h : w.store = StoreV2.new) (route : Route)
    (hashes : List UInt64) : w.Unmixed route hashes := by
  intro c hc
  rw [h] at hc
  exact absurd hc (by simp [StoreV2.new, InteractionStore.new, InteractionStore.Stored])

theorem apart_keepsApart : ∀ m ∈ apartMoments, KeepsApart m.1 m.2 := by
  have own : RoutedWorld.splitting.OwnBatches pro (batchKey otherQuestion "session") := by
    intro k batch hb hkey
    have hmem : batch ∈ RoutedWorld.splitting.store.inFlight.values :=
      StrMap.mem_values.mpr ⟨k, hb⟩
    rw [List.mem_singleton.mp hmem] at hkey
    exact absurd hkey (by decide)
  have start : KeepsApart RoutedWorld.bothAsked (.request flash (.start question "session" 0 1)) :=
    fun route' hr => absurd hr List.not_mem_nil
  simp only [apartMoments, List.forall_mem_cons]
  exact ⟨trivial, own, start, unmixed_of_empty rfl _ _, unmixed_of_empty rfl _ _,
    List.forall_mem_nil _⟩

/-- What `flash` looks for is not changed by what `pro` was answered. -/
theorem routes_apart_twoRoutes :
    ∃ moments' v, routed.Run moments' v ∧
      requestsOf moments' =
        (requestsOf apartMoments).filter (fun request => request.1 = flash) ∧
      (∀ hashes prev sys, RoutedWorld.oneAnswered.Unmixed flash hashes →
        ∃ frontier,
          findFrontier RoutedWorld.oneAnswered.store.interactions hashes prev sys =
              some frontier ∧
            RoutedWorld.oneAnswered.AnswersOwn flash prev frontier ∧
            findFrontier v.store.interactions hashes prev sys = some frontier ∧
            ∀ id, frontier.matchedClientId = some id →
              v.store.interactions.getClient id =
                RoutedWorld.oneAnswered.store.interactions.getClient id) ∧
      (∀ key, RoutedWorld.oneAnswered.OwnBatches flash key → ∀ found,
        FindsBatch RoutedWorld.oneAnswered.store key found ↔ FindsBatch v.store key found) ∧
      ∀ batchId, (flash, batchId) ∈ RoutedWorld.oneAnswered.created →
        v.store.batchIsComplete batchId =
          RoutedWorld.oneAnswered.store.batchIsComplete batchId :=
  routes_apart run_apart apart_keepsApart flash

/-! ## The same question on two routes -/

/-- The world in which `flash` is answered. -/
def RoutedWorld.answered : RoutedWorld :=
  RoutedWorld.asked.recorded flash question
    (recordInteraction StoreV2.new 0 "session" "int-1" none [1] none) ["int-1"]

def answeredMoments : List (RoutedWorld × Label) :=
  [(RoutedWorld.asked, .request flash (.commit question "int-1" 0 "session")),
    (RoutedWorld.init, .request flash (.lookup question.request))]

theorem run_answered : routed.Run answeredMoments RoutedWorld.answered :=
  (System.Run.init.step (S := routed) step_asked).step
    (RoutedStep.commit 0 "session" (by decide) (by decide))

/-- `pro` is answered with what `flash` was answered. -/
theorem routes_not_always_apart :
    ¬ ∀ moments w, routed.Run moments w → ∀ route hashes frontier,
      findFrontier w.store.interactions hashes none none = some frontier →
        w.AnswersOwn route none frontier := by
  intro hall
  have hown := hall answeredMoments RoutedWorld.answered run_answered pro [1]
    { index := 1, previousInteractionId := none, allKnown := true,
      matchedClientId := some "int-1" } (by decide)
  have horigin : RoutedWorld.answered.origin "int-1" = some pro := hown.1 "int-1" rfl
  exact absurd horigin (by decide)

end InfSplitter.Routing
