import InfSplitter.Session.Selection

/-!
# A part of a store

Some of the client nodes are taken, by their ids, and a second store has these and no others, with
the child links of the first. If no link leads out of the part, a search whose first hash is found
only inside it cannot tell the two stores apart (`PartOf.findFrontier_eq`).

The fuel of the two backward loops is the number of nodes, so it is not the same in both stores. On
well-formed stores it does not matter.
-/

set_option autoImplicit false

namespace InfSplitter.Session

open Lib

/-- The client nodes of `part` are those of `store` with an id in `own`. -/
structure Restricts (own : String → Prop) (store part : InteractionStore) : Prop where
  kept : ∀ k, own k → part.clients.lookup k = store.clients.lookup k
  gone : ∀ k, ¬ own k → part.clients.lookup k = none
  links : ∀ k, own k → part.prevToClient.lookup k = store.prevToClient.lookup k

/-- No link of a well-formed store leads out of the part. -/
structure Closed (own : String → Prop) (store : InteractionStore) : Prop extends
    store.WellFormed where
  prev : ∀ {c : ClientInteractionNode} {p : String}, store.Stored c → own c.id →
    c.prevId = some p → own p
  next : ∀ {c d : ClientInteractionNode}, store.Stored c → own c.id →
    nextNode store c = some d → own d.id

structure PartOf (own : String → Prop) (store part : InteractionStore) : Prop extends
    Restricts own store part, Closed own store where
  partWellFormed : part.WellFormed

/-- The first hash stands in nodes of the part only. -/
def FoundIn (own : String → Prop) (store : InteractionStore) (hashes : List UInt64) : Prop :=
  ∀ c, store.Stored c → ∀ h, hashes.head? = some h → h ∈ c.messageHashes → own c.id

variable {own : String → Prop} {store part : InteractionStore} {c : ClientInteractionNode}
  {hashes : List UInt64} {sys : Option UInt64}

/-! ## What a search in a closed part comes to -/

namespace Closed

theorem prevNode_inside (h : Closed own store) {d : ClientInteractionNode}
    (hc : store.Stored c ∧ own c.id) (hd : prevNode store c = some d) :
    store.Stored d ∧ own d.id := by
  obtain ⟨hst, hprev⟩ := h.toWellFormed.stored_prevNode hd
  exact ⟨hst, h.prev hc.1 hc.2 hprev⟩

theorem nextNode_inside (h : Closed own store) {d : ClientInteractionNode}
    (hc : store.Stored c ∧ own c.id) (hd : nextNode store c = some d) :
    store.Stored d ∧ own d.id :=
  ⟨h.toWellFormed.toIndexed.stored_nextNode hd, h.next hc.1 hc.2 hd⟩

theorem read_inside (h : Closed own store) (hashes : List UInt64) (i : Nat)
    (hc : store.Stored c ∧ own c.id) :
    store.Stored (read store hashes c i).2 ∧ own (read store hashes c i).2.id :=
  readOn_stop_inv _ _ (P := fun a => store.Stored a ∧ own a.id)
    (fun _ _ ha hb => h.nextNode_inside ha hb) hashes i hc

/-- A candidate of a search that finds its first hash in the part is in the part. -/
theorem candidate_own (hfound : FoundIn own store hashes) {i : Nat}
    (hc : Candidate store sys hashes c i) : own c.id := by
  obtain ⟨hst, hget, hne, _⟩ := hc
  cases hashes with
  | nil => exact absurd rfl hne
  | cons h0 hs => exact hfound c hst h0 rfl (List.mem_of_getElem? hget)

/-- The node a search prefers is in the part. -/
theorem longestReading_own (h : Closed own store) (hfound : FoundIn own store hashes) {n : Nat}
    {terminal : ClientInteractionNode} (hl : LongestReading store sys hashes n terminal) :
    own terminal.id := by
  obtain ⟨⟨c, i, hc, hr⟩, _⟩ := hl
  have hin := h.read_inside hashes i ⟨hc.1, candidate_own hfound hc⟩
  rw [hr] at hin
  exact hin.2

/-- Everything a search answers with is in the part. -/
theorem frontier_own (h : Closed own store) (hfound : FoundIn own store hashes)
    {prev : Option String} {frontier : Frontier}
    (found : findFrontier store hashes prev sys = some frontier) :
    (∀ id, frontier.matchedClientId = some id → own id) ∧
      (prev = none → ∀ id, frontier.previousInteractionId = some id → own id) := by
  have hprev : ∀ {n terminal}, LongestReading store sys hashes n terminal →
      ∀ id, terminal.prevId = some id → own id := fun hl id hid =>
    h.prev (hl.stored h.toWellFormed.toIndexed) (h.longestReading_own hfound hl) hid
  cases Outcome.of_findFrontier h.toWellFormed found with
  | empty _ =>
    exact ⟨fun id hid => absurd hid (by simp), fun hp id hid => absurd (hp ▸ hid) (by simp)⟩
  | fresh _ _ => exact ⟨fun id hid => absurd hid (by simp), fun _ id hid => absurd hid (by simp)⟩
  | replay hl _ =>
    refine ⟨fun id hid => ?_, fun _ => hprev hl⟩
    rw [← Option.some.inj hid]
    exact h.longestReading_own hfound hl
  | boundary hl _ _ =>
    refine ⟨fun id hid => absurd hid (by simp), fun _ id hid => ?_⟩
    rw [← Option.some.inj hid]
    exact h.longestReading_own hfound hl
  | fork hl _ _ => exact ⟨fun id hid => absurd hid (by simp), fun _ => hprev hl⟩

end Closed

namespace PartOf

theorem stored_iff (h : PartOf own store part) : part.Stored c ↔ store.Stored c ∧ own c.id := by
  unfold InteractionStore.Stored
  by_cases hc : own c.id
  · rw [h.kept c.id hc]
    exact (and_iff_left hc).symm
  · rw [h.gone c.id hc]
    exact iff_of_false (by simp) fun hh => hc hh.2

/-! ## Links inside the part -/

theorem prevNode_eq (h : PartOf own store part) (hc : store.Stored c ∧ own c.id) :
    prevNode part c = prevNode store c := by
  unfold prevNode
  cases hp : c.prevId with
  | none => rfl
  | some p => exact h.kept p (h.prev hc.1 hc.2 hp)

theorem nextNode_eq (h : PartOf own store part) (hc : store.Stored c ∧ own c.id) :
    nextNode part c = nextNode store c := by
  have hlink : nextInChain part c = nextInChain store c := h.links c.id hc.2
  unfold nextNode
  rw [hlink]
  cases hk : nextInChain store c with
  | none => rfl
  | some k =>
    rw [Option.bind_some, Option.bind_some]
    by_cases hown : own k
    · exact h.kept k hown
    · rw [h.gone k hown]
      -- a child outside would be a link that leads out
      cases hd : store.clients.lookup k with
      | none => rfl
      | some d =>
        have hnext : nextNode store c = some d := by
          unfold nextNode
          rw [hk, Option.bind_some, hd]
        have hd' := h.next hc.1 hc.2 hnext
        rw [h.toWellFormed.keyed hd] at hd'
        exact absurd hd' hown

/-! ## Loops inside the part -/

theorem chase_eq (h : PartOf own store part) (stop : ClientInteractionNode → Bool)
    (hc : store.Stored c ∧ own c.id) :
    chase (prevNode part) stop (chainFuel part) c =
      chase (prevNode store) stop (chainFuel store) c := by
  obtain ⟨r, hr⟩ := h.toWellFormed.chase_prevNode_isSome stop hc.1
  obtain ⟨r', hr'⟩ := h.partWellFormed.chase_prevNode_isSome stop (h.stored_iff.mpr hc)
  have hsame : chase (prevNode part) stop (chainFuel part) c =
      chase (prevNode store) stop (chainFuel part) c :=
    chase_congr (P := fun a => store.Stored a ∧ own a.id) (fun _ ha => h.prevNode_eq ha)
      (fun _ _ ha hb => h.toClosed.prevNode_inside ha hb) _ hc
  rw [hsame] at hr'
  rw [hsame, hr', hr, chase_unique hr' hr]

theorem systemMatches_eq (h : PartOf own store part) (sys : Option UInt64)
    (hc : store.Stored c ∧ own c.id) : systemMatches part sys c = systemMatches store sys c := by
  unfold systemMatches findChainRoot
  rw [h.chase_eq _ hc]

theorem endedAtClientBoundary_eq (h : PartOf own store part) (hashes : List UInt64) (n : Nat)
    (hc : store.Stored c ∧ own c.id) :
    endedAtClientBoundary part hashes n c = endedAtClientBoundary store hashes n c := by
  unfold endedAtClientBoundary
  cases hashes[n - 1]? with
  | none => rfl
  | some last =>
    simp only
    rw [h.chase_eq _ hc]

theorem read_eq (h : PartOf own store part) (hashes : List UInt64) (i : Nat)
    (hc : store.Stored c ∧ own c.id) : read part hashes c i = read store hashes c i :=
  readOn_congr (P := fun a => store.Stored a ∧ own a.id) (fun _ ha => h.nextNode_eq ha)
    (fun _ _ ha hb => h.toClosed.nextNode_inside ha hb) hashes i hc

/-! ## The search -/

theorem candidate_iff (h : PartOf own store part) (hfound : FoundIn own store hashes) {i : Nat} :
    Candidate part sys hashes c i ↔ Candidate store sys hashes c i := by
  constructor
  · intro ⟨hst, hget, hne, hsys⟩
    have hc := h.stored_iff.mp hst
    exact ⟨hc.1, hget, hne, (h.systemMatches_eq sys hc).symm.trans hsys⟩
  · intro hc
    have hin := And.intro hc.1 (Closed.candidate_own hfound hc)
    obtain ⟨_, hget, hne, hsys⟩ := hc
    exact ⟨h.stored_iff.mpr hin, hget, hne, (h.systemMatches_eq sys hin).trans hsys⟩

theorem longestReading (h : PartOf own store part) (hfound : FoundIn own store hashes) {n : Nat}
    {terminal : ClientInteractionNode} (hl : LongestReading store sys hashes n terminal) :
    LongestReading part sys hashes n terminal := by
  have hread : ∀ {c : ClientInteractionNode} {i : Nat}, Candidate store sys hashes c i →
      read part hashes c i = read store hashes c i :=
    fun hc => h.read_eq hashes _ ⟨hc.1, Closed.candidate_own hfound hc⟩
  obtain ⟨⟨c, i, hc, hr⟩, hmax⟩ := hl
  refine ⟨⟨c, i, (h.candidate_iff hfound).mpr hc, (hread hc).trans hr⟩, ?_⟩
  intro c' i' hc'
  have hcs := (h.candidate_iff hfound).mp hc'
  rw [hread hcs]
  exact hmax c' i' hcs

/-- **A search that finds its first hash in the part comes to the same result in the part.** -/
theorem findFrontier_eq (h : PartOf own store part) (hfound : FoundIn own store hashes)
    (prev : Option String) :
    findFrontier part hashes prev sys = findFrontier store hashes prev sys := by
  by_cases hne : hashes = []
  · rw [hne]
    rfl
  by_cases hc : ∃ c i, Candidate store sys hashes c i
  · obtain ⟨c, i, hc⟩ := hc
    obtain ⟨n, terminal, hl⟩ := hc.longest h.toIndexed
    have hterminal := And.intro (hl.stored h.toWellFormed.toIndexed)
      (h.toClosed.longestReading_own hfound hl)
    rw [Session.findFrontier_eq h.toWellFormed hl,
      Session.findFrontier_eq h.partWellFormed (h.longestReading hfound hl)]
    unfold frontierOf
    simp only [h.endedAtClientBoundary_eq hashes n hterminal]
  · have hno : ∀ c i, ¬ Candidate store sys hashes c i := fun c i hci => hc ⟨c, i, hci⟩
    rw [findFrontier_none h.toWellFormed hne hno,
      findFrontier_none h.partWellFormed hne fun c i hci =>
        hno c i ((h.candidate_iff hfound).mp hci)]

end PartOf

end InfSplitter.Session
