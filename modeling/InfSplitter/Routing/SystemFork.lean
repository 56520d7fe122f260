import InfSplitter.Routing.Handler
import InfSplitter.Routing.Context

/-!
# Requests with a changed system instruction

A chain remembers the hash of the system instruction it was started with, at its root. A request
that brings another one should start a chain of its own.

The lookup that decides this is `find_frontier(&hashes, None, None, ..)`. The last argument is the
system hash, and without it the check at the root is skipped: what is compared are the harness
messages alone. So the guard holds when the history happens to keep the system instruction
(`KeepsSystem`), for instance where all chains with the first message of the request were started
with its system instruction (`SharesSystem`). For OpenAI requests the system message is itself a
harness message, which is why the guard fails less often there, and still fails for everything but
the first one.

The wait for a batch in flight does pass a hash, for requests that start a chain and have a system
instruction; there the check works (`awaitsSameSystem_of_some`).
-/

set_option autoImplicit false

namespace InfSplitter.Routing

open Lib Session Interactions

/-- The root of the chain of client node `id` stores `hash`. -/
def RootHas (store : InteractionStore) (id : String) (hash : Option UInt64) : Prop :=
  ∃ c root, store.clients.lookup id = some c ∧ findChainRoot store c = some root ∧
    root.systemInstructionHash = hash

/-- What should be true of a decision: a replayed or continued chain has the request's system
instruction, and a request that starts a chain carries its own configuration. -/
def RespectsSystem (xxh3 : List UInt8 → UInt64) (store : InteractionStore) (route : RouteTarget)
    (req : Ingress) : Decision → Prop
  | .replay clientId => RootHas store clientId (req.systemHash xxh3)
  | .reject => True
  | .send params =>
    match params.previousInteractionId with
    | some prev => RootHas store prev (req.systemHash xxh3)
    | none =>
      params.systemInstruction = req.systemInstruction ∧
        params.tools = req.tools.filter (fun t => !t.isEmpty) ∧
        params.generationConfig =
          firstGenerationConfig route req.temperature req.maxTokens req.toolChoice

/-- The last hash read is not the last one of the node it stands in. -/
def EndsInside (store : InteractionStore) (hashes : List UInt64) (n : Nat)
    (terminal : ClientInteractionNode) : Prop :=
  endedAtClientBoundary store hashes n terminal = some false

def ChainHas (store : InteractionStore) (c : ClientInteractionNode) (hash : Option UInt64) :
    Prop :=
  ∃ root, findChainRoot store c = some root ∧ root.systemInstructionHash = hash

/-- The preferred reading ends inside the first node of a chain, with hashes left; or its chain was
started with system hash `system`, and if it ends inside a node with hashes left, the node before is
still stored. -/
def KeepsSystem (store : InteractionStore) (hashes : List UInt64) (system : Option UInt64) :
    Prop :=
  ∀ n terminal, LongestReading store none hashes n terminal →
    n < hashes.length ∧ EndsInside store hashes n terminal ∧ terminal.prevId = none ∨
    ChainHas store terminal system ∧
      (n < hashes.length → EndsInside store hashes n terminal → prevNode store terminal ≠ none)

/-- Every chain that has the first hash of the request was started with system hash `system`, and
what was before a node is still stored. -/
structure SharesSystem (store : InteractionStore) (hashes : List UInt64) (system : Option UInt64) :
    Prop where
  started : ∀ c, store.Stored c → ∀ hash ∈ hashes.head?, hash ∈ c.messageHashes →
    ChainHas store c system
  linked : ∀ c, store.Stored c → c.prevId ≠ none → prevNode store c ≠ none

/-- A complete reading a waiting request with previous id `prev` accepts belongs to a chain that
was started with system hash `system`. -/
def AwaitsSameSystem (store : InteractionStore) (hashes : List UInt64) (prev : Option String)
    (awaited system : Option UInt64) : Prop :=
  ∀ terminal, LongestReading store awaited hashes hashes.length terminal →
    prev = none ∨ prev = terminal.prevId → ChainHas store terminal system

/-! ## Roots -/

section
variable {store : InteractionStore}

/-- A node and the one before it have the same root. -/
theorem findChainRoot_prevNode (wf : store.WellFormed) {c p : ClientInteractionNode}
    (hc : store.Stored c) (hp : prevNode store c = some p) :
    findChainRoot store c = findChainRoot store p := by
  obtain ⟨r, hr⟩ := wf.chase_prevNode_isSome (fun _ => false) hc
  have hstep : chase (prevNode store) (fun _ => false) store.clients.entries.length p = some r := by
    unfold chainFuel at hr
    rw [chase_next rfl hp] at hr
    exact hr
  unfold findChainRoot
  rw [hr]
  exact (chase_succ hstep).symm

theorem rootHas_iff {c : ClientInteractionNode} (hc : store.Stored c) (hash : Option UInt64) :
    RootHas store c.id hash ↔ ChainHas store c hash := by
  constructor
  · intro ⟨c', root, hc', hroot, hh⟩
    rw [show store.clients.lookup c.id = some c from hc, Option.some.injEq] at hc'
    subst hc'
    exact ⟨root, hroot, hh⟩
  · intro ⟨root, hroot, hh⟩
    exact ⟨c, root, hc, hroot, hh⟩

/-- The node before `c` is stored and its chain has the hash, if and only if the chain of `c` has it
and the node before is stored. -/
theorem rootHas_prev_iff (wf : store.WellFormed) {c : ClientInteractionNode} {p : String}
    (hc : store.Stored c) (hp : c.prevId = some p) (hash : Option UInt64) :
    RootHas store p hash ↔ ChainHas store c hash ∧ prevNode store c ≠ none := by
  have hnode : prevNode store c = store.clients.lookup p := by
    unfold prevNode
    rw [hp]
    rfl
  cases hl : store.clients.lookup p with
  | none =>
    apply iff_of_false
    · intro ⟨c', _, hc', _⟩
      rw [hl] at hc'
      simp at hc'
    · intro ⟨_, hne⟩
      exact hne (hnode.trans hl)
  | some q =>
    have hq := wf.stored hl
    have hid : q.id = p := wf.keyed hl
    rw [hl] at hnode
    rw [← hid, rootHas_iff hq]
    unfold ChainHas
    rw [findChainRoot_prevNode wf hc hnode]
    refine (and_iff_left ?_).symm
    simp [hnode]

/-- Where a reading stops, the root is that of where it started. -/
theorem findChainRoot_read (wf : store.WellFormed)
    (hchild : ∀ {c d : ClientInteractionNode}, store.Stored c → nextNode store c = some d →
      d.prevId = some c.id)
    (hashes : List UInt64) {c : ClientInteractionNode} (i : Nat) (hc : store.Stored c) :
    findChainRoot store (read store hashes c i).2 = findChainRoot store c := by
  have key := readOn_stop_inv ClientInteractionNode.messageHashes (nextNode store)
    (P := fun d => store.Stored d ∧ findChainRoot store d = findChainRoot store c) ?_ hashes i
    ⟨hc, rfl⟩
  · exact key.2
  · intro d e ⟨hd, hroot⟩ hn
    have he := wf.stored_nextNode hn
    refine ⟨he, ?_⟩
    rw [← hroot]
    apply findChainRoot_prevNode wf he
    unfold prevNode
    rw [hchild hd hn]
    exact hd

end

/-! ## The two lookups -/

section
variable {xxh3 : List UInt8 → UInt64} {w : World}

/-- What becomes of a frontier that is not a replay. -/
theorem decision_send {req : Ingress} {route : RouteTarget} {frontier : Frontier}
    (hk : frontier.allKnown = false) {store : InteractionStore} :
    RespectsSystem xxh3 store route req (decision xxh3 req route frontier) ↔
      ∀ prev, frontier.previousInteractionId = some prev →
        RootHas store prev (req.systemHash xxh3) := by
  obtain ⟨hprev, hfields⟩ := req.buildRequest_fields route frontier
  unfold decision
  rw [hk]
  cases hp : frontier.previousInteractionId with
  | none =>
    refine iff_of_true ?_ (by simp)
    simp only
    split
    · trivial
    · show match (req.buildRequest route frontier).previousInteractionId with
        | some prev => _
        | none => _
      rw [hprev, hp]
      exact hfields hp
  | some prev =>
    simp only [reduceCtorEq, and_false, if_false, RespectsSystem, hprev, hp, Option.some.injEq,
      forall_eq']

/-- The first lookup respects the system instruction exactly under the condition. -/
theorem lookup_respects_iff (wf : w.store.interactions.WellFormed) (route : RouteTarget)
    (req : Ingress) {frontier : Frontier}
    (found : findFrontier w.store.interactions (req.hashes xxh3) none none = some frontier) :
    RespectsSystem xxh3 w.store.interactions route req (decision xxh3 req route frontier) ↔
      KeepsSystem w.store.interactions (req.hashes xxh3) (req.systemHash xxh3) := by
  unfold KeepsSystem
  cases Outcome.of_findFrontier wf found with
  | empty hnil =>
    rw [decision_send rfl]
    apply iff_of_true (by simp)
    intro n terminal hl
    obtain ⟨⟨c, i, hc, _⟩, _⟩ := hl
    exact absurd hnil hc.2.2.1
  | fresh _ hno =>
    rw [decision_send rfl]
    apply iff_of_true (by simp)
    intro n terminal hl
    obtain ⟨⟨c, i, hc, _⟩, _⟩ := hl
    exact absurd hc (hno c i)
  | @replay n terminal hl known =>
    rw [isKnown_none, beq_iff_eq] at known
    rw [hl.forall_iff wf.toIndexed]
    show RootHas w.store.interactions terminal.id (req.systemHash xxh3) ↔ _
    rw [rootHas_iff (hl.stored wf.toIndexed)]
    simp only [known, Nat.lt_irrefl, false_and, false_or, false_implies, and_true]
  | @boundary n terminal hl unknown ended =>
    rw [decision_send rfl, hl.forall_iff wf.toIndexed]
    have hinside : ¬ EndsInside w.store.interactions (req.hashes xxh3) n terminal := by
      unfold EndsInside
      rw [ended]
      simp
    simp only [Option.some.injEq, forall_eq', rootHas_iff (hl.stored wf.toIndexed), hinside,
      false_and, and_false, false_or, false_implies, implies_true, and_true]
  | @fork n terminal hl unknown ended =>
    rw [isKnown_none, beq_eq_false_iff_ne] at unknown
    have hlt := lt_of_le_of_ne hl.le_length unknown
    have hinside : EndsInside w.store.interactions (req.hashes xxh3) n terminal := ended
    rw [decision_send rfl, hl.forall_iff wf.toIndexed]
    simp only [hlt, hinside, true_and, true_implies]
    cases hp : terminal.prevId with
    | none => simp
    | some p =>
      simp only [Option.some.injEq, forall_eq', reduceCtorEq, false_or]
      exact rootHas_prev_iff wf (hl.stored wf.toIndexed) hp _

/-- So does the lookup of a waiting request, under its own condition. -/
theorem await_respects_iff (wf : w.store.interactions.WellFormed) (req : Ingress)
    (prev : Option String) {frontier : Frontier}
    (found : findFrontier w.store.interactions (req.hashes xxh3) prev
      (awaitedSystemHash xxh3 req prev) = some frontier) :
    (∀ matched, (if frontier.allKnown then frontier.matchedClientId else none) = some matched →
        RootHas w.store.interactions matched (req.systemHash xxh3)) ↔
      AwaitsSameSystem w.store.interactions (req.hashes xxh3) prev
        (awaitedSystemHash xxh3 req prev) (req.systemHash xxh3) := by
  have never : ∀ {n : Nat} {terminal : ClientInteractionNode},
      LongestReading w.store.interactions (awaitedSystemHash xxh3 req prev) (req.hashes xxh3) n
        terminal →
      isKnown (req.hashes xxh3) prev n terminal = false →
      AwaitsSameSystem w.store.interactions (req.hashes xxh3) prev
        (awaitedSystemHash xxh3 req prev) (req.systemHash xxh3) := by
    intro n terminal hl hk terminal' hl' hprev
    obtain ⟨rfl, rfl⟩ := hl.unique wf.toIndexed hl'
    rw [isKnown_iff.mpr ⟨rfl, hprev⟩] at hk
    cases hk
  cases Outcome.of_findFrontier wf found with
  | empty hnil =>
    apply iff_of_true (by simp)
    intro terminal hl
    obtain ⟨⟨c, i, hc, _⟩, _⟩ := hl
    exact absurd hnil hc.2.2.1
  | fresh _ hno =>
    apply iff_of_true (by simp)
    intro terminal hl
    obtain ⟨⟨c, i, hc, _⟩, _⟩ := hl
    exact absurd hc (hno c i)
  | boundary hl unknown _ => exact iff_of_true (by simp) (never hl unknown)
  | fork hl unknown _ => exact iff_of_true (by simp) (never hl unknown)
  | @replay n terminal hl known =>
    obtain ⟨rfl, hprev⟩ := isKnown_iff.mp known
    simp only [if_true, Option.some.injEq, forall_eq', rootHas_iff (hl.stored wf.toIndexed)]
    constructor
    · intro h terminal' hl' _
      obtain ⟨_, rfl⟩ := hl.unique wf.toIndexed hl'
      exact h
    · intro h
      exact h terminal hl hprev

/-- Where a reading stops, the chain is the one it started in. -/
theorem chainHas_stop (sound : Sound w) {sys : Option UInt64} {hashes : List UInt64} {n : Nat}
    {terminal : ClientInteractionNode}
    (hl : LongestReading w.store.interactions sys hashes n terminal) :
    ∃ c i, Candidate w.store.interactions sys hashes c i ∧ ∀ hash,
      ChainHas w.store.interactions c hash → ChainHas w.store.interactions terminal hash := by
  have wf := sound.wellFormed
  obtain ⟨⟨c, i, hc, hr⟩, _⟩ := hl
  have hroot := findChainRoot_read wf ?_ hashes i hc.1
  · rw [hr] at hroot
    refine ⟨c, i, hc, fun hash ⟨root, hfound, hhash⟩ => ⟨root, hroot.trans hfound, hhash⟩⟩
  · intro c d hc hn
    obtain ⟨k, hk, hd⟩ := Option.bind_eq_some_iff.mp hn
    exact (sound.chained.child hk).2 d hd

/-- **Chains with the same beginning and the same system instruction keep it.** -/
theorem SharesSystem.keepsSystem (sound : Sound w) {hashes : List UInt64} {system : Option UInt64}
    (h : SharesSystem w.store.interactions hashes system) :
    KeepsSystem w.store.interactions hashes system := by
  intro n terminal hl
  have hst := hl.stored sound.wellFormed.toIndexed
  obtain ⟨c, i, hc, hstop⟩ := chainHas_stop sound hl
  have hchain : ChainHas w.store.interactions terminal system := by
    obtain ⟨first, rest, rfl⟩ := List.exists_cons_of_ne_nil hc.2.2.1
    exact hstop system (h.started c hc.1 first rfl (List.mem_of_getElem? hc.2.1))
  by_cases hfirst : terminal.prevId = none
  · by_cases hinside : n < hashes.length ∧ EndsInside w.store.interactions hashes n terminal
    · exact .inl ⟨hinside.1, hinside.2, hfirst⟩
    · exact .inr ⟨hchain, fun hshort hends => absurd ⟨hshort, hends⟩ hinside⟩
  · exact .inr ⟨hchain, fun _ _ => h.linked terminal hst hfirst⟩

/-- **A changed system instruction forces a fork exactly where the history keeps it anyway.** In
every reachable world and for every request, the handler's lookup ends in a decision that respects
the system instruction if and only if `KeepsSystem` holds, and a wait for a batch ends in a replay
that respects it if and only if `AwaitsSameSystem` does. `SharesSystem` is enough for the first. -/
theorem system_respected_iff (xxh3 : List UInt8 → UInt64) {moments : List (World × Action)}
    {w : World} (run : routing.Run moments w) (route : RouteTarget) (req : Ingress) :
    (∃ d, lookupDecision xxh3 w.store.interactions route req = some d ∧
      (RespectsSystem xxh3 w.store.interactions route req d ↔
        KeepsSystem w.store.interactions (req.hashes xxh3) (req.systemHash xxh3)) ∧
      (SharesSystem w.store.interactions (req.hashes xxh3) (req.systemHash xxh3) →
        RespectsSystem xxh3 w.store.interactions route req d)) ∧
    ∀ prev, ∃ replayed, awaitDecision xxh3 w.store.interactions req prev = some replayed ∧
      ((∀ matched, replayed = some matched →
          RootHas w.store.interactions matched (req.systemHash xxh3)) ↔
        AwaitsSameSystem w.store.interactions (req.hashes xxh3) prev
          (awaitedSystemHash xxh3 req prev) (req.systemHash xxh3)) := by
  have sound := Sound.of_run run
  have wf := sound.wellFormed
  refine ⟨?_, ?_⟩
  · obtain ⟨frontier, found, _⟩ := findFrontier_outcome wf (req.hashes xxh3) none none
    have hiff := lookup_respects_iff wf route req found
    exact ⟨decision xxh3 req route frontier, lookupDecision_eq route found, hiff,
      fun h => hiff.mpr (h.keepsSystem sound)⟩
  · intro prev
    obtain ⟨frontier, found, _⟩ :=
      findFrontier_outcome wf (req.hashes xxh3) prev (awaitedSystemHash xxh3 req prev)
    refine ⟨_, ?_, await_respects_iff wf req prev found⟩
    unfold awaitDecision
    rw [found]
    rfl

end

/-- A request that starts a chain with a system instruction waits for the right one. -/
theorem awaitsSameSystem_of_some {w : World} (sound : Sound w) {hashes : List UInt64}
    {system : UInt64} :
    AwaitsSameSystem w.store.interactions hashes none (some system) (some system) := by
  intro terminal hl _
  obtain ⟨c, i, hc, hstop⟩ := chainHas_stop sound hl
  obtain ⟨root, hfound, hm⟩ := Option.map_eq_some_iff.mp hc.2.2.2
  exact hstop _ ⟨root, hfound, beq_iff_eq.mp hm⟩

/-! ## A follow-up with another system instruction -/

/-- A request with these user messages and this system instruction. -/
def anthropicIngress (texts : List String) (system : String) : Ingress :=
  { protocol := .anthropic
    messages := texts.map fun t => .obj [("content", .str t), ("role", .str "user")]
    model := "m", stream := false, temperature := none, maxTokens := none, system := some system,
    tools := none, toolChoice := none }

/-- A stand-in for the hash that tells the texts below apart. -/
def lengthHash (bytes : List UInt8) : UInt64 := UInt64.ofNat bytes.length

/-- The first request, with system instruction `s`, as the run below sees it. -/
def systemTurn : Exchange :=
  { request := { hashes := (anthropicIngress ["a"] "s").hashes lengthHash
                 systemInstructionHash := (anthropicIngress ["a"] "s").systemHash lengthHash }
    frontier := { index := 0, previousInteractionId := none, allKnown := false,
                  matchedClientId := none } }

def World.systemTurn : World :=
  (World.init.lookedUp Routing.systemTurn.request Routing.systemTurn.frontier).committed
    Routing.systemTurn "int-1" 0 "session"

theorem run_systemTurn : ∃ moments, routing.Run moments World.systemTurn := by
  have looked := System.Run.init.step (S := routing)
    (Step.lookup (by decide :
      findFrontier _ systemTurn.request.hashes none none = some systemTurn.frontier) (by decide))
  exact ⟨_, looked.step (Step.commit 0 "session" (by decide) (by decide))⟩

/-- The second request brings the system instruction `other` and continues the chain started
with `s`. -/
theorem system_not_always_respected :
    ¬ ∀ (xxh3 : List UInt8 → UInt64) moments w, routing.Run moments w →
      ∀ (route : RouteTarget) (req : Ingress) d,
        lookupDecision xxh3 w.store.interactions route req = some d →
          RespectsSystem xxh3 w.store.interactions route req d := by
  intro h
  obtain ⟨moments, run⟩ := run_systemTurn
  have found : findFrontier World.systemTurn.store.interactions
      ((anthropicIngress ["a", "bb"] "other").hashes lengthHash) none none =
      some { index := 1, previousInteractionId := some "int-1", allKnown := false,
             matchedClientId := none } := by
    decide
  have hd := lookupDecision_eq { maxTokens := none, proxyLimit := none } found
  obtain ⟨c, root, hc, hroot, hh⟩ := (decision_send rfl).mp (h _ moments _ run _ _ _ hd) "int-1" rfl
  have hc' : World.systemTurn.store.interactions.clients.lookup "int-1" =
      some (recordedNode 0 "int-1" none systemTurn.request.hashes systemTurn.storedSystemHash) := by
    decide
  rw [hc', Option.some.injEq] at hc
  subst hc
  have hroot' : findChainRoot World.systemTurn.store.interactions
      (recordedNode 0 "int-1" none systemTurn.request.hashes systemTurn.storedSystemHash) =
      some (recordedNode 0 "int-1" none systemTurn.request.hashes systemTurn.storedSystemHash) := by
    decide
  rw [hroot', Option.some.injEq] at hroot
  subst hroot
  exact absurd hh (by decide)

/-- There is one node, and it was started with `s`. -/
theorem sharesSystem_systemTurn : SharesSystem World.systemTurn.store.interactions
    ((anthropicIngress ["a", "bb"] "s").hashes lengthHash)
    ((anthropicIngress ["a", "bb"] "s").systemHash lengthHash) := by
  have hone : ∀ c, World.systemTurn.store.interactions.Stored c →
      c = recordedNode 0 "int-1" none systemTurn.request.hashes systemTurn.storedSystemHash := by
    intro c hc
    have hvalues : World.systemTurn.store.interactions.clients.values =
        [recordedNode 0 "int-1" none systemTurn.request.hashes systemTurn.storedSystemHash] := by
      rfl
    have hmem := StrMap.mem_values.mpr ⟨c.id, hc⟩
    rw [hvalues] at hmem
    exact List.mem_singleton.mp hmem
  refine ⟨fun c hc _ _ _ => ?_, fun c hc hprev => ?_⟩
  · rw [hone c hc]
    exact ⟨_, rfl, rfl⟩
  · rw [hone c hc] at hprev
    exact absurd rfl hprev

/-- After one turn, a follow-up request with the same system instruction. -/
theorem system_respected_iff_follow_up :
    ∃ moments, routing.Run moments World.systemTurn ∧
      ∃ d, lookupDecision lengthHash World.systemTurn.store.interactions
          { maxTokens := none, proxyLimit := none } (anthropicIngress ["a", "bb"] "s") = some d ∧
        (RespectsSystem lengthHash World.systemTurn.store.interactions
            { maxTokens := none, proxyLimit := none } (anthropicIngress ["a", "bb"] "s") d ↔
          KeepsSystem World.systemTurn.store.interactions
            ((anthropicIngress ["a", "bb"] "s").hashes lengthHash)
            ((anthropicIngress ["a", "bb"] "s").systemHash lengthHash)) ∧
        RespectsSystem lengthHash World.systemTurn.store.interactions
          { maxTokens := none, proxyLimit := none } (anthropicIngress ["a", "bb"] "s") d := by
  obtain ⟨moments, run⟩ := run_systemTurn
  obtain ⟨d, hd, hiff, hshares⟩ := (system_respected_iff lengthHash run
    { maxTokens := none, proxyLimit := none } (anthropicIngress ["a", "bb"] "s")).1
  exact ⟨moments, run, d, hd, hiff, hshares sharesSystem_systemTurn⟩

end InfSplitter.Routing
