import InfSplitter.Lib.Chase
import InfSplitter.Session.Store
import Mathlib.Data.String.Basic

/-!
# Frontier selection

`find_frontier` and the helpers it calls. The candidates are the positions the hash index lists for
the first incoming hash. Each is checked (`assess`): the node exists, the hash really stands at that
position, the root of its chain carries the incoming system hash if one is given; then the hashes
are read forward along the chain. The candidate kept is the one with the longest prefix, then the
newest terminal node, then the smallest terminal id.

The two backward loops, to a chain's root and to the node holding the last matched hash, follow
`prev_id` and end only if the chain does. They are `chase` with one unit of fuel more than there are
client nodes, and `none` from here on means that such a loop does not end.
-/

set_option autoImplicit false

namespace InfSplitter.Session

open Lib

variable (store : InteractionStore)

/-- The node `prev_id` points to, if it is stored. -/
def prevNode (node : ClientInteractionNode) : Option ClientInteractionNode :=
  node.prevId.bind store.clients.lookup

def nextInChain (node : ClientInteractionNode) : Option String :=
  store.prevToClient.lookup node.id

/-- The child of `node`, resolved: the two nested `if let` of the forward walk. -/
def nextNode (node : ClientInteractionNode) : Option ClientInteractionNode :=
  (nextInChain store node).bind store.clients.lookup

def chainFuel : Nat := store.clients.entries.length + 1

/-- Walk backward from `client` along `prev_id` to the chain root. -/
def findChainRoot (client : ClientInteractionNode) : Option ClientInteractionNode :=
  chase (prevNode store) (fun _ => false) (chainFuel store) client

def walkBackFrom (node : ClientInteractionNode) : ClientInteractionNode :=
  (prevNode store node).getD node

/-- Whether the prefix ended exactly at a client node boundary: the first node from
`terminalClient` backwards that contains the last matched hash ends with it. -/
def endedAtClientBoundary (hashes : List UInt64) (prefixLen : Nat)
    (terminalClient : ClientInteractionNode) : Option Bool :=
  match hashes[prefixLen - 1]? with
  | none => some false
  | some lastHash =>
    (chase (prevNode store) (fun node => node.messageHashes.contains lastHash) (chainFuel store)
      terminalClient).map fun found =>
        let containing :=
          if found.messageHashes.contains lastHash then found else terminalClient
        containing.messageHashes.getLast? == some lastHash

/-- The variables of the forward walk. -/
structure Walk where
  prefixLen : Nat
  expectedIdx : Nat
  currentClient : ClientInteractionNode
  atBoundary : Bool

/-- The forward walk through the client chain, from incoming position `i` on. -/
def walkForward : List UInt64 → Nat → Walk → Walk
  | [], _, w => w
  | h :: hs, i, w =>
    if w.currentClient.messageHashes[w.expectedIdx]? = some h then
      if w.expectedIdx + 1 = w.currentClient.messageHashes.length then
        match nextNode store w.currentClient with
        | some next =>
          walkForward hs (i + 1)
            { prefixLen := i + 1, expectedIdx := 0, currentClient := next, atBoundary := false }
        | none =>
          { w with prefixLen := i + 1, expectedIdx := w.expectedIdx + 1, atBoundary := true }
      else
        walkForward hs (i + 1)
          { w with prefixLen := i + 1, expectedIdx := w.expectedIdx + 1, atBoundary := false }
    else w

/-- The node a finished walk terminates in. -/
def Walk.terminalClient (w : Walk) : ClientInteractionNode :=
  if w.atBoundary && w.expectedIdx == 0 then walkBackFrom store w.currentClient
  else w.currentClient

structure Best where
  prefixLen : Nat
  node : ClientInteractionNode
  known : Bool

/-- `prev_id` proof of ownership: an explicit previous id has to match, an absent one never
objects. -/
def isKnown (hashes : List UInt64) (incomingPrevId : Option String) (prefixLen : Nat)
    (terminal : ClientInteractionNode) : Bool :=
  prefixLen == hashes.length && (incomingPrevId.isNone || incomingPrevId == terminal.prevId)

def systemMatches (incomingSystemInstructionHash : Option UInt64)
    (client0 : ClientInteractionNode) : Option Bool :=
  match incomingSystemInstructionHash with
  | none => some true
  | some incoming =>
    (findChainRoot store client0).map fun root => root.systemInstructionHash == some incoming

/-- One turn of the candidate loop up to the update of `best`; `some none` is `continue`. -/
def assess (hashes : List UInt64) (incomingPrevId : Option String)
    (incomingSystemInstructionHash : Option UInt64) (pos0 : ClientInteractionPosition) :
    Option (Option Best) :=
  match store.clients.lookup pos0.clientId with
  | none => some none
  | some client0 =>
    if client0.messageHashes[pos0.messageIndex]? ≠ hashes.head? then some none
    else
      match systemMatches store incomingSystemInstructionHash client0 with
      | none => none
      | some false => some none
      | some true =>
        let w := walkForward store hashes 0
          { prefixLen := 0, expectedIdx := pos0.messageIndex, currentClient := client0,
            atBoundary := false }
        if w.prefixLen = 0 then some none
        else
          let terminal := w.terminalClient store
          some (some { prefixLen := w.prefixLen, node := terminal,
                       known := isKnown hashes incomingPrevId w.prefixLen terminal })

/-- The update of `best`: longer prefix, then newest `last_seen_utc`, then smallest id. -/
def keepBest (best : Option Best) (cur : Best) : Option Best :=
  match best with
  | none => some cur
  | some b =>
    if b.prefixLen < cur.prefixLen then some cur
    else if cur.prefixLen = b.prefixLen then
      if b.node.lastSeenUtc < cur.node.lastSeenUtc ∨
          (cur.node.lastSeenUtc = b.node.lastSeenUtc ∧ cur.node.id < b.node.id) then
        some { b with node := cur.node, known := cur.known }
      else some b
    else some b

def searchBest (hashes : List UInt64) (incomingPrevId : Option String)
    (incomingSystemInstructionHash : Option UInt64) :
    List ClientInteractionPosition → Option Best → Option (Option Best)
  | [], best => some best
  | pos0 :: rest, best =>
    match assess store hashes incomingPrevId incomingSystemInstructionHash pos0 with
    | none => none
    | some none => searchBest hashes incomingPrevId incomingSystemInstructionHash rest best
    | some (some cur) =>
      searchBest hashes incomingPrevId incomingSystemInstructionHash rest (keepBest best cur)

def frontierOf (hashes : List UInt64) : Option Best → Option Frontier
  | none =>
    some { index := 0, previousInteractionId := none, allKnown := false, matchedClientId := none }
  | some b =>
    if b.known then
      some { index := b.prefixLen, previousInteractionId := b.node.prevId, allKnown := true,
             matchedClientId := some b.node.id }
    else if b.prefixLen = 0 then
      some { index := 0, previousInteractionId := none, allKnown := false, matchedClientId := none }
    else
      (endedAtClientBoundary store hashes b.prefixLen b.node).map fun endedAtBoundary =>
        if endedAtBoundary then
          { index := b.prefixLen, previousInteractionId := some b.node.id, allKnown := false,
            matchedClientId := none }
        else
          { index := 0, previousInteractionId := b.node.prevId, allKnown := false,
            matchedClientId := none }

/-- `find_frontier`; `none` only where one of its backward loops does not end. -/
def findFrontier (hashes : List UInt64) (incomingPrevId : Option String)
    (incomingSystemInstructionHash : Option UInt64) : Option Frontier :=
  match hashes with
  | [] =>
    some { index := 0, previousInteractionId := incomingPrevId, allKnown := false,
           matchedClientId := none }
  | h0 :: _ =>
    (searchBest store hashes incomingPrevId incomingSystemInstructionHash (store.lookupHash h0)
      none).bind (frontierOf store hashes)

end InfSplitter.Session
