/-
**The exact token scan.**

For every query token the scan offers each live node with its distance, sorts what is kept, and
adds the hits up by document until a token has reached enough different documents. A document is
named by the map of documents, or by a number that its heap TID gets when it is first seen.

* `exactTokenScan_ok`: with room for all live nodes the scan returns all of them in order;
* `hashed_hits`, `sidecar_hits`: both ways of naming make the calls of one naming that is fixed;
* `tokenCalls_covers`: a cut that comes when all documents have been reached loses no best hit;
* `exactTokens_maxSim`: every live document ends with its weighted MaxSim.
-/
import TurboHybrid.Library.Results
import TurboHybrid.MultiVector.Accumulate
import Mathlib.Data.Finset.Card
import Mathlib.Data.Finset.Dedup
import Mathlib.Data.List.Nodup

set_option linter.unusedSectionVars false

namespace TurboHybrid.Accumulate

open Library TurboHybrid.PlainFallback TurboHybrid.Graph.Dense
open scoped List

variable {queryCount : Nat}
variable {K : Type} [Field K] [LinearOrder K] [IsStrictOrderedRing K]

/-! ### The names of documents -/

/-- The map of documents, as far as the loop reads it. -/
structure DocMapSidecar where
  docCount : Nat
  nodeDoc : Nat → Nat
  docTid : Nat → ItemPointer

inductive DocMapSource
  | sidecar (map : DocMapSidecar)
  | heapTidHash

/-- `ResolveDocId`: a heap TID that is new takes the next number. -/
def resolveDocId (known : List ItemPointer) (heaptid : ItemPointer) : Nat × List ItemPointer :=
  if heaptid ∈ known then (known.idxOf heaptid, known) else (known.length, known ++ [heaptid])

structure NamedHit (K : Type) where
  docId : Nat
  docHit : GraphResult ItemPointer K
  known : List ItemPointer

def nameHit (source : DocMapSource) (known : List ItemPointer) (hit : GraphResult ItemPointer K) :
    Except String (NamedHit K) :=
  match source with
  | .sidecar map =>
    let docId := map.nodeDoc hit.nodeId
    if map.docCount ≤ docId then .error "pgturbohybrid multivector doc id is out of range"
    else .ok ⟨docId, { hit with heaptid := map.docTid docId }, known⟩
  | .heapTidHash =>
    let resolved := resolveDocId known hit.heaptid
    .ok ⟨resolved.1, hit, resolved.2⟩

/-! ### The scan of one token -/

def offerNode (graph : ScanGraph ItemPointer K) (rawTarget : Nat)
    (results : Array (GraphResult ItemPointer K)) (nodeId : Nat) :
    Except String (Array (GraphResult ItemPointer K)) :=
  if graph.loadCodePage nodeId = false then
    .error s!"could not load multivector exact token scan node {nodeId}"
  else if (graph.nodes nodeId).dead then .ok results
  else .ok (offerCandidate rawTarget results (graph.scored nodeId))

/-- `ExactTokenScan`: all live nodes, the nearest first. -/
def exactTokenScan (graph : ScanGraph ItemPointer K) (rawTarget : Nat) :
    Except String (List (GraphResult ItemPointer K)) :=
  if rawTarget = 0 then .ok []
  else ((List.range graph.tqNodeCount).foldlM (offerNode graph rawTarget) #[]).map fun results =>
    sortResults results.toList

/-! ### The loop over the tokens -/

/-- The state of the loop: the names that were given, the documents that the current token has
reached, and the accumulator. -/
structure TokenState (queryCount : Nat) (K : Type) where
  known : List ItemPointer
  tokenSeen : List Nat
  accumulator : Accumulator Nat queryCount K

/-- The hits of one token; the loop ends when enough different documents have been reached. -/
def accumulateHits (source : DocMapSource) (uniqueDocsPerToken : Nat)
    (queryWeight : Fin queryCount → K) (queryOrdinal : Fin queryCount) :
    List (GraphResult ItemPointer K) → TokenState queryCount K →
      Except String (TokenState queryCount K)
  | [], state => .ok state
  | hit :: hits, state => do
    let named ← nameHit source state.known hit
    let tokenUniqueDoc := decide (named.docId ∉ state.tokenSeen)
    let accumulator := accumulateDoc state.accumulator named.docHit named.docId queryOrdinal
      (queryWeight queryOrdinal) (!tokenUniqueDoc)
    if tokenUniqueDoc then
      let next : TokenState queryCount K :=
        ⟨named.known, named.docId :: state.tokenSeen, accumulator⟩
      if uniqueDocsPerToken ≤ next.tokenSeen.length then .ok next
      else accumulateHits source uniqueDocsPerToken queryWeight queryOrdinal hits next
    else
      accumulateHits source uniqueDocsPerToken queryWeight queryOrdinal hits
        ⟨named.known, state.tokenSeen, accumulator⟩

/-- The graph with the distances to one query token. -/
def scoredBy (graph : ScanGraph ItemPointer K) (scoreNode : Nat → K) : ScanGraph ItemPointer K :=
  { graph with scoreNode := scoreNode }

structure TokenScan (queryCount : Nat) (K : Type) where
  graph : ScanGraph ItemPointer K
  tokenDistance : Fin queryCount → Nat → K
  queryWeight : Fin queryCount → K
  skipQueryToken : Fin queryCount → Bool
  rawTarget : Nat
  uniqueDocsPerToken : Nat

namespace TokenScan

variable (scan : TokenScan queryCount K)

def scanToken (source : DocMapSource) (state : TokenState queryCount K)
    (queryOrdinal : Fin queryCount) : Except String (TokenState queryCount K) :=
  if scan.skipQueryToken queryOrdinal then .ok state
  else do
    let hits ← exactTokenScan (scoredBy scan.graph (scan.tokenDistance queryOrdinal)) scan.rawTarget
    accumulateHits source scan.uniqueDocsPerToken scan.queryWeight queryOrdinal hits
      { state with tokenSeen := [] }

/-- **The exact scan of all query tokens.** -/
def exactTokens (source : DocMapSource) (arena : Arena) :
    Except String (TokenState queryCount K) :=
  (List.finRange queryCount).foldlM (scan.scanToken source) ⟨[], [], ⟨fun _ => none, arena⟩⟩

/-! ### What it is for -/

def liveNodes : List Nat :=
  (List.range scan.graph.tqNodeCount).filter fun nodeId => !(scan.graph.nodes nodeId).dead

def liveDocuments : List ItemPointer := (scan.liveNodes.map scan.graph.heaptid).dedup

/-- The best similarity between a query token and the nodes of a document. -/
def tokenMaxSim (heaptid : ItemPointer) (queryOrdinal : Fin queryCount) : Option K :=
  ((scan.liveNodes.filter fun nodeId => scan.graph.heaptid nodeId = heaptid).map fun nodeId =>
    -scan.tokenDistance queryOrdinal nodeId).max?

def sought (heaptid : ItemPointer) (queryOrdinal : Fin queryCount) : Option K :=
  if scan.skipQueryToken queryOrdinal then none else scan.tokenMaxSim heaptid queryOrdinal

/-- The weighted MaxSim of a document, over the tokens that are not skipped. -/
def weightedMaxSim (heaptid : ItemPointer) : K :=
  ∑ qi, usedWeight (scan.queryWeight qi) * (scan.sought heaptid qi).getD 0

/-- The map of documents gives the live nodes of one row one document, with the TID of the row. -/
structure MappedBy (map : DocMapSidecar) : Prop where
  inside : ∀ nodeId ∈ scan.liveNodes, map.nodeDoc nodeId < map.docCount
  tid : ∀ nodeId ∈ scan.liveNodes, map.docTid (map.nodeDoc nodeId) = scan.graph.heaptid nodeId
  whole : ∀ nodeId ∈ scan.liveNodes, ∀ other ∈ scan.liveNodes,
    scan.graph.heaptid nodeId = scan.graph.heaptid other → map.nodeDoc nodeId = map.nodeDoc other

def NamedBy : DocMapSource → Prop
  | .sidecar map => scan.MappedBy map
  | .heapTidHash => True

structure Unlimited : Prop where
  loaded : ∀ nodeId < scan.graph.tqNodeCount, scan.graph.loadCodePage nodeId = true
  nodes : scan.liveNodes.length ≤ scan.rawTarget
  documents : scan.liveDocuments.length ≤ scan.uniqueDocsPerToken

end TokenScan

/-! ### One scan -/

section Scan

variable (graph : ScanGraph ItemPointer K)

theorem offerNodes_ok {nodes : List Nat}
    (loaded : ∀ nodeId ∈ nodes, graph.loadCodePage nodeId = true) (rawTarget : Nat)
    (results : Array (GraphResult ItemPointer K)) :
    nodes.foldlM (offerNode graph rawTarget) results =
      .ok (((nodes.filter fun nodeId => !(graph.nodes nodeId).dead).map graph.scored).foldl
        (offerCandidate rawTarget) results) := by
  induction nodes generalizing results with
  | nil => rfl
  | cons nodeId rest ih =>
    have later := ih fun other member => loaded other (List.mem_cons_of_mem _ member)
    rw [List.foldlM_cons, offerNode, loaded nodeId List.mem_cons_self, if_neg (by decide)]
    by_cases dead : (graph.nodes nodeId).dead = true
    · rw [if_pos dead, List.filter_cons_of_neg (by simp [dead])]
      exact later results
    · rw [if_neg dead, List.filter_cons_of_pos (by simpa using dead)]
      exact later _

/-- **With room for all live nodes** the scan returns all of them, the nearest first. -/
theorem exactTokenScan_ok (loaded : ∀ nodeId < graph.tqNodeCount, graph.loadCodePage nodeId = true)
    (live : List Nat)
    (all : live = (List.range graph.tqNodeCount).filter fun nodeId => !(graph.nodes nodeId).dead)
    {rawTarget : Nat} (room : live.length ≤ rawTarget) :
    ∃ hits, exactTokenScan graph rawTarget = .ok hits ∧ hits.Perm (live.map graph.scored) ∧
      hits.Pairwise fun hit other => hit.distance ≤ other.distance := by
  by_cases none_ : rawTarget = 0
  · have empty : live = [] := List.length_eq_zero_iff.mp (by omega)
    refine ⟨[], by rw [exactTokenScan, if_pos none_], ?_, List.Pairwise.nil⟩
    rw [empty]
    rfl
  · have keeps := offerCandidate_keeps (Nat.pos_of_ne_zero none_)
      (BoundedHeap.keepsBy_empty GraphResult.key rawTarget) (live.map graph.scored)
    rw [List.nil_append] at keeps
    generalize found : (live.map graph.scored).foldl (offerCandidate rawTarget) #[] = heap at keeps
    have size : (live.map graph.scored).length ≤ heap.toList.length := by
      have count := keeps.selects.count
      rw [List.length_map, List.length_map, List.length_map, min_eq_right room] at count
      rw [List.length_map, count]
    have whole : heap.toList.Perm (live.map graph.scored) := keeps.part.perm_of_length_le size
    refine ⟨sortResults heap.toList, ?_, (sortResults_perm _).trans whole, ?_⟩
    · rw [exactTokenScan, if_neg none_,
        offerNodes_ok graph (fun nodeId member => loaded nodeId (List.mem_range.mp member)), ← all,
        found]
      rfl
    · have sorted : (sortResults heap.toList).Pairwise fun hit other => hit.key ≤ other.key := by
        rw [← List.pairwise_map]
        change (keys (sortResults heap.toList)).Pairwise (· ≤ ·)
        rw [sortResults_keys]
        exact List.pairwise_insertionSort _ _
      refine sorted.imp fun below => ?_
      exact (Prod.Lex.toLex_le_toLex.mp below).elim le_of_lt fun same => same.1.le

end Scan

/-! ### The calls of one token -/

section Calls

/-- The calls of the accumulator when every document has its fixed name. -/
def tokenCalls (name : GraphResult ItemPointer K → Nat) (uniqueDocsPerToken : Nat)
    (queryOrdinal : Fin queryCount) :
    List Nat → List (GraphResult ItemPointer K) → List (TokenHit Nat queryCount K)
  | _, [] => []
  | seen, hit :: hits =>
    if name hit ∈ seen then
      ⟨hit, name hit, queryOrdinal, true⟩ ::
        tokenCalls name uniqueDocsPerToken queryOrdinal seen hits
    else
      ⟨hit, name hit, queryOrdinal, false⟩ ::
        if uniqueDocsPerToken ≤ seen.length + 1 then []
        else tokenCalls name uniqueDocsPerToken queryOrdinal (name hit :: seen) hits

variable {name : GraphResult ItemPointer K → Nat} {uniqueDocsPerToken : Nat}
  {queryOrdinal : Fin queryCount}

theorem mem_tokenCalls {seen : List Nat} {hits : List (GraphResult ItemPointer K)}
    {call : TokenHit Nat queryCount K}
    (member : call ∈ tokenCalls name uniqueDocsPerToken queryOrdinal seen hits) :
    call.hit ∈ hits ∧ call.key = name call.hit ∧ call.queryOrdinal = queryOrdinal := by
  induction hits generalizing seen with
  | nil => exact absurd member List.not_mem_nil
  | cons hit hits ih =>
    rw [tokenCalls] at member
    have first {flag : Bool} (here : call = ⟨hit, name hit, queryOrdinal, flag⟩) :
        call.hit ∈ hit :: hits ∧ call.key = name call.hit ∧ call.queryOrdinal = queryOrdinal := by
      subst here
      exact ⟨List.mem_cons_self, rfl, rfl⟩
    have later {seen : List Nat}
        (there : call ∈ tokenCalls name uniqueDocsPerToken queryOrdinal seen hits) :
        call.hit ∈ hit :: hits ∧ call.key = name call.hit ∧ call.queryOrdinal = queryOrdinal :=
      ⟨List.mem_cons_of_mem _ (ih there).1, (ih there).2⟩
    by_cases known : name hit ∈ seen
    · rw [if_pos known] at member
      exact (List.mem_cons.mp member).elim first later
    · rw [if_neg known] at member
      by_cases enough : uniqueDocsPerToken ≤ seen.length + 1
      · rw [if_pos enough] at member
        exact first (List.mem_singleton.mp member)
      · rw [if_neg enough] at member
        exact (List.mem_cons.mp member).elim first later

/-- **A cut loses no best hit** when it comes as all documents have been reached. -/
theorem tokenCalls_covers (queryOrdinal : Fin queryCount) {seen : List Nat}
    {hits : List (GraphResult ItemPointer K)}
    (distinct : seen.Nodup)
    (sorted : hits.Pairwise fun hit other => hit.distance ≤ other.distance)
    (few : (seen.toFinset ∪ (hits.map name).toFinset).card ≤ uniqueDocsPerToken)
    {hit : GraphResult ItemPointer K} (member : hit ∈ hits) :
    name hit ∈ seen ∨ ∃ call ∈ tokenCalls name uniqueDocsPerToken queryOrdinal seen hits,
      call.key = name hit ∧ call.hit.distance ≤ hit.distance := by
  induction hits generalizing seen with
  | nil => exact absurd member List.not_mem_nil
  | cons first hits ih =>
    obtain ⟨nearest, sorted⟩ := List.pairwise_cons.mp sorted
    have below : first.distance ≤ hit.distance := by
      rcases List.mem_cons.mp member with here | there
      · rw [here]
      · exact nearest hit there
    rw [tokenCalls]
    by_cases known : name first ∈ seen
    · rw [if_pos known]
      rcases List.mem_cons.mp member with here | there
      · exact Or.inl (here ▸ known)
      · have fewer : (seen.toFinset ∪ (hits.map name).toFinset).card ≤ uniqueDocsPerToken := by
          refine (Finset.card_le_card ?_).trans few
          refine Finset.union_subset_union_right ?_
          rw [List.map_cons, List.toFinset_cons]
          exact Finset.subset_insert _ _
        exact (ih distinct sorted fewer there).imp id fun ⟨call, inside, facts⟩ =>
          ⟨call, List.mem_cons_of_mem _ inside, facts⟩
    · rw [if_neg known]
      -- the document of the first hit is reached by it
      have reached (same : name hit = name first) (rest : List (TokenHit Nat queryCount K)) :
          ∃ call ∈ (⟨first, name first, queryOrdinal, false⟩ :: rest :
            List (TokenHit Nat queryCount K)),
            call.key = name hit ∧ call.hit.distance ≤ hit.distance :=
        ⟨_, List.mem_cons_self, same.symm, below⟩
      have names : seen.toFinset ∪ ((first :: hits).map name).toFinset =
          (name first :: seen).toFinset ∪ (hits.map name).toFinset := by
        rw [List.map_cons, List.toFinset_cons, List.toFinset_cons, Finset.union_insert,
          Finset.insert_union]
      rw [names] at few
      have grown : (name first :: seen).Nodup := List.nodup_cons.mpr ⟨known, distinct⟩
      by_cases enough : uniqueDocsPerToken ≤ seen.length + 1
      · rw [if_pos enough]
        have size : (name first :: seen).toFinset.card = seen.length + 1 :=
          List.toFinset_card_of_nodup grown
        have all : (name first :: seen).toFinset =
            (name first :: seen).toFinset ∪ (hits.map name).toFinset :=
          Finset.eq_of_subset_of_card_le Finset.subset_union_left (by omega)
        have inside : name hit ∈ (name first :: seen).toFinset := by
          rw [all]
          rcases List.mem_cons.mp member with here | there
          · rw [here]
            simp
          · exact Finset.mem_union_right _
              (List.mem_toFinset.mpr (List.mem_map_of_mem there))
        rcases List.mem_cons.mp (List.mem_toFinset.mp inside) with same | earlier
        · exact Or.inr (reached same [])
        · exact Or.inl earlier
      · rw [if_neg enough]
        rcases List.mem_cons.mp member with here | there
        · exact Or.inr (reached (by rw [here]) _)
        · rcases ih grown sorted few there with inside | ⟨call, inside, facts⟩
          · rcases List.mem_cons.mp inside with same | earlier
            · exact Or.inr (reached same _)
            · exact Or.inl earlier
          · exact Or.inr ⟨call, List.mem_cons_of_mem _ inside, facts⟩

end Calls

/-! ### Both ways of naming -/

section Naming

variable (uniqueDocsPerToken : Nat) (queryWeight : Fin queryCount → K)
  (queryOrdinal : Fin queryCount)

def callsFrom (queryWeight : Fin queryCount → K) (accumulator : Accumulator Nat queryCount K)
    (calls : List (TokenHit Nat queryCount K)) : Accumulator Nat queryCount K :=
  calls.foldl (accumulateHit queryWeight) accumulator

theorem sidecar_hits {map : DocMapSidecar} {hits : List (GraphResult ItemPointer K)}
    (inside : ∀ hit ∈ hits, map.nodeDoc hit.nodeId < map.docCount)
    (tid : ∀ hit ∈ hits, map.docTid (map.nodeDoc hit.nodeId) = hit.heaptid)
    (state : TokenState queryCount K) :
    ∃ next, accumulateHits (.sidecar map) uniqueDocsPerToken queryWeight queryOrdinal hits state =
        .ok next ∧
      next.accumulator = callsFrom queryWeight state.accumulator
        (tokenCalls (fun hit => map.nodeDoc hit.nodeId) uniqueDocsPerToken queryOrdinal
          state.tokenSeen hits) := by
  induction hits generalizing state with
  | nil => exact ⟨state, rfl, rfl⟩
  | cons hit hits ih =>
    have later := ih (fun other member => inside other (List.mem_cons_of_mem _ member))
      fun other member => tid other (List.mem_cons_of_mem _ member)
    have named : nameHit (.sidecar map) state.known hit =
        .ok ⟨map.nodeDoc hit.nodeId, hit, state.known⟩ := by
      rw [nameHit]
      rw [if_neg (not_le.mpr (inside hit List.mem_cons_self)), tid hit List.mem_cons_self]
    rw [accumulateHits, named, tokenCalls]
    simp only [bind, Except.bind]
    by_cases known : map.nodeDoc hit.nodeId ∈ state.tokenSeen
    · simp only [known, not_true_eq_false, decide_false, Bool.false_eq_true, if_false, if_true]
      exact later _
    · simp only [known, not_false_eq_true, decide_true, if_true, if_false, List.length_cons]
      by_cases enough : uniqueDocsPerToken ≤ state.tokenSeen.length + 1
      · rw [if_pos enough, if_pos enough]
        exact ⟨_, rfl, rfl⟩
      · rw [if_neg enough, if_neg enough]
        exact later _

theorem resolveDocId_spec {known : List ItemPointer} (distinct : known.Nodup)
    (heaptid : ItemPointer) :
    (resolveDocId known heaptid).2.Nodup ∧ known <+: (resolveDocId known heaptid).2 ∧
      ∀ final, (resolveDocId known heaptid).2 <+: final →
        (resolveDocId known heaptid).1 = final.idxOf heaptid := by
  rw [resolveDocId]
  by_cases old : heaptid ∈ known
  · rw [if_pos old]
    refine ⟨distinct, List.prefix_refl _, ?_⟩
    rintro final ⟨more, rfl⟩
    exact (List.idxOf_append_of_mem old).symm
  · rw [if_neg old]
    refine ⟨?_, List.prefix_append _ _, ?_⟩
    · exact List.nodup_append.mpr ⟨distinct, List.nodup_singleton _, fun one member other single =>
        by rw [List.mem_singleton.mp single]; exact fun same => old (same ▸ member)⟩
    · rintro final ⟨more, rfl⟩
      rw [List.append_assoc, List.idxOf_append_of_notMem old, List.singleton_append,
        List.idxOf_cons_self, Nat.add_zero]

theorem hashed_hits (hits : List (GraphResult ItemPointer K)) (state : TokenState queryCount K)
    (distinct : state.known.Nodup) :
    ∃ next, accumulateHits .heapTidHash uniqueDocsPerToken queryWeight queryOrdinal hits state =
        .ok next ∧ next.known.Nodup ∧ state.known <+: next.known ∧
      ∀ final, next.known <+: final → next.accumulator = callsFrom queryWeight state.accumulator
        (tokenCalls (fun hit => final.idxOf hit.heaptid) uniqueDocsPerToken queryOrdinal
          state.tokenSeen hits) := by
  induction hits generalizing state with
  | nil => exact ⟨state, rfl, distinct, List.prefix_refl _, fun _ _ => rfl⟩
  | cons hit hits ih =>
    obtain ⟨nodup, grown, named⟩ := resolveDocId_spec distinct hit.heaptid
    rw [accumulateHits, nameHit]
    simp only [bind, Except.bind]
    generalize resolveDocId state.known hit.heaptid = resolved at nodup grown named
    by_cases known : resolved.1 ∈ state.tokenSeen
    · simp only [known, not_true_eq_false, decide_false, Bool.false_eq_true, if_false]
      obtain ⟨next, run, distinct, extended, calls⟩ := ih ⟨resolved.2, state.tokenSeen, _⟩ nodup
      refine ⟨next, run, distinct, grown.trans extended, fun final kept => ?_⟩
      rw [calls final kept, tokenCalls, ← named final (extended.trans kept), if_pos known]
      rfl
    · simp only [known, not_false_eq_true, decide_true, if_true, List.length_cons]
      by_cases enough : uniqueDocsPerToken ≤ state.tokenSeen.length + 1
      · rw [if_pos enough]
        refine ⟨_, rfl, nodup, grown, fun final kept => ?_⟩
        rw [tokenCalls, ← named final kept, if_neg known, if_pos enough]
        rfl
      · rw [if_neg enough]
        obtain ⟨next, run, distinct, extended, calls⟩ :=
          ih ⟨resolved.2, resolved.1 :: state.tokenSeen, _⟩ nodup
        refine ⟨next, run, distinct, grown.trans extended, fun final kept => ?_⟩
        rw [calls final kept, tokenCalls, ← named final (extended.trans kept), if_neg known,
          if_neg enough]
        rfl

end Naming

/-! ### All tokens -/

namespace TokenScan

variable {scan : TokenScan queryCount K}

/-- A hit of a live node, under the TID of the node. -/
def Genuine (scan : TokenScan queryCount K) (hit : GraphResult ItemPointer K) : Prop :=
  hit.nodeId ∈ scan.liveNodes ∧ hit.heaptid = scan.graph.heaptid hit.nodeId

structure Scanned (scan : TokenScan queryCount K)
    (hits : Fin queryCount → List (GraphResult ItemPointer K)) : Prop where
  returned : ∀ qi, exactTokenScan (scoredBy scan.graph (scan.tokenDistance qi)) scan.rawTarget =
    .ok (hits qi)
  nodes : ∀ qi, (hits qi).Perm
    (scan.liveNodes.map (scoredBy scan.graph (scan.tokenDistance qi)).scored)
  sorted : ∀ qi, (hits qi).Pairwise fun hit other => hit.distance ≤ other.distance

theorem Unlimited.scanned (unlimited : scan.Unlimited) : ∃ hits, scan.Scanned hits := by
  have each (qi : Fin queryCount) :=
    exactTokenScan_ok (scoredBy scan.graph (scan.tokenDistance qi)) unlimited.loaded scan.liveNodes
      rfl unlimited.nodes
  choose hits returned nodes sorted using each
  exact ⟨hits, returned, nodes, sorted⟩

def calls (scan : TokenScan queryCount K) (hits : Fin queryCount → List (GraphResult ItemPointer K))
    (name : GraphResult ItemPointer K → Nat) (tokens : List (Fin queryCount)) :
    List (TokenHit Nat queryCount K) :=
  tokens.flatMap fun qi =>
    if scan.skipQueryToken qi then [] else tokenCalls name scan.uniqueDocsPerToken qi [] (hits qi)

variable {hits : Fin queryCount → List (GraphResult ItemPointer K)}

theorem Scanned.genuine (scanned : scan.Scanned hits) {qi : Fin queryCount}
    {hit : GraphResult ItemPointer K} (member : hit ∈ hits qi) :
    scan.Genuine hit ∧ hit.distance = scan.tokenDistance qi hit.nodeId := by
  obtain ⟨nodeId, live, rfl⟩ := List.mem_map.mp ((scanned.nodes qi).mem_iff.mp member)
  exact ⟨⟨live, rfl⟩, rfl⟩

theorem calls_cons (name : GraphResult ItemPointer K → Nat) (qi : Fin queryCount)
    (tokens : List (Fin queryCount)) :
    scan.calls hits name (qi :: tokens) =
      (if scan.skipQueryToken qi then []
        else tokenCalls name scan.uniqueDocsPerToken qi [] (hits qi)) ++
        scan.calls hits name tokens :=
  List.flatMap_cons

theorem sidecar_tokens (scanned : scan.Scanned hits) {map : DocMapSidecar}
    (mapped : scan.MappedBy map) (tokens : List (Fin queryCount))
    (state : TokenState queryCount K) :
    ∃ next, tokens.foldlM (scan.scanToken (.sidecar map)) state = .ok next ∧
      next.accumulator = callsFrom scan.queryWeight state.accumulator
        (scan.calls hits (fun hit => map.nodeDoc hit.nodeId) tokens) := by
  induction tokens generalizing state with
  | nil => exact ⟨state, rfl, rfl⟩
  | cons qi tokens ih =>
    rw [List.foldlM_cons, scanToken, calls_cons]
    by_cases skipped : scan.skipQueryToken qi = true
    · rw [if_pos skipped, if_pos skipped]
      exact ih state
    · rw [if_neg skipped, if_neg skipped, scanned.returned]
      obtain ⟨next, run, stored⟩ := sidecar_hits scan.uniqueDocsPerToken scan.queryWeight qi
        (fun hit member => mapped.inside _ (scanned.genuine member).1.1)
        (fun hit member => by
          rw [mapped.tid _ (scanned.genuine member).1.1, (scanned.genuine member).1.2])
        { state with tokenSeen := [] }
      simp only [bind, Except.bind]
      rw [run]
      obtain ⟨final, rest, result⟩ := ih next
      refine ⟨final, rest, ?_⟩
      rw [result, stored, callsFrom, callsFrom, ← List.foldl_append]
      rfl

theorem hashed_tokens (scanned : scan.Scanned hits) (tokens : List (Fin queryCount))
    (state : TokenState queryCount K) (distinct : state.known.Nodup) :
    ∃ next, tokens.foldlM (scan.scanToken .heapTidHash) state = .ok next ∧ next.known.Nodup ∧
      state.known <+: next.known ∧
      ∀ final, next.known <+: final → next.accumulator =
        callsFrom scan.queryWeight state.accumulator
          (scan.calls hits (fun hit => final.idxOf hit.heaptid) tokens) := by
  induction tokens generalizing state with
  | nil => exact ⟨state, rfl, distinct, List.prefix_refl _, fun _ _ => rfl⟩
  | cons qi tokens ih =>
    simp only [List.foldlM_cons, scanToken, calls_cons]
    by_cases skipped : scan.skipQueryToken qi = true
    · simp only [skipped, if_true]
      exact ih state distinct
    · simp only [skipped, scanned.returned]
      obtain ⟨next, run, distinct, grown, stored⟩ := hashed_hits scan.uniqueDocsPerToken
        scan.queryWeight qi (hits qi) { state with tokenSeen := [] } distinct
      simp only [bind, Except.bind, run]
      obtain ⟨last, rest, distinct, extended, result⟩ := ih next distinct
      refine ⟨last, rest, distinct, grown.trans extended, fun final kept => ?_⟩
      rw [result final kept, stored final (extended.trans kept), callsFrom, callsFrom,
        ← List.foldl_append]
      rfl

def Tells (scan : TokenScan queryCount K) (name : GraphResult ItemPointer K → Nat) : Prop :=
  ∀ hit hit', scan.Genuine hit → scan.Genuine hit' →
    (name hit = name hit' ↔ hit.heaptid = hit'.heaptid)

/-- **Both ways of naming** make the calls of one naming that tells documents apart. -/
theorem named_run (scanned : scan.Scanned hits) {source : DocMapSource}
    (named : scan.NamedBy source) (arena : Arena) :
    ∃ name next, scan.exactTokens source arena = .ok next ∧ scan.Tells name ∧
      next.accumulator = accumulateAll scan.queryWeight arena
        (scan.calls hits name (List.finRange queryCount)) := by
  rcases source with map | _
  · obtain ⟨next, run, stored⟩ := sidecar_tokens scanned named (List.finRange queryCount)
      ⟨[], [], ⟨fun _ => none, arena⟩⟩
    refine ⟨_, next, run, ?_, stored⟩
    intro hit hit' genuine genuine'
    constructor
    · intro same
      rw [genuine.2, genuine'.2, ← named.tid _ genuine.1, ← named.tid _ genuine'.1]
      exact congrArg map.docTid same
    · intro same
      apply named.whole _ genuine.1 _ genuine'.1
      rw [← genuine.2, ← genuine'.2, same]
  · obtain ⟨next, run, _, _, stored⟩ := hashed_tokens scanned (List.finRange queryCount)
      ⟨[], [], ⟨fun _ => none, arena⟩⟩ List.nodup_nil
    -- numbers for all live documents
    refine ⟨_, next, run, ?_, stored (next.known ++ scan.liveDocuments) (List.prefix_append _ _)⟩
    intro hit hit' genuine _
    have inside : hit.heaptid ∈ next.known ++ scan.liveDocuments := by
      apply List.mem_append_right
      rw [genuine.2]
      exact List.mem_dedup.mpr (List.mem_map_of_mem genuine.1)
    exact List.idxOf_inj inside

section Stream

variable {name : GraphResult ItemPointer K → Nat}

theorem mem_calls {tokens : List (Fin queryCount)} {call : TokenHit Nat queryCount K}
    (member : call ∈ scan.calls hits name tokens) :
    scan.skipQueryToken call.queryOrdinal = false ∧ call.hit ∈ hits call.queryOrdinal ∧
      call.key = name call.hit := by
  obtain ⟨qi, _, inside⟩ := List.mem_flatMap.mp member
  by_cases skipped : scan.skipQueryToken qi = true
  · rw [if_pos skipped] at inside
    exact absurd inside List.not_mem_nil
  · rw [if_neg skipped] at inside
    obtain ⟨found, key, rfl⟩ := mem_tokenCalls inside
    exact ⟨Bool.eq_false_iff.mpr skipped, found, key⟩

theorem names_le (scanned : scan.Scanned hits) (tells : scan.Tells name) (qi : Fin queryCount) :
    ((hits qi).map name).toFinset.card ≤ scan.liveDocuments.length := by
  classical
  let nameOf (heaptid : ItemPointer) : Nat :=
    if found : ∃ hit ∈ hits qi, hit.heaptid = heaptid then name found.choose else 0
  have same : ((hits qi).map name).toFinset ⊆ scan.liveDocuments.toFinset.image nameOf := by
    intro docId member
    obtain ⟨hit, inside, rfl⟩ := List.mem_map.mp (List.mem_toFinset.mp member)
    have genuine := (scanned.genuine inside).1
    refine Finset.mem_image.mpr ⟨hit.heaptid, ?_, ?_⟩
    · rw [List.mem_toFinset, genuine.2]
      exact List.mem_dedup.mpr (List.mem_map_of_mem genuine.1)
    · have found : ∃ other ∈ hits qi, other.heaptid = hit.heaptid := ⟨hit, inside, rfl⟩
      have chosen := found.choose_spec
      change (if found : ∃ other ∈ hits qi, other.heaptid = hit.heaptid then name found.choose
        else 0) = name hit
      rw [dif_pos found]
      exact (tells _ _ (scanned.genuine chosen.1).1 genuine).mpr chosen.2
  calc ((hits qi).map name).toFinset.card
      ≤ (scan.liveDocuments.toFinset.image nameOf).card := Finset.card_le_card same
    _ ≤ scan.liveDocuments.toFinset.card := Finset.card_image_le
    _ ≤ scan.liveDocuments.length := List.toFinset_card_le _

theorem calls_cover (unlimited : scan.Unlimited) (scanned : scan.Scanned hits)
    (tells : scan.Tells name) {qi : Fin queryCount} (unskipped : scan.skipQueryToken qi = false)
    {nodeId : Nat} (live : nodeId ∈ scan.liveNodes) {hit : GraphResult ItemPointer K}
    (genuine : scan.Genuine hit) (same : hit.heaptid = scan.graph.heaptid nodeId) :
    ∃ call ∈ scan.calls hits name (List.finRange queryCount), call.key = name hit ∧
      call.queryOrdinal = qi ∧ call.hit.distance ≤ scan.tokenDistance qi nodeId := by
  have inside : (scoredBy scan.graph (scan.tokenDistance qi)).scored nodeId ∈ hits qi :=
    (scanned.nodes qi).mem_iff.mpr (List.mem_map_of_mem live)
  have few : (([] : List Nat).toFinset ∪ ((hits qi).map name).toFinset).card ≤
      scan.uniqueDocsPerToken := by
    rw [List.toFinset_nil, Finset.empty_union]
    exact (names_le scanned tells qi).trans unlimited.documents
  rcases tokenCalls_covers qi List.nodup_nil (scanned.sorted qi) few inside with
    early | ⟨call, member, key, below⟩
  · exact absurd early List.not_mem_nil
  · refine ⟨call, List.mem_flatMap.mpr ⟨qi, List.mem_finRange qi, ?_⟩, ?_,
      (mem_tokenCalls member).2.2, below⟩
    · rw [if_neg (by simp [unskipped])]
      exact member
    · rw [key]
      exact (tells _ _ (scanned.genuine inside).1 genuine).mpr same.symm

/-- **The best similarities** of the calls are those that are sought. -/
theorem bestSimilarityOf_calls (unlimited : scan.Unlimited) (scanned : scan.Scanned hits)
    (tells : scan.Tells name) {hit : GraphResult ItemPointer K} (genuine : scan.Genuine hit) :
    bestSimilarityOf (scan.calls hits name (List.finRange queryCount)) (name hit) =
      scan.sought hit.heaptid := by
  funext qi
  -- a call of the document is a hit of one of its nodes
  have owned {similarity : K}
      (member : similarity ∈ similarities (scan.calls hits name (List.finRange queryCount))
        (name hit) qi) :
      scan.skipQueryToken qi = false ∧ similarity ∈ (scan.liveNodes.filter fun nodeId =>
        scan.graph.heaptid nodeId = hit.heaptid).map fun nodeId =>
          -scan.tokenDistance qi nodeId := by
    obtain ⟨call, found, rfl⟩ := List.mem_map.mp member
    obtain ⟨inside, here⟩ := List.mem_filter.mp found
    obtain ⟨key, rfl⟩ := of_decide_eq_true here
    obtain ⟨unskipped, listed, named⟩ := mem_calls inside
    obtain ⟨own, distance⟩ := scanned.genuine listed
    have tid : call.hit.heaptid = hit.heaptid := (tells _ _ own genuine).mp (named ▸ key)
    refine ⟨unskipped, List.mem_map.mpr ⟨call.hit.nodeId, List.mem_filter.mpr ⟨own.1, ?_⟩, ?_⟩⟩
    · rw [decide_eq_true_iff, ← own.2, tid]
    · rw [distance]
  rw [bestSimilarityOf, sought]
  by_cases skipped : scan.skipQueryToken qi = true
  · rw [if_pos skipped, List.max?_eq_none_iff]
    apply List.eq_nil_iff_forall_not_mem.mpr
    intro similarity member
    exact absurd (owned member).1 (by simp [skipped])
  · rw [if_neg skipped, tokenMaxSim]
    have unskipped : scan.skipQueryToken qi = false := Bool.eq_false_iff.mpr skipped
    generalize listed : ((scan.liveNodes.filter fun nodeId =>
      scan.graph.heaptid nodeId = hit.heaptid).map fun nodeId =>
        -scan.tokenDistance qi nodeId) = own at owned
    rcases known : own.max? with _ | best
    · rw [List.max?_eq_none_iff] at known
      have node : -scan.tokenDistance qi hit.nodeId ∈ own := by
        rw [← listed]
        refine List.mem_map_of_mem (List.mem_filter.mpr ⟨genuine.1, ?_⟩)
        rw [decide_eq_true_iff, genuine.2]
      rw [known] at node
      exact absurd node List.not_mem_nil
    · obtain ⟨member, above⟩ := List.max?_eq_some_iff.mp known
      rw [← listed] at member
      obtain ⟨nodeId, inside, rfl⟩ := List.mem_map.mp member
      obtain ⟨live, same⟩ := List.mem_filter.mp inside
      obtain ⟨call, made, key, rfl, below⟩ :=
        calls_cover unlimited scanned tells unskipped live genuine (of_decide_eq_true same).symm
      have reached : -call.hit.distance ∈
          similarities (scan.calls hits name (List.finRange queryCount)) (name hit)
            call.queryOrdinal :=
        List.mem_map.mpr ⟨call, List.mem_filter.mpr ⟨made, decide_eq_true ⟨key, rfl⟩⟩, rfl⟩
      have equal : -call.hit.distance = -scan.tokenDistance call.queryOrdinal nodeId :=
        le_antisymm (above _ (owned reached).2) (neg_le_neg below)
      apply List.max?_eq_some_iff.mpr
      exact ⟨equal ▸ reached, fun other found => above other (owned found).2⟩

theorem sought_isSome {nodeId : Nat} (live : nodeId ∈ scan.liveNodes) (qi : Fin queryCount) :
    (scan.sought (scan.graph.heaptid nodeId) qi).isSome = !scan.skipQueryToken qi := by
  rw [sought]
  by_cases skipped : scan.skipQueryToken qi = true
  · rw [if_pos skipped, skipped]
    rfl
  · rw [if_neg skipped, Bool.eq_false_iff.mpr skipped, Bool.not_false, Option.isSome_iff_ne_none,
      tokenMaxSim, ne_eq, List.max?_eq_none_iff]
    have inside : nodeId ∈ scan.liveNodes.filter fun other =>
        scan.graph.heaptid other = scan.graph.heaptid nodeId :=
      List.mem_filter.mpr ⟨live, decide_eq_true rfl⟩
    exact List.ne_nil_of_mem (List.mem_map_of_mem inside)

structure Scores (scan : TokenScan queryCount K) (heaptid : ItemPointer)
    (entry : DocEntry queryCount K) : Prop where
  score : entry.score = scan.weightedMaxSim heaptid
  matchedTokens : entry.matchedTokens =
    (Finset.univ.filter fun qi => scan.skipQueryToken qi = false).card

/-- An accumulator with exactly one entry for a live document, which has its score. -/
structure Finds (scan : TokenScan queryCount K) (heaptid : ItemPointer)
    (accumulator : Accumulator Nat queryCount K) : Prop where
  single : (∃ qi, scan.skipQueryToken qi = false) →
    ∃! key, (accumulator.docs key).map DocEntry.heaptid = some heaptid
  scores : ∀ key entry, accumulator.docs key = some entry → entry.heaptid = heaptid →
    scan.Scores heaptid entry

theorem calls_find (unlimited : scan.Unlimited) (scanned : scan.Scanned hits)
    (tells : scan.Tells name) (arena : Arena) {heaptid : ItemPointer}
    (document : heaptid ∈ scan.liveDocuments) :
    scan.Finds heaptid (accumulateAll scan.queryWeight arena
      (scan.calls hits name (List.finRange queryCount))) := by
  obtain ⟨nodeId, live, rfl⟩ := List.mem_map.mp (List.mem_dedup.mp document)
  let own : GraphResult ItemPointer K := ⟨nodeId, scan.graph.heaptid nodeId, 0, false⟩
  have genuine : scan.Genuine own := ⟨live, rfl⟩
  -- an entry with the TID stands under the name of the document
  have placed {key : Nat} {entry : DocEntry queryCount K}
      (found : (accumulateAll scan.queryWeight arena
        (scan.calls hits name (List.finRange queryCount))).docs key = some entry)
      (tid : entry.heaptid = scan.graph.heaptid nodeId) : key = name own := by
    obtain ⟨call, member, rfl, same⟩ := accumulateAll_heaptid arena _ found
    obtain ⟨_, listed, key⟩ := mem_calls member
    rw [key]
    exact (tells _ _ (scanned.genuine listed).1 genuine).mpr (same.trans tid)
  constructor
  · rintro ⟨qi, unskipped⟩
    obtain ⟨call, member, key, _, _⟩ :=
      calls_cover unlimited scanned tells unskipped live genuine rfl
    have holds := accumulateAll_holds scan.queryWeight arena
      (scan.calls hits name (List.finRange queryCount)) (name own)
    rcases found : (accumulateAll scan.queryWeight arena
      (scan.calls hits name (List.finRange queryCount))).docs (name own) with _ | entry
    · rw [found] at holds
      exact absurd key (holds call member)
    · obtain ⟨other, inside, same, tid⟩ := accumulateAll_heaptid arena _ found
      obtain ⟨_, listed, named⟩ := mem_calls inside
      have whose : entry.heaptid = scan.graph.heaptid nodeId := by
        rw [← tid]
        exact (tells _ _ (scanned.genuine listed).1 genuine).mp (named.symm.trans same)
      refine ⟨name own, ?_, ?_⟩
      · dsimp only
        rw [found, Option.map_some, whose]
      · intro key' mapped
        obtain ⟨entry', found', tid'⟩ := Option.map_eq_some_iff.mp mapped
        exact placed found' tid'
  · intro key entry found tid
    have holds := accumulateAll_holds scan.queryWeight arena
      (scan.calls hits name (List.finRange queryCount)) key
    rw [found, placed found tid] at holds
    have sums := holds.2
    rw [bestSimilarityOf_calls unlimited scanned tells genuine] at sums
    refine ⟨sums.score, ?_⟩
    rw [sums.matchedTokens]
    congr 1
    ext qi
    rw [Finset.mem_filter, Finset.mem_filter, sought_isSome live, Bool.not_eq_true']

end Stream

/-- **The scan finds every live document** with its weighted MaxSim, under either naming. -/
theorem exactTokens_maxSim (scan : TokenScan queryCount K) (unlimited : scan.Unlimited)
    {source : DocMapSource} (named : scan.NamedBy source) (arena : Arena) :
    ∃ next, scan.exactTokens source arena = .ok next ∧
      ∀ heaptid ∈ scan.liveDocuments, scan.Finds heaptid next.accumulator := by
  obtain ⟨hits, scanned⟩ := unlimited.scanned
  obtain ⟨name, next, run, tells, stored⟩ := named_run scanned named arena
  refine ⟨next, run, fun heaptid document => ?_⟩
  rw [stored]
  exact calls_find unlimited scanned tells arena document

end TokenScan

/-- Nodes 0 and 2 stand for the tokens of one row, node 1 for the token of another; node 3 is
dead. -/
def twoRows : ScanGraph ItemPointer ℚ where
  tqNodeCount := 4
  nodes := fun nodeId => ⟨true, decide (nodeId = 3), none, 0⟩
  heaptid := fun nodeId => if nodeId = 1 then ⟨0, 2⟩ else ⟨0, 1⟩
  loadCodePage := fun _ => true
  loadAdjPage := fun _ => true
  neighbors := fun _ => []
  scoreNode := fun _ => 0

def twoRowScan : TokenScan 2 ℚ where
  graph := twoRows
  tokenDistance := fun qi nodeId => (qi.val : ℚ) - (nodeId : ℚ)
  queryWeight := fun _ => 1
  skipQueryToken := fun _ => false
  rawTarget := 4
  uniqueDocsPerToken := 2

def twoRowMap : DocMapSidecar where
  docCount := 2
  nodeDoc := fun nodeId => if nodeId = 1 then 1 else 0
  docTid := fun docId => if docId = 1 then ⟨0, 2⟩ else ⟨0, 1⟩

theorem twoRowScan_unlimited : twoRowScan.Unlimited :=
  ⟨fun _ _ => rfl, by decide, by decide⟩

theorem twoRowScan_mapped : twoRowScan.MappedBy twoRowMap :=
  ⟨by decide, by decide, by decide⟩

end TurboHybrid.Accumulate
