/-
**The collector of a build, and its spills.**

The terms of the documents are collected in memory. Where a check finds the memory budget exceeded
the collected terms are sorted and written to a run of their own. At the end the base is written
from the sorted terms, or by merging the runs if there are any.

* `buildCollect`: the documents of a heap collected, with spills wherever a check says so;
* `writeBasePages`: the base written from what was collected;
* `buildCollect_collected`: the runs and the terms in memory are those of the documents;
* `spilledBuild_eq`: the base does not depend on the spills.
-/
import Mathlib.Data.List.Lex
import TurboHybrid.Library.KWayMerge
import TurboHybrid.Library.Results
import TurboHybrid.Store.Delta
import TurboHybrid.Store.Writer

namespace TurboHybrid.Store

open TurboHybrid.Index TurboHybrid.Library TurboHybrid.Library.BinaryHeap TurboHybrid.Query
  TurboHybrid.Scan

/-! ### Terms and their order -/

structure TermTuple where
  termHash : UInt64
  term : Lexeme
  nodeId : Nat
  tf : Nat
  deriving DecidableEq, Repr

def memcmp : Lexeme → Lexeme → Ordering
  | one :: ones, other :: others =>
    if one < other then .lt else if other < one then .gt else memcmp ones others
  | _, _ => .eq

def termCompare (one other : TermTuple) : Ordering :=
  if one.termHash ≠ other.termHash then if one.termHash < other.termHash then .lt else .gt
  else if one.term.length ≠ other.term.length then
    if one.term.length < other.term.length then .lt else .gt
  else
    match memcmp one.term other.term with
    | .eq => compare one.nodeId other.nodeId
    | order => order

def termLess (one other : TermTuple) : Bool := termCompare one other == .lt

def sameTerm (one other : TermTuple) : Bool :=
  one.termHash == other.termHash && one.term.length == other.term.length &&
    memcmp one.term other.term == .eq

def termKey (tuple : TermTuple) : ℕ ×ₗ ℕ ×ₗ List ℕ ×ₗ ℕ :=
  toLex (tuple.termHash.toNat, toLex (tuple.term.length,
    toLex (tuple.term.map UInt8.toNat, tuple.nodeId)))

/-- The terms in order. Their keys differ, so any sort gives this one. -/
def sortTerms (terms : List TermTuple) : List TermTuple :=
  terms.insertionSort fun one other => termKey one ≤ termKey other

/-! ### The collector -/

structure BuildDoc where
  nodeId : Nat
  heaptid : ItemPointer
  docLen : Nat
  deriving DecidableEq, Repr

/-- What is collected. The budget checks made so far are counted. -/
structure Collector where
  docs : List BuildDoc
  terms : List TermTuple
  runs : List (List TermTuple)
  checks : Nat
  deriving DecidableEq, Repr

def Collector.empty : Collector := ⟨[], [], [], 0⟩

def Collector.totalDocLen (collector : Collector) : Nat :=
  (collector.docs.map BuildDoc.docLen).sum

def Collector.maxDocLen (collector : Collector) : Nat :=
  maxOf (collector.docs.map BuildDoc.docLen)

def spillTermRun (collector : Collector) : Collector :=
  if collector.terms = [] then collector
  else { collector with runs := collector.runs ++ [sortTerms collector.terms], terms := [] }

inductive BuildError where
  | exceededBudget
  deriving DecidableEq, Repr

def BuildError.message : BuildError → String
  | .exceededBudget => "pgturbohybrid BM25 build collector exceeded maintenance_work_mem"

/-- A check of the budget, which is exceeded at the checks that are told. -/
def checkBudget (exceeded : Nat → Bool) (collector : Collector) : Except BuildError Collector :=
  let checked := { collector with checks := collector.checks + 1 }
  if exceeded collector.checks then
    if collector.terms = [] then .error .exceededBudget else .ok (spillTermRun checked)
  else .ok checked

/-- The arrays are checked when they grow: before the document is stored. -/
def appendBuildDoc (exceeded : Nat → Bool) (collector : Collector) (doc : BuildDoc) :
    Except BuildError Collector := do
  let collector ← checkBudget exceeded collector
  return { collector with docs := collector.docs ++ [doc] }

/-- A term is checked for its tuple, for its bytes and once it is stored. -/
def appendBuildTerm (exceeded : Nat → Bool) (collector : Collector) (tuple : TermTuple) :
    Except BuildError Collector := do
  let collector ← checkBudget exceeded collector
  let collector ← checkBudget exceeded collector
  checkBudget exceeded { collector with terms := collector.terms ++ [tuple] }

/-- A row of the heap, whose node is known by its tuple identifier. -/
structure BuildRow where
  nodeId : Nat
  heaptid : ItemPointer
  vector : List WordEntry

def BuildRow.terms (row : BuildRow) : List TermTuple :=
  (collectVectorTerms row.vector).map fun term => ⟨term.termHash, term.term, row.nodeId, term.tf⟩

def BuildRow.doc (row : BuildRow) : BuildDoc := ⟨row.nodeId, row.heaptid, docLen row.vector⟩

def buildCallback (exceeded : Nat → Bool) (collector : Collector) (row : BuildRow) :
    Except BuildError Collector := do
  let collector ← appendBuildDoc exceeded collector row.doc
  row.terms.foldlM (appendBuildTerm exceeded) collector

/-- After the last document: the last run, or the sort in memory. -/
def finishCollect (collector : Collector) : Collector :=
  if collector.runs ≠ [] then spillTermRun collector
  else { collector with terms := sortTerms collector.terms }

def buildCollect (exceeded : Nat → Bool) (rows : List BuildRow) : Except BuildError Collector := do
  let collector ← checkBudget exceeded .empty
  let collector ← rows.foldlM (buildCallback exceeded) collector
  return finishCollect collector

/-! ### The base -/

/-- The part of the sorted terms, or of the merge, that belongs to one term after the other. -/
def termGroups : Nat → List TermTuple → List (List TermTuple)
  | 0, _ => []
  | _, [] => []
  | fuel + 1, first :: rest =>
    (first :: rest.takeWhile (sameTerm first)) ::
      termGroups fuel (rest.dropWhile (sameTerm first))

def groupPostings (group : List TermTuple) : List TermPosting :=
  group.map fun tuple => ⟨tuple.nodeId, tuple.tf⟩

def groupName (group : List TermTuple) : TermName :=
  match group with
  | [] => ⟨0, []⟩
  | first :: _ => ⟨first.termHash, first.term⟩

variable {R : Type} [Field R] [LinearOrder R]

/-- One term after the other from the merge of the runs. -/
def writeLexiconAndPostingsFromRuns (options : WriterOptions R) (docs : DocTotals)
    (runs : List (List TermTuple)) (sink : TermSink R) :
    Except (WriteFailure R) (TermSink R) :=
  let merged := mergeRuns termLess runs
  (termGroups merged.length merged).foldlM (fun sink group =>
    writeTermFromRuns options docs sink (groupName group) (groupPostings group)) sink

/-- One term after the other from the sorted terms, unless there are runs. -/
def writeLexiconAndPostings (options : WriterOptions R) (docs : DocTotals) (collector : Collector)
    (sink : TermSink R) : Except (WriteFailure R) (TermSink R) :=
  if collector.runs ≠ [] then writeLexiconAndPostingsFromRuns options docs collector.runs sink
  else
    (termGroups collector.terms.length collector.terms).foldlM (fun sink group =>
      writeTerm options docs sink (groupName group) (groupPostings group)) sink

def maxDocsPerTuple : Nat := (8192 / 2 - 8) / 4

/-- The lengths of all nodes; a node that has no document has none. -/
def denseDocLens (docs : List BuildDoc) (tidNodeCount : Nat) : List Nat :=
  docs.foldl (fun lens doc => lens.set doc.nodeId doc.docLen) (List.replicate tidNodeCount 0)

def writeDocStatsTuple (options : WriterOptions R) (state : Disk R × ChainTail × Nat)
    (docLens : List Nat) : Except (WriteFailure R) (Disk R × ChainTail × Nat) := do
  let added ← addItem options.useWal .docStats state.1 state.2.1 (.docStats ⟨state.2.2, docLens⟩)
  return (added.disk, added.tail, state.2.2 + docLens.length)

/-- The lengths by node, and the chain they are written to. -/
def writeDocStats (options : WriterOptions R) (disk : Disk R) (docs : List BuildDoc)
    (tidNodeCount : Nat) : Except (WriteFailure R) (Disk R × Option BlockNumber × List Nat) :=
  if docs = [] then .ok (disk, none, [])
  else if docs.any fun doc => decide (tidNodeCount ≤ doc.nodeId) then
    .error ⟨.nodeIdOutOfRange, disk⟩
  else do
    let lens := denseDocLens docs tidNodeCount
    let written ← (chunksOf maxDocsPerTuple lens.length lens).foldlM (writeDocStatsTuple options)
      (disk, ⟨none, none, 0⟩, 0)
    return (written.1, written.2.1.start, lens)

/-- What the base consists of. The chain of heads starts, from the zeroed collector, at block zero. -/
structure BasePages (R : Type) where
  docStatsStartBlkno : Option BlockNumber
  sink : TermSink R

def BasePages.uniqueTerms (base : BasePages R) : Nat := base.sink.termId

def startSink (disk : Disk R) : TermSink R :=
  ⟨disk, ⟨none, none, 0⟩, ⟨none, none, 0⟩, ⟨none, none, 0⟩, ⟨some 0, none, 0⟩, 0⟩

/-- **The base of what was collected.** -/
def writeBasePages (options : WriterOptions R) (disk : Disk R) (collector : Collector)
    (tidNodeCount : Nat) : Except (WriteFailure R) (BasePages R) := do
  let docStats ← writeDocStats options disk collector.docs tidNodeCount
  let docs : DocTotals := ⟨collector.docs.length, collector.totalDocLen, docStats.2.2⟩
  let sink ← writeLexiconAndPostings options docs collector (startSink docStats.1)
  return ⟨docStats.2.1, sink⟩

/-! ### The order of the terms -/

section Order

variable {one other : TermTuple}

theorem memcmp_eq_iff {one other : Lexeme} (same : one.length = other.length) :
    memcmp one other = .eq ↔ one = other := by
  induction one generalizing other with
  | nil =>
    rw [List.length_eq_zero_iff.mp same.symm]
    exact ⟨fun _ => rfl, fun _ => rfl⟩
  | cons byte rest ih =>
    cases other with
    | nil => cases same
    | cons byte' rest' =>
      rw [memcmp]
      split_ifs with below above
      · exact ⟨fun absurd => (nomatch absurd), fun equal =>
          absurd (List.cons.inj equal).1 (UInt8.ne_of_lt below)⟩
      · exact ⟨fun absurd => (nomatch absurd), fun equal =>
          absurd (List.cons.inj equal).1.symm (UInt8.ne_of_lt above)⟩
      · have equal : byte = byte' :=
          UInt8.le_antisymm (UInt8.not_lt.mp above) (UInt8.not_lt.mp below)
        rw [ih (Nat.succ.inj same), equal, List.cons.injEq]
        exact ⟨fun rest => ⟨rfl, rest⟩, fun both => both.2⟩

theorem memcmp_lt_iff {one other : Lexeme} (same : one.length = other.length) :
    memcmp one other = .lt ↔ one.map UInt8.toNat < other.map UInt8.toNat := by
  induction one generalizing other with
  | nil =>
    rw [List.length_eq_zero_iff.mp same.symm]
    exact ⟨fun absurd => (nomatch absurd), fun less => absurd less (lt_irrefl _)⟩
  | cons byte rest ih =>
    cases other with
    | nil => cases same
    | cons byte' rest' =>
      rw [memcmp, List.map_cons, List.map_cons, List.cons_lt_cons_iff, ← UInt8.lt_iff_toNat_lt,
        UInt8.toNat_inj]
      split_ifs with below above
      · exact ⟨fun _ => Or.inl below, fun _ => rfl⟩
      · refine ⟨fun absurd => (nomatch absurd), ?_⟩
        rintro (less | ⟨equal, -⟩)
        · exact absurd less below
        · exact absurd equal.symm (UInt8.ne_of_lt above)
      · have equal : byte = byte' :=
          UInt8.le_antisymm (UInt8.not_lt.mp above) (UInt8.not_lt.mp below)
        rw [ih (Nat.succ.inj same)]
        exact ⟨fun less => Or.inr ⟨equal, less⟩, fun either =>
          either.elim (fun less => absurd less below) And.right⟩

/-- **The comparison compares keys.** -/
theorem termLess_compares : Compares termKey termLess := by
  intro one other
  rw [termLess, beq_iff_eq, termKey, termKey, Prod.Lex.toLex_lt_toLex, Prod.Lex.toLex_lt_toLex,
    Prod.Lex.toLex_lt_toLex]
  dsimp only
  rw [← UInt64.lt_iff_toNat_lt, UInt64.toNat_inj, termCompare]
  by_cases hash : one.termHash = other.termHash
  · rw [if_neg (not_not.mpr hash)]
    have notLess : ¬ one.termHash < other.termHash := hash ▸ UInt64.lt_irrefl _
    by_cases length : one.term.length = other.term.length
    · rw [if_neg (not_not.mpr length), ← memcmp_lt_iff length]
      have bytes : one.term.map UInt8.toNat = other.term.map UInt8.toNat ↔
          memcmp one.term other.term = .eq := by
        rw [memcmp_eq_iff length]
        exact (List.map_injective_iff.mpr fun _ _ => UInt8.toNat_inj.mp).eq_iff
      rw [bytes]
      cases memcmp one.term other.term with
      | lt => simp [hash, length]
      | gt => simp [hash, length]
      | eq => simp [hash, length, compare_lt_iff_lt]
    · rw [if_pos length]
      split_ifs with less
      · simp [hash, less]
      · simp [hash, less, length]
  · rw [if_pos hash]
    split_ifs with less
    · simp [less]
    · simp [less, hash]

theorem termKey_eq (equal : termKey one = termKey other) :
    one.term = other.term ∧ one.nodeId = other.nodeId := by
  have bytes : one.term.map UInt8.toNat = other.term.map UInt8.toNat :=
    congrArg (fun key => (ofLex (ofLex (ofLex key).2).2).1) equal
  have nodes : one.nodeId = other.nodeId :=
    congrArg (fun key => (ofLex (ofLex (ofLex key).2).2).2) equal
  exact ⟨(List.map_injective_iff.mpr fun _ _ => UInt8.toNat_inj.mp) bytes, nodes⟩

theorem sortTerms_perm (terms : List TermTuple) : (sortTerms terms).Perm terms :=
  List.perm_insertionSort _ _

theorem sortTerms_sorted (terms : List TermTuple) :
    (sortTerms terms).Pairwise fun one other => termKey one ≤ termKey other := by
  have : IsTrans TermTuple fun one other => termKey one ≤ termKey other :=
    ⟨fun _ _ _ => le_trans⟩
  have : Std.Total (α := TermTuple) fun one other => termKey one ≤ termKey other :=
    ⟨fun _ _ => le_total _ _⟩
  exact List.pairwise_insertionSort _ _

end Order

/-! ### What is collected -/

/-- The documents and the terms of a collector, those in the runs included. -/
structure Collected (collector : Collector) (docs : List BuildDoc) (terms : List TermTuple) :
    Prop where
  docs : collector.docs = docs
  perm : (collector.runs.flatten ++ collector.terms).Perm terms
  sorted : ∀ run ∈ collector.runs, run.Pairwise fun one other => termKey one ≤ termKey other
  inMemory : collector.runs = [] → collector.terms = terms

section Collect

variable {exceeded : Nat → Bool} {collector next : Collector} {docs : List BuildDoc}
  {terms : List TermTuple}

theorem Collected.spill (collected : Collected collector docs terms) :
    Collected (spillTermRun collector) docs terms := by
  unfold spillTermRun
  split_ifs with none
  · exact collected
  · refine ⟨collected.docs, ?_, fun run member => ?_, fun empty => ?_⟩
    · simp only [List.flatten_append, List.flatten_singleton, List.append_nil]
      exact ((sortTerms_perm _).append_left _).trans collected.perm
    · rcases List.mem_append.mp member with old | new
      · exact collected.sorted run old
      · rw [List.mem_singleton.mp new]
        exact sortTerms_sorted _
    · simp at empty

theorem Collected.check (collected : Collected collector docs terms)
    (done : checkBudget exceeded collector = .ok next) : Collected next docs terms := by
  unfold checkBudget at done
  dsimp only at done
  have counted : Collected { collector with checks := collector.checks + 1 } docs terms :=
    ⟨collected.docs, collected.perm, collected.sorted, collected.inMemory⟩
  split_ifs at done
  · rw [← Except.ok.inj done]
    exact counted.spill
  · rw [← Except.ok.inj done]
    exact counted

theorem Collected.addTerm (collected : Collected collector docs terms) (tuple : TermTuple) :
    Collected { collector with terms := collector.terms ++ [tuple] } docs (terms ++ [tuple]) :=
  ⟨collected.docs, by simpa using collected.perm.append_right [tuple], collected.sorted,
    fun empty => by rw [← collected.inMemory empty]⟩

theorem Collected.appendTerm (collected : Collected collector docs terms) {tuple : TermTuple}
    (done : appendBuildTerm exceeded collector tuple = .ok next) :
    Collected next docs (terms ++ [tuple]) := by
  obtain ⟨first, checked, rest⟩ := bind_ok done
  obtain ⟨second, checked', rest⟩ := bind_ok rest
  exact (((collected.check checked).check checked').addTerm tuple).check rest

theorem Collected.callback (collected : Collected collector docs terms) {row : BuildRow}
    (done : buildCallback exceeded collector row = .ok next) :
    Collected next (docs ++ [row.doc]) (terms ++ row.terms) := by
  obtain ⟨documented, appended, rest⟩ := bind_ok done
  obtain ⟨checked, check, stored⟩ := bind_ok appended
  have kept := collected.check check
  have added : Collected documented (docs ++ [row.doc]) terms := by
    rw [← Except.ok.inj stored]
    exact ⟨congrArg (· ++ [row.doc]) kept.docs, kept.perm, kept.sorted, kept.inMemory⟩
  have initially : Collected documented (docs ++ [row.doc]) (terms ++ []) := by
    rwa [List.append_nil]
  exact foldlM_invariant (fun taken state => Collected state (docs ++ [row.doc]) (terms ++ taken))
    (fun held stepped => by rw [← List.append_assoc]; exact held.appendTerm stepped) initially rest

theorem collected_rows {rows : List BuildRow} (collected : Collected collector docs terms)
    (done : rows.foldlM (buildCallback exceeded) collector = .ok next) :
    Collected next (docs ++ rows.map BuildRow.doc) (terms ++ rows.flatMap BuildRow.terms) := by
  have initially : Collected collector (docs ++ ([] : List BuildRow).map BuildRow.doc)
      (terms ++ ([] : List BuildRow).flatMap BuildRow.terms) := by
    simpa using collected
  refine foldlM_invariant (fun taken state =>
      Collected state (docs ++ taken.map BuildRow.doc) (terms ++ taken.flatMap BuildRow.terms))
    (fun held stepped => ?_) initially done
  rw [List.map_append, List.flatMap_append, ← List.append_assoc, ← List.append_assoc,
    List.map_singleton, List.flatMap_singleton]
  exact held.callback stepped

/-- **What is collected at the end**: the sorted terms in memory, or sorted runs of them. -/
theorem buildCollect_collected {rows : List BuildRow}
    (done : buildCollect exceeded rows = .ok next) :
    next.docs = rows.map BuildRow.doc ∧
      (next.runs = [] → next.terms = sortTerms (rows.flatMap BuildRow.terms)) ∧
      (next.runs ≠ [] → next.runs.flatten.Perm (rows.flatMap BuildRow.terms) ∧
        ∀ run ∈ next.runs, run.Pairwise fun one other => termKey one ≤ termKey other) := by
  obtain ⟨opened, check, rest⟩ := bind_ok done
  obtain ⟨scanned, scan, finished⟩ := bind_ok rest
  have initial : Collected Collector.empty [] [] :=
    ⟨rfl, List.Perm.refl _, fun _ absent => (nomatch absent), fun _ => rfl⟩
  have collected := collected_rows (initial.check check) scan
  rw [List.nil_append, List.nil_append] at collected
  rw [← Except.ok.inj finished]
  unfold finishCollect
  split_ifs with spilled
  · have final := collected.spill
    have used : (spillTermRun scanned).terms = [] := by
      unfold spillTermRun
      split_ifs with none
      · exact none
      · rfl
    have kept : (spillTermRun scanned).runs ≠ [] := by
      unfold spillTermRun
      split_ifs
      · exact spilled
      · simp
    refine ⟨final.docs, fun empty => absurd empty kept, fun _ => ⟨?_, final.sorted⟩⟩
    have perm := final.perm
    rwa [used, List.append_nil] at perm
  · refine ⟨collected.docs, fun empty => ?_, fun some => absurd some spilled⟩
    exact congrArg sortTerms (collected.inMemory empty)

end Collect

/-! ### Without spills -/

theorem appendBuildTerm_never (collector : Collector) (tuple : TermTuple) :
    ∃ next, appendBuildTerm (fun _ => false) collector tuple = .ok next ∧
      next.runs = collector.runs :=
  ⟨_, rfl, rfl⟩

theorem foldlM_never {Item : Type} {step : Collector → Item → Except BuildError Collector}
    (steps : ∀ collector item, ∃ next, step collector item = .ok next ∧
      next.runs = collector.runs) (items : List Item) (collector : Collector) :
    ∃ next, items.foldlM step collector = .ok next ∧ next.runs = collector.runs := by
  induction items generalizing collector with
  | nil => exact ⟨collector, rfl, rfl⟩
  | cons item rest ih =>
    obtain ⟨middle, stepped, same⟩ := steps collector item
    obtain ⟨next, done, same'⟩ := ih middle
    refine ⟨next, ?_, same'.trans same⟩
    rw [List.foldlM_cons, stepped]
    exact done

theorem buildCollect_never (rows : List BuildRow) :
    ∃ plain, buildCollect (fun _ => false) rows = .ok plain ∧ plain.runs = [] := by
  have callback (collector : Collector) (row : BuildRow) :
      ∃ next, buildCallback (fun _ => false) collector row = .ok next ∧
        next.runs = collector.runs :=
    foldlM_never appendBuildTerm_never row.terms
      { collector with docs := collector.docs ++ [row.doc], checks := collector.checks + 1 }
  obtain ⟨scanned, done, same⟩ := foldlM_never callback rows { Collector.empty with checks := 1 }
  have none : scanned.runs = [] := same
  refine ⟨finishCollect scanned, ?_, ?_⟩
  · rw [buildCollect]
    show (rows.foldlM (buildCallback fun _ => false) { Collector.empty with checks := 1 } >>= _) = _
    rw [done]
    rfl
  · rw [finishCollect, if_neg (not_not.mpr none)]
    exact none

/-! ### The same base -/

/-- The rows of a heap: each has a node of its own below the node count, and no lexeme twice. -/
structure Corpus where
  rows : List BuildRow
  tidNodeCount : Nat
  nodes : (rows.map BuildRow.nodeId).Nodup
  lexemes : ∀ row ∈ rows, (row.vector.map WordEntry.lexeme).Nodup
  known : ∀ row ∈ rows, row.nodeId < tidNodeCount
  count_le : tidNodeCount ≤ uint32Max

theorem Corpus.row_term {corpus : Corpus} {tuple : TermTuple}
    (member : tuple ∈ corpus.rows.flatMap BuildRow.terms) :
    ∃ row ∈ corpus.rows, ∃ entry ∈ row.vector,
      tuple = ⟨hashTerm entry.lexeme, entry.lexeme, row.nodeId, entry.tf⟩ := by
  obtain ⟨row, inside, held⟩ := List.mem_flatMap.mp member
  obtain ⟨term, collected, rfl⟩ := List.mem_map.mp held
  obtain ⟨entry, kept, rfl⟩ := List.mem_map.mp collected
  exact ⟨row, inside, entry, (List.mem_filter.mp kept).1, rfl⟩

/-- **The terms of a corpus have distinct keys.** -/
theorem Corpus.distinct (corpus : Corpus) :
    ∀ one ∈ corpus.rows.flatMap BuildRow.terms, ∀ other ∈ corpus.rows.flatMap BuildRow.terms,
      termKey one = termKey other → one = other := by
  intro one member other member' equal
  obtain ⟨row, inside, entry, held, rfl⟩ := Corpus.row_term member
  obtain ⟨row', inside', entry', held', rfl⟩ := Corpus.row_term member'
  obtain ⟨lexeme, node⟩ := termKey_eq equal
  obtain rfl := List.inj_on_of_nodup_map corpus.nodes inside inside' node
  obtain rfl := List.inj_on_of_nodup_map (corpus.lexemes row inside) held held' lexeme
  rfl

theorem termGroups_mem {fuel : Nat} {terms group : List TermTuple}
    (member : group ∈ termGroups fuel terms) :
    group ≠ [] ∧ ∀ tuple ∈ group, tuple ∈ terms := by
  induction fuel generalizing terms with
  | zero => cases member
  | succ fuel ih =>
    cases terms with
    | nil => cases member
    | cons first rest =>
      rw [termGroups] at member
      rcases List.mem_cons.mp member with rfl | later
      · refine ⟨List.cons_ne_nil _ _, fun tuple inside => ?_⟩
        rcases List.mem_cons.mp inside with rfl | taken
        · exact List.mem_cons_self
        · exact List.mem_cons_of_mem _ (List.takeWhile_subset _ taken)
      · obtain ⟨nonempty, within⟩ := ih later
        exact ⟨nonempty, fun tuple inside => List.mem_cons_of_mem _
          ((List.dropWhile_suffix _).subset (within tuple inside))⟩

section Same

variable {R : Type} [Field R] [LinearOrder R]

/-- **The merge of the runs writes what the sorted terms do.** -/
theorem writeFromRuns_eq (options : WriterOptions R) (docs : DocTotals) (corpus : Corpus)
    {collector plain : Collector} (spilled : collector.runs ≠ []) (inMemory : plain.runs = [])
    (sorted : plain.terms = sortTerms (corpus.rows.flatMap BuildRow.terms))
    (perm : collector.runs.flatten.Perm (corpus.rows.flatMap BuildRow.terms))
    (runs : ∀ run ∈ collector.runs, run.Pairwise fun one other => termKey one ≤ termKey other)
    (sink : TermSink R) :
    writeLexiconAndPostings options docs collector sink =
      writeLexiconAndPostings options docs plain sink := by
  have back := sortTerms_perm (corpus.rows.flatMap BuildRow.terms)
  have merged : mergeRuns termLess collector.runs = plain.terms := by
    rw [sorted]
    exact mergeRuns_eq termLess_compares runs (perm.trans back.symm) (sortTerms_sorted _)
      fun one member other member' => corpus.distinct one (back.subset member) other
        (back.subset member')
  rw [writeLexiconAndPostings, writeLexiconAndPostings, if_pos spilled,
    if_neg (not_not.mpr inMemory), writeLexiconAndPostingsFromRuns, merged]
  refine foldlM_congr (fun sink group member => ?_) sink
  obtain ⟨nonempty, within⟩ := termGroups_mem member
  refine writeTermFromRuns_eq options docs sink _ ?_ fun posting inside => ?_
  · simpa [groupPostings] using nonempty
  · obtain ⟨tuple, held, rfl⟩ := List.mem_map.mp inside
    have there := within tuple held
    rw [sorted] at there
    obtain ⟨row, rowed, entry, -, rfl⟩ := Corpus.row_term (back.subset there)
    have below := corpus.known row rowed
    have bound := corpus.count_le
    exact Nat.ne_of_lt (below.trans_le bound)

/-- **The base does not depend on the spills.** Wherever the budget is exceeded, a build that gets
to its end collects the documents that the build without spills does, and writes the same pages:
the same lexicon entries with their frequencies, the same postings, by the same writes. -/
theorem spilledBuild_eq (corpus : Corpus) (exceeded : Nat → Bool) (options : WriterOptions R)
    (disk : Disk R) {collector : Collector}
    (done : buildCollect exceeded corpus.rows = .ok collector) :
    ∃ plain, buildCollect (fun _ => false) corpus.rows = .ok plain ∧ plain.runs = [] ∧
      collector.docs = plain.docs ∧
      writeBasePages options disk collector corpus.tidNodeCount =
        writeBasePages options disk plain corpus.tidNodeCount := by
  obtain ⟨plain, plainly, inMemory⟩ := buildCollect_never corpus.rows
  obtain ⟨docs, collectedInMemory, collectedRuns⟩ := buildCollect_collected done
  obtain ⟨plainDocs, sorted, -⟩ := buildCollect_collected plainly
  have sameDocs : collector.docs = plain.docs := docs.trans plainDocs.symm
  refine ⟨plain, plainly, inMemory, sameDocs, ?_⟩
  have terms (totals : DocTotals) (sink : TermSink R) :
      writeLexiconAndPostings options totals collector sink =
        writeLexiconAndPostings options totals plain sink := by
    by_cases spilled : collector.runs = []
    · rw [writeLexiconAndPostings, writeLexiconAndPostings, if_neg (not_not.mpr spilled),
        if_neg (not_not.mpr inMemory), collectedInMemory spilled, sorted inMemory]
    · obtain ⟨perm, runs⟩ := collectedRuns spilled
      exact writeFromRuns_eq options totals corpus spilled inMemory (sorted inMemory) perm runs sink
  have lengths : collector.totalDocLen = plain.totalDocLen := by
    rw [Collector.totalDocLen, sameDocs, ← Collector.totalDocLen]
  rw [writeBasePages, writeBasePages, sameDocs, lengths]
  exact congrArg _ (funext fun docStats => congrArg (· >>= _) (terms _ _))

def twoRows : Corpus where
  rows := [⟨0, ⟨0, 1⟩, [.single 97 1, .single 98 2]⟩, ⟨1, ⟨0, 2⟩, [.single 97 3]⟩]
  tidNodeCount := 2
  nodes := by decide
  lexemes := by decide
  known := by decide
  count_le := by decide

/-- Options with the mathematical functions of the rationals; the logarithm is its first term. -/
def rationalOptions : WriterOptions ℚ :=
  ⟨true, true, 6 / 5, 3 / 4, true, 2, 16, fun norm => (norm + 1 / 2).floor, fun ratio => ratio - 1⟩

/-- The build of two rows whose budget is exceeded at the fourth check and at the ninth. -/
theorem spilledBuild_eq_twoRows : ∃ collector,
    buildCollect (fun check => check == 4 || check == 9) twoRows.rows = .ok collector ∧
      collector.runs.length = 3 ∧
      ∃ plain, buildCollect (fun _ => false) twoRows.rows = .ok plain ∧ plain.runs = [] ∧
        collector.docs = plain.docs ∧
        writeBasePages rationalOptions ⟨[], []⟩ collector twoRows.tidNodeCount =
          writeBasePages rationalOptions ⟨[], []⟩ plain twoRows.tidNodeCount := by
  obtain ⟨collector, done, spilled⟩ : ∃ collector,
      buildCollect (fun check => check == 4 || check == 9) twoRows.rows = .ok collector ∧
        collector.runs.length = 3 :=
    ⟨_, rfl, by decide +kernel⟩
  exact ⟨collector, done, spilled, spilledBuild_eq twoRows _ _ _ done⟩

end Same

end TurboHybrid.Store
