/-
**Native graph caches across backends.**

A backend builds a cache from the code pages under a copy of the metapage, or attaches to a file
that another backend published. A cache is accepted when its copy matches the copy a scan has read.
A vacuum marks nodes page by page and changes the generation at its end.

* `step`: single page reads and page writes of any number of backends, one insert and one vacuum;
* `CacheSafe`: an accepted cache shows every dead mark and every insert that was complete when the
  metapage was read.
-/
import TurboHybrid.Library.Transition
import Mathlib.Data.List.Basic
import Mathlib.Order.Nat

namespace TurboHybrid.NativeCache

open TurboHybrid.Library

/-! ### The index and its readers -/

/-- The fields of the metapage that change after the build. -/
structure GraphMeta where
  generation : Nat
  nodeCount : Nat
  entryNodeId : Nat
  graphMaxLevel : Nat
  docCount : Nat
  deriving DecidableEq, Repr

structure CodeTuple where
  nodeId : Nat
  heaptid : Nat
  dead : Bool
  deriving DecidableEq, Repr

/-- A cache: the copy of the metapage it was built under, and the loaded nodes, last loaded
first. -/
structure Cache where
  stamp : GraphMeta
  nodes : List CodeTuple
  deriving DecidableEq, Repr

structure Build where
  stamp : GraphMeta
  pageNo : Nat
  nodes : List CodeTuple
  deriving DecidableEq, Repr

/-- A pass of a scan: the copy of the metapage it has read, the nodes whose dead marks were
complete at that time, and the cache it has accepted. -/
structure Pass where
  copy : GraphMeta
  deadBefore : List Nat
  cache : Option Cache
  deriving DecidableEq, Repr

/-- A backend: its pass and its build, its own caches and the shared files it has mapped. -/
structure Backend where
  pass : Option Pass
  build : Option Build
  caches : List Cache
  maps : List Cache
  deriving DecidableEq, Repr

/-- The insert that holds the update lock, with the entry fields it will publish. -/
structure Insert where
  backend : Nat
  copy : GraphMeta
  heaptid : Nat
  entryNodeId : Nat
  graphMaxLevel : Nat
  appended : Bool
  published : Bool
  deriving DecidableEq, Repr

structure Vacuum where
  backend : Nat
  copy : GraphMeta
  scanLock : Bool
  pageNo : Nat
  changedAny : Bool
  bumped : Bool
  deriving DecidableEq, Repr

/-- The pages, the shared files, the backends, the holders of the scan lock in share mode, and the
insert and the vacuum under way. -/
structure IndexState where
  metapage : GraphMeta
  tuples : List CodeTuple
  files : List Cache
  backends : Nat → Backend
  scanLockHolders : List Nat
  inserting : Option Insert
  vacuuming : Option Vacuum

/-! ### Acceptance -/

/-- A backend's own cache is compared in every field. -/
def cacheMatches (cache : Cache) (copy : GraphMeta) : Bool :=
  cache.stamp.graphMaxLevel == copy.graphMaxLevel && cache.stamp.generation == copy.generation &&
    cache.stamp.nodeCount == copy.nodeCount && cache.stamp.entryNodeId == copy.entryNodeId &&
    cache.stamp.docCount == copy.docCount

/-- The header of a shared file does not hold the number of documents. -/
def sharedHeaderMatches (cache : Cache) (copy : GraphMeta) : Bool :=
  cache.stamp.generation == copy.generation && cache.stamp.graphMaxLevel == copy.graphMaxLevel &&
    cache.stamp.nodeCount == copy.nodeCount && cache.stamp.entryNodeId == copy.entryNodeId

def Cache.node? (cache : Cache) (nodeId : Nat) : Option CodeTuple :=
  cache.nodes.find? fun node => node.nodeId == nodeId

/-! ### Steps of one backend -/

section Steps

variable (codeTuplesPerPage : Nat)

def pageTuples (tuples : List CodeTuple) (pageNo : Nat) : List CodeTuple :=
  (tuples.drop (pageNo * codeTuplesPerPage)).take codeTuplesPerPage

/-- Load one page: a later tuple of an id takes the place of an earlier one. -/
def loadCodePage (tuples : List CodeTuple) (build : Build) : Build :=
  { build with
    pageNo := build.pageNo + 1
    nodes := (pageTuples codeTuplesPerPage tuples build.pageNo).foldl
      (fun nodes tuple => if tuple.nodeId < build.stamp.nodeCount then tuple :: nodes else nodes)
      build.nodes }

/-- All pages that hold nodes of the copy are loaded. -/
def Build.complete (build : Build) : Bool :=
  build.stamp.nodeCount ≤ build.pageNo * codeTuplesPerPage

inductive Reader
  | scan
  | insert
  | vacuum
  deriving DecidableEq

/-- The copy of the metapage that a reader in a backend holds. -/
def readerCopy (state : IndexState) (backend : Nat) : Reader → Option GraphMeta
  | .scan => (state.backends backend).pass.map Pass.copy
  | .insert => (state.inserting.filter fun insert => insert.backend == backend).map Insert.copy
  | .vacuum => (state.vacuuming.filter fun vacuum => vacuum.backend == backend).map Vacuum.copy

def deadIds (tuples : List CodeTuple) : List Nat :=
  (tuples.filter CodeTuple.dead).map CodeTuple.nodeId

inductive BackendAction
  | readMeta
  | startBuild (reader : Reader)
  | loadPage
  | finishBuild
  | abortBuild
  | acceptCache (position : Nat)
  | acceptMap (position : Nat)
  | attachFile (position : Nat)
  | endPass
  | invalidateCaches
  deriving DecidableEq

def acceptIn (accepted : Cache → GraphMeta → Bool) (self : Backend) (cache : Cache) :
    Option Backend :=
  self.pass.bind fun pass =>
    if accepted cache pass.copy then
      some { self with pass := some { pass with cache := some cache } }
    else none

def backendStep (state : IndexState) (backend : Nat) : BackendAction → Option Backend
  | .readMeta =>
    some { state.backends backend with
      pass := some ⟨state.metapage, deadIds state.tuples, none⟩ }
  | .startBuild reader =>
    (readerCopy state backend reader).map fun copy =>
      { state.backends backend with build := some ⟨copy, 0, []⟩ }
  | .loadPage =>
    (state.backends backend).build.map fun build =>
      { state.backends backend with
        build := some (loadCodePage codeTuplesPerPage state.tuples build) }
  | .finishBuild =>
    (state.backends backend).build.bind fun build =>
      if build.complete codeTuplesPerPage then
        some { state.backends backend with
          build := none
          caches := ⟨build.stamp, build.nodes⟩ :: (state.backends backend).caches }
      else none
  | .abortBuild => some { state.backends backend with build := none }
  | .acceptCache position =>
    (state.backends backend).caches[position]?.bind fun cache =>
      acceptIn cacheMatches (state.backends backend) cache
  | .acceptMap position =>
    (state.backends backend).maps[position]?.bind fun cache =>
      acceptIn sharedHeaderMatches (state.backends backend) cache
  | .attachFile position =>
    state.files[position]?.map fun cache =>
      { state.backends backend with maps := cache :: (state.backends backend).maps }
  | .endPass => some { state.backends backend with pass := none }
  | .invalidateCaches => some { state.backends backend with caches := [], maps := [] }

/-! ### Steps of the index -/

inductive InsertAction
  | appendCode
  | publish
  | appendCacheNode (position : Nat)
  | updateDocMap (docCount : Nat)
  | finish
  | fail
  deriving DecidableEq

inductive VacuumAction
  | lockExclusive
  | deletePage (heaptids : List Nat)
  | repairEntries (entryNodeId : Nat)
  | bumpGeneration
  | finish
  | fail
  deriving DecidableEq

inductive Action
  | backend (backend : Nat) (action : BackendAction)
  | lockShare (backend : Nat)
  | unlockShare (backend : Nat)
  | publishFile (backend : Nat)
  | removeFile (position : Nat)
  | startInsert (backend heaptid entryNodeId graphMaxLevel : Nat)
  | insert (action : InsertAction)
  | startVacuum (backend : Nat)
  | vacuum (action : VacuumAction)
  deriving DecidableEq

def setBackend (state : IndexState) (backend : Nat) (self : Backend) : IndexState :=
  { state with backends := fun other => if other = backend then self else state.backends other }

/-- Mark the nodes of a page whose line pointers are to go. -/
def markPage (tuples : List CodeTuple) (vacuum : Vacuum) (heaptids : List Nat) : List CodeTuple :=
  tuples.mapIdx fun position tuple =>
    if position / codeTuplesPerPage = vacuum.pageNo ∧ tuple.nodeId < vacuum.copy.nodeCount ∧
        tuple.heaptid ∈ heaptids then
      { tuple with dead := true }
    else tuple

def bump (copy : GraphMeta) : GraphMeta := { copy with generation := copy.generation + 1 }

/-- The new node in the cache that an insert has searched. The generation of the cache stays. -/
def appendInsertCacheNode (cache : Cache) (insert : Insert) : Cache :=
  { stamp := { cache.stamp with
      nodeCount := cache.stamp.nodeCount + 1
      entryNodeId := insert.entryNodeId
      graphMaxLevel := insert.graphMaxLevel }
    nodes := ⟨insert.copy.nodeCount, insert.heaptid, false⟩ :: cache.nodes }

/-- A step of the insert. The metapage is read at its start and written once its tuples are. -/
def insertStep (state : IndexState) (insert : Insert) : InsertAction → Option IndexState
  | .appendCode =>
    if insert.appended then none
    else some { state with
      tuples := state.tuples ++ [⟨insert.copy.nodeCount, insert.heaptid, false⟩]
      inserting := some { insert with appended := true } }
  | .publish =>
    if insert.appended ∧ ¬insert.published then
      some { state with
        metapage := bump { state.metapage with
          nodeCount := insert.copy.nodeCount + 1
          entryNodeId := insert.entryNodeId
          graphMaxLevel := insert.graphMaxLevel }
        inserting := some { insert with published := true } }
    else none
  | .appendCacheNode position =>
    if insert.published then
      (state.backends insert.backend).caches[position]?.bind fun cache =>
        if cacheMatches cache insert.copy then
          some (setBackend state insert.backend { state.backends insert.backend with
            caches := (state.backends insert.backend).caches.set position
              (appendInsertCacheNode cache insert) })
        else none
    else none
  | .updateDocMap docCount =>
    if insert.published then some { state with metapage := bump { state.metapage with docCount } }
    else none
  | .finish => if insert.published then some { state with inserting := none } else none
  | .fail => some { state with inserting := none }

/-- A step of the vacuum. It takes the scan lock when no scan holds it and keeps it to its end. -/
def vacuumStep (state : IndexState) (vacuum : Vacuum) : VacuumAction → Option IndexState
  | .lockExclusive =>
    if state.scanLockHolders = [] then
      some { state with vacuuming := some { vacuum with scanLock := true } }
    else none
  | .deletePage heaptids =>
    if vacuum.scanLock ∧ ¬vacuum.bumped ∧
        vacuum.pageNo * codeTuplesPerPage < vacuum.copy.nodeCount then
      some { state with
        tuples := markPage codeTuplesPerPage state.tuples vacuum heaptids
        vacuuming := some { vacuum with
          pageNo := vacuum.pageNo + 1
          changedAny := vacuum.changedAny ||
            decide (markPage codeTuplesPerPage state.tuples vacuum heaptids ≠ state.tuples) } }
    else none
  | .repairEntries entryNodeId =>
    if vacuum.scanLock then some { state with metapage := { state.metapage with entryNodeId } }
    else none
  | .bumpGeneration =>
    if vacuum.scanLock ∧ vacuum.copy.nodeCount ≤ vacuum.pageNo * codeTuplesPerPage then
      some { state with
        metapage := bump state.metapage
        vacuuming := some { vacuum with bumped := true } }
    else none
  | .finish =>
    if vacuum.copy.nodeCount ≤ vacuum.pageNo * codeTuplesPerPage ∧
        (vacuum.changedAny → vacuum.bumped) then
      some { state with vacuuming := none }
    else none
  | .fail => some { state with vacuuming := none }

/-- **The steps** of any number of backends, one insert and one vacuum at a time. -/
def step (state : IndexState) : Action → Option IndexState
  | .backend backend action =>
    (backendStep codeTuplesPerPage state backend action).map (setBackend state backend)
  | .lockShare backend =>
    if state.vacuuming.any Vacuum.scanLock then none
    else some { state with scanLockHolders := backend :: state.scanLockHolders }
  | .unlockShare backend =>
    some { state with scanLockHolders := state.scanLockHolders.erase backend }
  | .publishFile backend =>
    (state.backends backend).build.bind fun build =>
      if build.complete codeTuplesPerPage then
        some (setBackend { state with files := ⟨build.stamp, build.nodes⟩ :: state.files } backend
          { state.backends backend with build := none })
      else none
  | .removeFile position => some { state with files := state.files.eraseIdx position }
  | .startInsert backend heaptid entryNodeId graphMaxLevel =>
    if state.inserting.isSome then none
    else some { state with
      inserting :=
        some ⟨backend, state.metapage, heaptid, entryNodeId, graphMaxLevel, false, false⟩ }
  | .insert action => state.inserting.bind fun insert => insertStep state insert action
  | .startVacuum backend =>
    if state.vacuuming.isSome then none
    else some { state with vacuuming := some ⟨backend, state.metapage, false, 0, false, false⟩ }
  | .vacuum action =>
    state.vacuuming.bind fun vacuum => vacuumStep codeTuplesPerPage state vacuum action

end Steps

/-! ### The property and its condition -/

/-- A pass sees a cache rightly: no node whose dead mark it must know is live, and every insert
before its copy of the metapage is there. -/
structure SeesRightly (state : IndexState) (pass : Pass) (cache : Cache) : Prop where
  dead : ∀ nodeId ∈ pass.deadBefore, ∀ node, cache.node? nodeId = some node → node.dead = true
  present : ∀ tuple ∈ state.tuples, tuple.nodeId < pass.copy.nodeCount →
    ∃ node, cache.node? tuple.nodeId = some node ∧ node.heaptid = tuple.heaptid

/-- **Every accepted cache is seen rightly.** -/
def CacheSafe (state : IndexState) : Prop :=
  ∀ backend pass cache, (state.backends backend).pass = some pass → pass.cache = some cache →
    SeesRightly state pass cache

/-- A vacuum has marked nodes and not yet published a new generation. -/
def MarksPending (state : IndexState) : Prop :=
  ∃ vacuum ∈ state.vacuuming, vacuum.changedAny = true ∧ vacuum.bumped = false

instance (state : IndexState) : Decidable (MarksPending state) :=
  inferInstanceAs (Decidable (∃ vacuum ∈ state.vacuuming, _))

/-- **The condition.** No vacuum fails between its first mark and the new generation, no pass reads
the metapage in that time without the scan lock, and no insert fails between its code tuple and the
metapage. -/
def Meets (state : IndexState) : Action → Prop
  | .vacuum .fail => ¬MarksPending state
  | .backend backend .readMeta => backend ∈ state.scanLockHolders ∨ ¬MarksPending state
  | .insert .fail => ∀ insert ∈ state.inserting, insert.appended = true → insert.published = true
  | _ => True

instance (state : IndexState) (action : Action) : Decidable (Meets state action) := by
  unfold Meets
  split <;> infer_instance

/-- An index that was built and that no backend has read. -/
structure Built (state : IndexState) : Prop where
  ids : ∀ (position : Nat) tuple, state.tuples[position]? = some tuple → tuple.nodeId = position
  counted : state.tuples.length = state.metapage.nodeCount
  live : ∀ tuple ∈ state.tuples, tuple.dead = false
  files : state.files = []
  backends : ∀ backend, state.backends backend = ⟨none, none, [], []⟩
  holders : state.scanLockHolders = []
  inserting : state.inserting = none
  vacuuming : state.vacuuming = none

end TurboHybrid.NativeCache
