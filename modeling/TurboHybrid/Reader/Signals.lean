/-
**What queries load before they read.**

The signal analysis and the scorer share the caches. The scorer loads the document arrays before it
walks the delta; the analysis walks the delta with the cache as it finds it.

* `analyzeQuerySignals`, `topKLoad`: the analysis, and the scorer up to its postings;
* `serve_sound_iff`: when one call reads only what is loaded;
* `serveAll_sound_iff`: when all calls of a backend do.
-/
import TurboHybrid.Query.Eval
import TurboHybrid.Reader.Cache
import Mathlib.Tactic.NormNum
import Mathlib.Algebra.Order.Ring.Unbundled.Rat
import Mathlib.Algebra.Field.Rat

namespace TurboHybrid.Reader

open TurboHybrid.Index TurboHybrid.Query TurboHybrid.Scan

variable {R : Type*} [Field R] [LinearOrder R]

/-! ### Outcomes -/

inductive Failure where
  | fault (fault : Fault)
  | query (message : String)
  deriving DecidableEq, Repr

/-- What a call leaves: the session, the cache it walked the delta with, if it came to that, and its
reply. -/
structure Outcome (Reply : Type*) where
  session : Session
  reached : Option Cache
  reply : Except Failure Reply

def Outcome.map {Reply Other : Type*} (f : Reply → Other) (outcome : Outcome Reply) :
    Outcome Other :=
  ⟨outcome.session, outcome.reached, outcome.reply.map f⟩

def Cache.withDeltaTerms (cache : Cache) (deltaTerms : List DeltaCacheEntry) : Cache :=
  { cache with deltaTerms := some deltaTerms }

/-- The delta's terms for a query: those of the cache, or built. With a memory limit they are built
for the query only. -/
def readDelta (cacheMaxMb : Int) (pages : IndexPages R) (bm25Meta : Bm25Meta R)
    (terms : List QueryTerm) (opened : Opened) : Outcome (List DeltaCacheEntry) :=
  match opened.cache.deltaTerms with
  | some deltaTerms => ⟨opened.session, none, .ok deltaTerms⟩
  | none =>
    if 0 < cacheMaxMb then
      ⟨opened.session, some opened.cache,
        (buildDeltaCacheEntries pages bm25Meta opened.cache (some terms)).mapError .fault⟩
    else
      match buildDeltaCacheEntries pages bm25Meta opened.cache none with
      | .ok deltaTerms =>
        ⟨{ opened with cache := opened.cache.withDeltaTerms deltaTerms }.session,
          some opened.cache, .ok deltaTerms⟩
      | .error fault => ⟨opened.session, some opened.cache, .error (.fault fault)⟩

/-! ### The signal analysis -/

structure QuerySignals (R : Type*) where
  valid : Bool
  queryTerms : Nat
  resolvedTerms : Nat
  docCount : Nat
  maxIdf : R
  meanIdf : R
  minPostings : Nat
  hasIdentifierToken : Bool
  queryShape : QueryShape

def emptySignals (valid : Bool) : QuerySignals R := ⟨valid, 0, 0, 0, 0, 0, 0, false, .empty⟩

def termLooksIdentifier (term : QueryTerm) : Bool :=
  let hasDigit := term.term.any fun byte => 48 ≤ byte ∧ byte ≤ 57
  let hasAlpha := term.term.any fun byte => 97 ≤ byte ∧ byte ≤ 122 ∨ 65 ≤ byte ∧ byte ≤ 90
  decide (16 ≤ term.term.length) || term.term.any (fun byte => byte == 95 || byte == 45) ||
    (decide (6 ≤ term.term.length) && hasAlpha && hasDigit)

/-- The signals of a query whose terms were looked up. -/
def signalsOf (log : R → R) (bm25Meta : Bm25Meta R) (shape : QueryShape)
    (terms : List SearchTerm) : QuerySignals R :=
  let resolved := terms.filter fun term => term.df != 0
  let idfs := resolved.map (SearchTerm.idf log bm25Meta.toScoringMeta)
  { valid := true
    queryTerms := terms.length
    resolvedTerms := resolved.length
    docCount := max (bm25Meta.docCount + bm25Meta.deltaDocCount) 1
    maxIdf := idfs.foldl max 0
    meanIdf := if resolved = [] then 0 else idfs.sum / resolved.length
    minPostings := (resolved.map SearchTerm.df).min?.getD 0
    hasIdentifierToken := terms.any fun term => termLooksIdentifier term.term
    queryShape := shape }

/-- The terms with what the cache and the delta have of them. -/
def searchTerms (cache : Cache) (deltaTerms : List DeltaCacheEntry) (terms : List QueryTerm) :
    List SearchTerm :=
  terms.map fun term => ⟨term, cacheFindLexiconEntry cache term, countDeltaDf deltaTerms term⟩

def analyzeQuerySignals (log : R → R) (cacheMaxMb : Int) (pages : IndexPages R)
    (query : Option TSQuery) (session : Session) : Outcome (QuerySignals R) :=
  match query, pages.bm25Meta with
  | some query, some bm25Meta =>
    match extractTerms query with
    | .error message => ⟨session, none, .error (.query message)⟩
    | .ok [] => ⟨session, none, .ok (emptySignals true)⟩
    | .ok terms =>
      let opened := getCache pages bm25Meta session
      (readDelta cacheMaxMb pages bm25Meta terms opened).map fun deltaTerms =>
        signalsOf log bm25Meta (compileQueryEval query terms).shape
          (searchTerms opened.cache deltaTerms terms)
  | _, _ => ⟨session, none, .ok (emptySignals false)⟩

/-! ### The scorer up to its postings -/

/-- What the scorer has once its cache is loaded. -/
structure LoadedQuery (R : Type*) [Field R] [LinearOrder R] where
  bm25Meta : Bm25Meta R
  terms : List SearchTerm
  docLens : List Nat
  liveness : Liveness
  deltaTerms : List DeltaCacheEntry

def loadQuery (cacheMaxMb : Int) (pages : IndexPages R) (bm25Meta : Bm25Meta R)
    (terms : List QueryTerm) (opened : Opened) : Outcome (LoadedQuery R) :=
  match opened.cache.docLens, opened.cache.liveness with
  | some docLens, some liveness =>
    (readDelta cacheMaxMb pages bm25Meta terms opened).map fun deltaTerms =>
      ⟨bm25Meta, searchTerms opened.cache deltaTerms terms, docLens, liveness, deltaTerms⟩
  | none, _ => ⟨opened.session, none, .error (.fault .absentDocLens)⟩
  | _, none => ⟨opened.session, none, .error (.fault .absentLiveNodes)⟩

/-- The scorer up to its postings; without a reply there is nothing to score. -/
def topKLoad (cacheMaxMb : Int) (pages : IndexPages R) (query : TSQuery) (k : Int)
    (session : Session) : Outcome (Option (LoadedQuery R)) :=
  match pages.bm25Meta with
  | none => ⟨session, none, .ok none⟩
  | some bm25Meta =>
    if k ≤ 0 ∨ pages.graphMeta.tqNodeCount = 0 then ⟨session, none, .ok none⟩
    else
      match extractTerms query with
      | .error message => ⟨session, none, .error (.query message)⟩
      | .ok [] => ⟨session, none, .ok none⟩
      | .ok terms =>
        let opened := getCache pages bm25Meta session
        if (terms.all fun term => (cacheFindLexiconEntry opened.cache term).isNone) ∧
            bm25Meta.deltaDocCount = 0 then
          ⟨opened.session, none, .ok none⟩
        else
          let cache := ensureLiveness pages (ensureDocStats pages bm25Meta opened.cache)
          (loadQuery cacheMaxMb pages bm25Meta terms { opened with cache := cache }).map some

/-! ### Calls -/

inductive Call where
  | analyze (query : Option TSQuery)
  | topK (query : TSQuery) (k : Int)
  | invalidate
  deriving DecidableEq, Repr

/-- A call, with the pages it finds and the memory limit set then. -/
structure Request (R : Type*) [Field R] [LinearOrder R] where
  pages : IndexPages R
  cacheMaxMb : Int
  call : Call

def Outcome.discard {Reply : Type*} (outcome : Outcome Reply) : Outcome Unit :=
  outcome.map fun _ => ()

def serve (log : R → R) (request : Request R) (session : Session) : Outcome Unit :=
  match request.call with
  | .analyze query =>
    (analyzeQuerySignals log request.cacheMaxMb request.pages query session).discard
  | .topK query k => (topKLoad request.cacheMaxMb request.pages query k session).discard
  | .invalidate => ⟨invalidateCache request.pages.relid session, none, .ok ()⟩

def Outcome.crashed {Reply : Type*} (outcome : Outcome Reply) : Bool :=
  match outcome.reply with
  | .error (.fault _) => true
  | _ => false

def serveAll (log : R → R) : Session → List (Request R) → List (Outcome Unit)
  | _, [] => []
  | session, request :: rest =>
    let outcome := serve log request session
    outcome :: if outcome.crashed then [] else serveAll log outcome.session rest

/-! ### Sound calls -/

/-- A call reads only what is loaded: it walks the delta with live flags for all nodes of its cache,
and no read fails. -/
structure Sound {Reply : Type*} (outcome : Outcome Reply) : Prop where
  reached : ∀ cache, outcome.reached = some cache → LiveNodesLoaded cache
  survives : outcome.crashed = false

/-- Loaded live flags cover the nodes of their cache. -/
def ArraysCover (session : Session) : Prop :=
  ∀ cache ∈ session, cache.livenessLoaded = true → LiveNodesLoaded cache

/-- The signal analysis finds a cache that has its live flags, or its delta terms. -/
def AnalysisReady (request : Request R) (session : Session) : Prop :=
  ∀ query bm25Meta term terms, request.call = .analyze (some query) →
    request.pages.bm25Meta = some bm25Meta → extractTerms query = .ok (term :: terms) →
      ∃ cache, session.find? (cacheMatches request.pages bm25Meta) = some cache ∧
        (cache.livenessLoaded = true ∨ cache.deltaCacheBuilt = true)

/-- Each analysis of a run is ready when it is called. -/
def AllReady (log : R → R) : Session → List (Request R) → Prop
  | _, [] => True
  | session, request :: rest =>
    AnalysisReady request session ∧ AllReady log (serve log request session).session rest

/-! ### What calls keep -/

/-- A property of caches that holds of fresh ones and stays when a query loads what is missing. -/
structure KeptByQueries (pages : IndexPages R) (bm25Meta : Bm25Meta R) (kept : Cache → Prop) :
    Prop where
  built : kept (buildCache pages bm25Meta)
  docStats : ∀ cache, cacheMatches pages bm25Meta cache = true → kept cache →
    kept (ensureDocStats pages bm25Meta cache)
  liveness : ∀ cache, cacheMatches pages bm25Meta cache = true → kept cache →
    kept (ensureLiveness pages cache)
  deltaTerms : ∀ cache deltaTerms, kept cache → kept (cache.withDeltaTerms deltaTerms)

section Kept

variable {pages : IndexPages R} {bm25Meta : Bm25Meta R} {session : Session} {opened : Opened}
  {cacheMaxMb : Int} {terms : List QueryTerm} {kept : Cache → Prop}

theorem replaced_forall (all : ∀ cache ∈ opened.session, kept cache) {changed : Cache}
    (holds : kept changed) : ∀ cache ∈ { opened with cache := changed }.session, kept cache := by
  intro cache member
  rcases mem_replaced member with old | rfl
  · exact all cache old
  · exact holds

theorem getCache_forall (keeps : KeptByQueries pages bm25Meta kept)
    (all : ∀ cache ∈ session, kept cache) :
    ∀ cache ∈ (getCache pages bm25Meta session).session, kept cache := by
  intro cache member
  rcases mem_getCache member with old | rfl
  · exact all cache old
  · exact keeps.built

theorem readDelta_forall (keeps : KeptByQueries pages bm25Meta kept)
    (all : ∀ cache ∈ opened.session, kept cache) :
    ∀ cache ∈ (readDelta cacheMaxMb pages bm25Meta terms opened).session, kept cache := by
  unfold readDelta
  split
  · exact all
  · split
    · exact all
    · split
      · exact replaced_forall all (keeps.deltaTerms _ _ (all _ opened.cache_mem))
      · exact all

theorem loadQuery_forall (keeps : KeptByQueries pages bm25Meta kept)
    (all : ∀ cache ∈ opened.session, kept cache) :
    ∀ cache ∈ (loadQuery cacheMaxMb pages bm25Meta terms opened).session, kept cache := by
  unfold loadQuery
  split
  · exact readDelta_forall keeps all
  · exact all
  · exact all

theorem ensureDocStats_matches {cache : Cache} :
    cacheMatches pages bm25Meta (ensureDocStats pages bm25Meta cache) =
      cacheMatches pages bm25Meta cache := by
  unfold ensureDocStats
  split_ifs <;> rfl

theorem topKLoad_forall
    (keeps : ∀ bm25Meta, pages.bm25Meta = some bm25Meta → KeptByQueries pages bm25Meta kept)
    (all : ∀ cache ∈ session, kept cache) (query : TSQuery) (k : Int) :
    ∀ cache ∈ (topKLoad cacheMaxMb pages query k session).session, kept cache := by
  unfold topKLoad
  split
  · exact all
  · split
    · exact all
    · split
      · exact all
      · exact all
      · rename_i bm25Meta found _ _ _ _ _
        have keep := keeps bm25Meta found
        have openedAll := getCache_forall keep all
        have accepted := getCache_matches pages bm25Meta session
        dsimp only
        split
        · exact openedAll
        · refine loadQuery_forall keep (replaced_forall openedAll ?_)
          refine keep.liveness _ (ensureDocStats_matches.trans accepted) ?_
          exact keep.docStats _ accepted (openedAll _ (Opened.cache_mem _))

theorem analyzeQuerySignals_forall (log : R → R)
    (keeps : ∀ bm25Meta, pages.bm25Meta = some bm25Meta → KeptByQueries pages bm25Meta kept)
    (all : ∀ cache ∈ session, kept cache) (query : Option TSQuery) :
    ∀ cache ∈ (analyzeQuerySignals log cacheMaxMb pages query session).session, kept cache := by
  unfold analyzeQuerySignals
  split
  · rename_i found
    split
    · exact all
    · exact all
    · exact readDelta_forall (keeps _ found) (getCache_forall (keeps _ found) all)
  · exact all

/-- **What a call keeps** of the caches of its backend. -/
theorem serve_forall {log : R → R} {request : Request R}
    (keeps : ∀ bm25Meta, request.pages.bm25Meta = some bm25Meta →
      KeptByQueries request.pages bm25Meta kept)
    (all : ∀ cache ∈ session, kept cache) :
    ∀ cache ∈ (serve log request session).session, kept cache := by
  unfold serve
  split
  · exact analyzeQuerySignals_forall log keeps all _
  · exact topKLoad_forall keeps all _ _
  · exact fun cache member => all cache (List.mem_filter.mp member).1

end Kept

/-! ### Loaded arrays -/

section Arrays

variable {pages : IndexPages R} {bm25Meta : Bm25Meta R} {session : Session} {cache : Cache}

theorem LiveNodesLoaded.livenessLoaded (loaded : LiveNodesLoaded cache) :
    cache.livenessLoaded = true := by
  obtain ⟨liveness, there, -⟩ := loaded
  rw [Cache.livenessLoaded, there]
  rfl

theorem ensureLiveness_loaded (equal : cache.nodeCount = pages.graphMeta.tqNodeCount)
    (covers : cache.livenessLoaded = true → LiveNodesLoaded cache) :
    LiveNodesLoaded (ensureLiveness pages cache) := by
  unfold ensureLiveness
  split_ifs with loaded
  · exact covers loaded
  · refine ⟨_, rfl, ?_⟩
    show cache.nodeCount ≤ _
    rw [loadHeapTids_length, equal]
    exact le_max_left _ _

theorem ensureDocStats_docLens (pages : IndexPages R) (bm25Meta : Bm25Meta R) (cache : Cache) :
    ∃ docLens, (ensureDocStats pages bm25Meta cache).docLens = some docLens := by
  unfold ensureDocStats
  split_ifs with loaded
  · exact Option.isSome_iff_exists.mp loaded
  · exact ⟨_, rfl⟩

theorem ensureDocStats_liveness (pages : IndexPages R) (bm25Meta : Bm25Meta R) (cache : Cache) :
    (ensureDocStats pages bm25Meta cache).liveness = cache.liveness := by
  unfold ensureDocStats
  split_ifs <;> rfl

theorem ensureDocStats_nodeCount (pages : IndexPages R) (bm25Meta : Bm25Meta R) (cache : Cache) :
    (ensureDocStats pages bm25Meta cache).nodeCount = cache.nodeCount := by
  unfold ensureDocStats
  split_ifs <;> rfl

theorem ensureLiveness_docLens (pages : IndexPages R) (cache : Cache) :
    (ensureLiveness pages cache).docLens = cache.docLens := by
  unfold ensureLiveness
  split_ifs <;> rfl

theorem cacheMatches_nodeCount (accepted : cacheMatches pages bm25Meta cache = true) :
    cache.nodeCount = pages.graphMeta.tqNodeCount := by
  simp only [cacheMatches, Bool.and_eq_true, beq_iff_eq] at accepted
  tauto

theorem arraysCover_kept (pages : IndexPages R) (bm25Meta : Bm25Meta R) :
    KeptByQueries pages bm25Meta fun cache => cache.livenessLoaded = true → LiveNodesLoaded cache where
  built loaded := nomatch loaded
  docStats cache _ covers loaded := by
    rw [Cache.livenessLoaded, ensureDocStats_liveness] at loaded
    rw [LiveNodesLoaded, ensureDocStats_liveness, ensureDocStats_nodeCount]
    exact covers loaded
  liveness cache accepted covers _ := ensureLiveness_loaded (cacheMatches_nodeCount accepted) covers
  deltaTerms _ _ covers := covers

theorem ensured_loaded (covers : ArraysCover session) :
    LiveNodesLoaded (ensureLiveness pages
      (ensureDocStats pages bm25Meta (getCache pages bm25Meta session).cache)) := by
  have accepted := getCache_matches pages bm25Meta session
  have opened := getCache_forall (arraysCover_kept pages bm25Meta) covers _ (Opened.cache_mem _)
  refine ensureLiveness_loaded ?_ ((arraysCover_kept pages bm25Meta).docStats _ accepted opened)
  rw [ensureDocStats_nodeCount]
  exact cacheMatches_nodeCount accepted

end Arrays

/-! ### One call -/

section Calls

variable {pages : IndexPages R} {bm25Meta : Bm25Meta R} {session : Session} {opened : Opened}
  {cacheMaxMb : Int} {terms : List QueryTerm}

theorem sound_map_iff {Reply Other : Type*} (f : Reply → Other) (outcome : Outcome Reply) :
    Sound (outcome.map f) ↔ Sound outcome := by
  have same : (outcome.map f).crashed = outcome.crashed := by
    unfold Outcome.crashed Outcome.map
    cases outcome.reply with
    | error failure => cases failure <;> rfl
    | ok reply => rfl
  constructor
  · exact fun sound => ⟨sound.reached, same ▸ sound.survives⟩
  · exact fun sound => ⟨sound.reached, same.trans sound.survives⟩

theorem sound_still {Reply : Type*} (session : Session) (reply : Reply) :
    Sound (⟨session, none, .ok reply⟩ : Outcome Reply) :=
  ⟨fun _ reached => (nomatch reached), rfl⟩

theorem sound_rejected {Reply : Type*} (session : Session) (message : String) :
    Sound (⟨session, none, .error (.query message)⟩ : Outcome Reply) :=
  ⟨fun _ reached => (nomatch reached), rfl⟩

/-- **The walk over the delta** is sound where its entries are built or its live flags loaded. -/
theorem readDelta_sound_iff (covers : ArraysCover opened.session) :
    Sound (readDelta cacheMaxMb pages bm25Meta terms opened) ↔
      opened.cache.livenessLoaded = true ∨ opened.cache.deltaCacheBuilt = true := by
  unfold readDelta
  cases built : opened.cache.deltaTerms with
  | some deltaTerms =>
    have known : opened.cache.deltaCacheBuilt = true := by rw [Cache.deltaCacheBuilt, built]; rfl
    exact ⟨fun _ => Or.inr known, fun _ => sound_still _ _⟩
  | none =>
    have unknown : opened.cache.deltaCacheBuilt = false := by
      rw [Cache.deltaCacheBuilt, built]
      rfl
    rw [unknown]
    constructor
    · intro sound
      refine Or.inl (LiveNodesLoaded.livenessLoaded (sound.reached _ ?_))
      dsimp only
      split
      · rfl
      · split <;> rfl
    · rintro (loaded | absent)
      · have live := covers _ opened.cache_mem loaded
        obtain ⟨filtered, someOk, -⟩ := @buildDeltaCacheEntries_live _ _ _ pages
          bm25Meta _ (some terms) live
        obtain ⟨all, noneOk, -⟩ := @buildDeltaCacheEntries_live _ _ _ pages
          bm25Meta _ none live
        dsimp only
        rw [someOk, noneOk]
        split
        · exact ⟨fun cache same => Option.some.inj same ▸ live, rfl⟩
        · exact ⟨fun cache same => Option.some.inj same ▸ live, rfl⟩
      · cases absent

theorem loadQuery_sound (covers : ArraysCover opened.session)
    (docLens : ∃ docLens, opened.cache.docLens = some docLens)
    (loaded : LiveNodesLoaded opened.cache) :
    Sound (loadQuery cacheMaxMb pages bm25Meta terms opened) := by
  obtain ⟨docLens, lens⟩ := docLens
  have known := loaded.livenessLoaded
  obtain ⟨liveness, there, -⟩ := loaded
  unfold loadQuery
  rw [lens, there]
  exact (sound_map_iff _ _).mpr ((readDelta_sound_iff covers).mpr (Or.inl known))

/-- **The scorer loads before it reads.** -/
theorem topKLoad_sound (covers : ArraysCover session) (query : TSQuery) (k : Int) :
    Sound (topKLoad cacheMaxMb pages query k session) := by
  unfold topKLoad
  split
  · exact sound_still _ _
  · split
    · exact sound_still _ _
    · split
      · exact sound_rejected _ _
      · exact sound_still _ _
      · rename_i bm25Meta _ _ _ terms _ _
        have loaded := @ensured_loaded _ _ _ pages bm25Meta _ covers
        dsimp only
        split
        · exact sound_still _ _
        · refine (sound_map_iff _ _).mpr (loadQuery_sound (replaced_forall
            (getCache_forall (arraysCover_kept _ _) covers) fun _ => loaded) ?_ loaded)
          show ∃ docLens, (ensureLiveness _ _).docLens = some docLens
          rw [ensureLiveness_docLens]
          exact ensureDocStats_docLens _ _ _

theorem getCache_loaded_iff :
    (getCache pages bm25Meta session).cache.livenessLoaded = true ∨
        (getCache pages bm25Meta session).cache.deltaCacheBuilt = true ↔
      ∃ cache, session.find? (cacheMatches pages bm25Meta) = some cache ∧
        (cache.livenessLoaded = true ∨ cache.deltaCacheBuilt = true) := by
  rcases getCache_cases pages bm25Meta session with ⟨found, -⟩ | ⟨missing, built, -⟩
  · rw [found]
    constructor
    · exact fun loaded => ⟨_, rfl, loaded⟩
    · rintro ⟨cache, same, loaded⟩
      exact Option.some.inj same ▸ loaded
  · rw [missing, built]
    constructor
    · rintro (loaded | loaded) <;> cases loaded
    · rintro ⟨cache, same, -⟩
      cases same

/-- **The analysis** is sound where it finds what it reads. -/
theorem analyzeQuerySignals_sound_iff (log : R → R) (covers : ArraysCover session)
    (query : TSQuery) {term : QueryTerm} (found : pages.bm25Meta = some bm25Meta)
    (extracted : extractTerms query = .ok (term :: terms)) :
    Sound (analyzeQuerySignals log cacheMaxMb pages (some query) session) ↔
      ∃ cache, session.find? (cacheMatches pages bm25Meta) = some cache ∧
        (cache.livenessLoaded = true ∨ cache.deltaCacheBuilt = true) := by
  unfold analyzeQuerySignals
  rw [found, ← getCache_loaded_iff]
  dsimp only
  rw [extracted]
  exact (sound_map_iff _ _).trans (readDelta_sound_iff (getCache_forall (arraysCover_kept _ _) covers))

end Calls

/-! ### Runs of calls -/

section Runs

variable {log : R → R} {session : Session}

/-- **One call** reads only what is loaded if and only if, being an analysis, it is ready. -/
theorem serve_sound_iff (covers : ArraysCover session) (request : Request R) :
    Sound (serve log request session) ↔ AnalysisReady request session := by
  unfold serve AnalysisReady
  cases request.call with
  | analyze query =>
    dsimp only
    rw [Outcome.discard, sound_map_iff]
    by_cases reads : ∃ text bm25Meta term terms, query = some text ∧
        request.pages.bm25Meta = some bm25Meta ∧ extractTerms text = .ok (term :: terms)
    · obtain ⟨text, bm25Meta, term, terms, rfl, found, extracted⟩ := reads
      rw [analyzeQuerySignals_sound_iff log covers text found extracted]
      constructor
      · rintro ready query bm25Meta' term' terms' same found' -
        cases same
        rw [found] at found'
        cases found'
        exact ready
      · exact fun ready => ready text bm25Meta term terms rfl found extracted
    · refine ⟨fun _ text bm25Meta term terms same found extracted => ?_, fun ready => ?_⟩
      · cases same
        exact absurd ⟨text, bm25Meta, term, terms, rfl, found, extracted⟩ reads
      · unfold analyzeQuerySignals
        split
        · rename_i text bm25Meta found
          split
          · exact sound_rejected _ _
          · exact sound_still _ _
          · rename_i terms some extracted
            obtain ⟨term, rest, rfl⟩ := List.exists_cons_of_ne_nil some
            exact absurd ⟨text, bm25Meta, term, rest, rfl, found, extracted⟩ reads
        · exact sound_still _ _
  | topK query k =>
    refine ⟨fun _ text _ _ _ same => (nomatch same), fun _ => ?_⟩
    exact (sound_map_iff _ _).mpr (topKLoad_sound covers query k)
  | invalidate =>
    exact ⟨fun _ text _ _ _ same => (nomatch same), fun _ => sound_still _ _⟩

/-- **The calls of a backend** read only what is loaded if and only if each analysis among them is
ready when it is called. -/
theorem serveAll_sound_iff (covers : ArraysCover session) (requests : List (Request R)) :
    (∀ outcome ∈ serveAll log session requests, Sound outcome) ↔ AllReady log session requests := by
  induction requests generalizing session with
  | nil => exact ⟨fun _ => trivial, fun _ _ member => (List.not_mem_nil member).elim⟩
  | cons request rest ih =>
    rw [serveAll, AllReady, List.forall_mem_cons, serve_sound_iff covers]
    refine and_congr_right fun ready => ?_
    have survives := ((@serve_sound_iff _ _ _ log _ covers request).mpr ready).survives
    rw [survives]
    exact ih (serve_forall (fun _ _ => arraysCover_kept _ _) covers)

/-- **A backend that starts cold** reads only what is loaded if and only if each analysis finds its
cache with live flags or delta terms. -/
theorem liveArrays_loaded_iff (log : R → R) (requests : List (Request R)) :
    (∀ outcome ∈ serveAll log [] requests, Sound outcome) ↔ AllReady log [] requests :=
  serveAll_sound_iff (fun _ member => (List.not_mem_nil member).elim) requests

end Runs

/-! ### A cold analysis -/

/-- An index that was built empty and has taken one document. -/
def insertedPages : IndexPages ℚ where
  relid := 16384
  relfilenumber := 16384
  graphMeta := ⟨0, 2, 1, by decide⟩
  codes := [⟨0, (0, 1), false⟩]
  bm25Meta := some
    { docCount := 0, totalDocLen := 0, deltaDocCount := 1, deltaTotalDocLen := 1
      k1 := 6 / 5, b := 3 / 4, tfNorm := true
      k1_nonneg := by norm_num, b_nonneg := by norm_num, b_le_one := by norm_num
      termCount := 0, deltaGeneration := 1, lastCompactionGeneration := 0
      docStatsStartBlkno := none, lexiconStartBlkno := none, postingsStartBlkno := none
      blockMaxStartBlkno := none, deltaStartBlkno := some 4, deltaTermDirectoryBlkno := some 6 }
  docStats _ := []
  lexicon _ := []
  delta blkno := if blkno = 4 then [⟨0, (0, 1), 1, [⟨hashTerm [97], [97], 1⟩]⟩] else []
  deltaDirectory _ := none

/-- The analysis of a query for that document's term. -/
def coldAnalysis : Request ℚ := ⟨insertedPages, 0, .analyze (some (Tree.val [97] false).toQuery)⟩

theorem coldAnalysis_faults :
    (serve id coldAnalysis []).reply = .error (.fault .absentLiveNodes) ∧
      ¬ ∀ requests : List (Request ℚ), ∀ outcome ∈ serveAll id [] requests, Sound outcome := by
  have faulted : (serve id coldAnalysis []).reply = .error (.fault .absentLiveNodes) := rfl
  refine ⟨faulted, fun sound => ?_⟩
  have survives := (sound [coldAnalysis] _ List.mem_cons_self).survives
  rw [Outcome.crashed, faulted] at survives
  cases survives

end TurboHybrid.Reader
