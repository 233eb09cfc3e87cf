/-
**The cache of loaded models.**

A load that may use the cache first looks for an entry with the key of its request; where there is
none it loads the model and, where it caches, puts it at the head of the list and evicts the least
recently used others. The key leaves out the threads, the projection profile and the dimension that
truncations are checked against.

* `evictCache_size`: what an eviction leaves;
* `loadModel_transparent`: a run in which no load finds an entry made for a request that differs
  beyond the key loads what fresh loads would;
* `loadModel_otherProfile`: a load that finds the entry of a request with another profile.
-/
import Mathlib.Data.List.Nodup
import TurboHybrid.Colbert.Model
import TurboHybrid.Library.Transition

namespace TurboHybrid.Colbert

open Library

variable {Number : Type}

/-! ### The cache -/

/-- A model of the list; the address is the identity of the entry in memory. -/
structure Entry (Number : Type) where
  address : Nat
  model : CachedModel Number
  lastUsed : Nat

structure Cache (Number : Type) where
  entries : List (Entry Number) := []
  count : Int := 0
  clock : Nat := 0
  nextAddress : Nat := 0

structure LoadRequest where
  spec : ModelSpec
  path : String
  nSeqMax : Int
  deriving DecidableEq

structure LoadResult (Number : Type) where
  entry : Entry Number
  loadedFromCache : Bool
  cacheOwned : Bool

def tick (clock : Nat) : Nat :=
  (clock + 1) % 2 ^ 64

def Entry.hasKey (request : LoadRequest) (entry : Entry Number) : Bool :=
  entry.model.modelAlias == request.spec.modelAlias &&
    entry.model.path == request.path &&
    entry.model.nCtx == request.spec.nCtx &&
    entry.model.nBatch == request.spec.nBatch &&
    entry.model.nSeqMax == request.nSeqMax &&
    entry.model.nGpuLayers == request.spec.nGpuLayers &&
    entry.model.outputMode == request.spec.outputMode &&
    entry.model.pooling == request.spec.pooling

def Entry.use (address clock : Nat) (entry : Entry Number) : Entry Number :=
  if entry.address = address then { entry with lastUsed := clock } else entry

def findCachedModel (cache : Cache Number) (request : LoadRequest) :
    Option (Entry Number × Cache Number) :=
  match cache.entries.find? (Entry.hasKey request) with
  | none => none
  | some entry =>
    let clock := tick cache.clock
    some ({ entry with lastUsed := clock },
      { cache with
        entries := cache.entries.map (Entry.use entry.address clock)
        clock := clock })

/-- One step of the search for the entry to evict: the protected one is passed over. -/
def olderEntry (protect : Nat) (oldest : Option (Entry Number)) (entry : Entry Number) :
    Option (Entry Number) :=
  if entry.address = protect then oldest
  else
    match oldest with
    | none => some entry
    | some other => if entry.lastUsed < other.lastUsed then some entry else some other

def findOldest (protect : Nat) (entries : List (Entry Number)) : Option (Entry Number) :=
  entries.foldl (olderEntry protect) none

/-- The loop of the eviction, which takes an entry off the list in every round. -/
def evictLoop (maxEntries : Int) (protect : Nat) : Nat → Cache Number → Cache Number
  | 0, cache => cache
  | rounds + 1, cache =>
    if cache.count ≤ maxEntries then cache
    else
      match findOldest protect cache.entries with
      | none => cache
      | some oldest =>
        evictLoop maxEntries protect rounds
          { cache with
            entries := cache.entries.eraseP fun entry => entry.address == oldest.address
            count := cache.count - 1 }

def evictCache (maxEntries : Int) (protect : Nat) (cache : Cache Number) : Cache Number :=
  evictLoop maxEntries protect cache.entries.length cache

def lookup (cache : Cache Number) (request : LoadRequest) : Option (Entry Number × Cache Number) :=
  if 0 < request.spec.cacheSize then findCachedModel cache request else none

/-- A model just loaded, in the list where the request caches. -/
def addModel (cache : Cache Number) (request : LoadRequest) (model : CachedModel Number) :
    LoadResult Number × Cache Number :=
  let clock := tick cache.clock
  let entry : Entry Number := ⟨cache.nextAddress, model, clock⟩
  let cache := { cache with
    clock := clock
    nextAddress := cache.nextAddress + 1 }
  if 0 < request.spec.cacheSize then
    (⟨entry, false, true⟩,
      evictCache request.spec.cacheSize entry.address
        { cache with
          entries := entry :: cache.entries
          count := cache.count + 1 })
  else (⟨entry, false, false⟩, cache)

def loadModel (world : World Number) (cache : Cache Number) (request : LoadRequest) :
    Except String (LoadResult Number) × Cache Number :=
  match lookup cache request with
  | some (entry, cache) => (.ok ⟨entry, true, true⟩, cache)
  | none =>
    match freshLoad world request.spec request.path request.nSeqMax with
    | .error message => (.error message, cache)
    | .ok model =>
      let (result, cache) := addModel cache request model
      (.ok result, cache)

/-! ### Runs -/

/-- The cache after some loads, and the request each entry was loaded for. -/
structure Run (Number : Type) where
  cache : Cache Number := {}
  origins : List (Nat × ModelSpec) := []

def Run.load (world : World Number) (run : Run Number) (request : LoadRequest) : Run Number :=
  let (result, cache) := loadModel world run.cache request
  match result with
  | .ok loaded =>
    { cache := cache
      origins := if loaded.loadedFromCache then run.origins
        else (loaded.entry.address, request.spec) :: run.origins }
  | .error _ =>
    { cache := cache
      origins := run.origins }

def loadStep (world : World Number) (run : Run Number) (request : LoadRequest) :
    Option (Run Number) :=
  some (run.load world request)

/-- No entry the load may find was made for a request that differs beyond the key. -/
def FindsSame (run : Run Number) (request : LoadRequest) : Prop :=
  ∀ entry ∈ (lookup run.cache request).map Prod.fst, ∀ origin,
    (entry.address, origin) ∈ run.origins → SameBeyondKey origin request.spec

/-- **A load is transparent**: it gives what a fresh load would, or its error; the count is the
length of the list, a load that adds its model leaves no more entries than its cache size, a model
the cache owns is in the list and another one is not. -/
structure LoadRight (world : World Number) (run : Run Number) (request : LoadRequest) : Prop where
  fresh : ((loadModel world run.cache request).1.map fun result => result.entry.model) =
    freshLoad world request.spec request.path request.nSeqMax
  count : (loadModel world run.cache request).2.count =
    (loadModel world run.cache request).2.entries.length
  size : ∀ result, (loadModel world run.cache request).1 = .ok result →
    result.cacheOwned ∧ ¬result.loadedFromCache →
      ((loadModel world run.cache request).2.entries.length : Int) ≤ request.spec.cacheSize
  owned : ∀ result, (loadModel world run.cache request).1 = .ok result → result.cacheOwned →
    result.entry ∈ (loadModel world run.cache request).2.entries
  notOwned : ∀ result, (loadModel world run.cache request).1 = .ok result → ¬result.cacheOwned →
    ∀ entry ∈ (loadModel world run.cache request).2.entries, entry.address ≠ result.entry.address

/-! ### The eviction -/

/-- The count is the length of the list, and the entries are distinct. -/
structure Cache.Sound (cache : Cache Number) : Prop where
  count : cache.count = cache.entries.length
  distinct : (cache.entries.map Entry.address).Nodup
  bounded : ∀ entry ∈ cache.entries, entry.address < cache.nextAddress

variable {protect : Nat} {entries : List (Entry Number)} {oldest entry : Entry Number}
  {start : Option (Entry Number)} {before middle after : Cache Number} {maxEntries : Int}

theorem foldl_olderEntry_eq_some (found : entries.foldl (olderEntry protect) start = some oldest) :
    start = some oldest ∨ oldest ∈ entries ∧ oldest.address ≠ protect := by
  induction entries generalizing start with
  | nil => exact .inl found
  | cons entry rest ih =>
    rcases ih found with here | ⟨member, other⟩
    · unfold olderEntry at here
      split at here
      · exact .inl here
      · rename_i other
        split at here
        · obtain rfl := Option.some.inj here
          exact .inr ⟨List.mem_cons_self, other⟩
        · split_ifs at here
          · obtain rfl := Option.some.inj here
            exact .inr ⟨List.mem_cons_self, other⟩
          · exact .inl here
    · exact .inr ⟨.tail _ member, other⟩

theorem findOldest_mem (found : findOldest protect entries = some oldest) :
    oldest ∈ entries ∧ oldest.address ≠ protect := by
  rcases foldl_olderEntry_eq_some found with impossible | result
  · cases impossible
  · exact result

theorem olderEntry_eq_none : olderEntry protect start entry = none ↔
    start = none ∧ entry.address = protect := by
  unfold olderEntry
  split
  · rename_i protected'
    simp [protected']
  · rename_i other
    split
    · simp [other]
    · split_ifs <;> simp

theorem foldl_olderEntry_eq_none (nothing : entries.foldl (olderEntry protect) start = none) :
    start = none ∧ ∀ entry ∈ entries, entry.address = protect := by
  induction entries generalizing start with
  | nil => exact ⟨nothing, fun entry member => nomatch member⟩
  | cons first rest ih =>
    obtain ⟨here, later⟩ := ih nothing
    obtain ⟨empty, protected'⟩ := olderEntry_eq_none.mp here
    refine ⟨empty, fun entry member => ?_⟩
    rcases List.mem_cons.mp member with rfl | member
    · exact protected'
    · exact later entry member

theorem findOldest_none (nothing : findOldest protect entries = none) :
    ∀ entry ∈ entries, entry.address = protect :=
  (foldl_olderEntry_eq_none nothing).2

structure Evicts (protect : Nat) (before after : Cache Number) : Prop where
  sublist : after.entries.Sublist before.entries
  keeps : ∀ entry ∈ before.entries, entry.address = protect → entry ∈ after.entries
  nextAddress : after.nextAddress = before.nextAddress
  sound : before.Sound → after.Sound

theorem Evicts.refl (cache : Cache Number) : Evicts protect cache cache where
  sublist := .refl _
  keeps _ member _ := member
  nextAddress := rfl
  sound := id

theorem Evicts.trans (first : Evicts protect before middle) (second : Evicts protect middle after) :
    Evicts protect before after where
  sublist := second.sublist.trans first.sublist
  keeps entry member protected' :=
    second.keeps entry (first.keeps entry member protected') protected'
  nextAddress := second.nextAddress.trans first.nextAddress
  sound holds := second.sound (first.sound holds)

theorem evicts_round (found : findOldest protect before.entries = some oldest) :
    Evicts protect before
      { before with
        entries := before.entries.eraseP fun entry => entry.address == oldest.address
        count := before.count - 1 } := by
  obtain ⟨member, other⟩ := findOldest_mem found
  have sublist : (before.entries.eraseP fun entry => entry.address == oldest.address).Sublist
      before.entries := List.eraseP_sublist
  refine ⟨sublist, ?_, rfl, ?_⟩
  · intro entry inside protected'
    refine (List.mem_eraseP_of_neg ?_).mpr inside
    rw [beq_iff_eq, protected']
    exact other.symm
  · intro sound
    refine ⟨?_, sound.distinct.sublist (sublist.map _), fun entry inside =>
      sound.bounded entry (sublist.subset inside)⟩
    have positive := List.length_pos_of_mem member
    have shorter : (before.entries.eraseP fun entry => entry.address == oldest.address).length =
        before.entries.length - 1 :=
      List.length_eraseP_of_mem member (beq_self_eq_true oldest.address)
    have counted := sound.count
    show before.count - 1 = _
    rw [shorter]
    omega

theorem evictLoop_evicts (maxEntries : Int) (protect rounds : Nat) (before : Cache Number) :
    Evicts protect before (evictLoop maxEntries protect rounds before) := by
  induction rounds generalizing before with
  | zero => exact .refl before
  | succ rounds ih =>
    unfold evictLoop
    split
    · exact .refl before
    · split
      · exact .refl before
      · rename_i oldest found
        exact (evicts_round found).trans (ih _)

theorem evictLoop_done (maxEntries : Int) (protect : Nat) {rounds : Nat}
    (enough : before.entries.length ≤ rounds) :
    (evictLoop maxEntries protect rounds before).count ≤ maxEntries ∨
      findOldest protect (evictLoop maxEntries protect rounds before).entries = none := by
  induction rounds generalizing before with
  | zero =>
    right
    show findOldest protect before.entries = none
    rw [List.length_eq_zero_iff.mp (Nat.le_zero.mp enough)]
    rfl
  | succ rounds ih =>
    unfold evictLoop
    split
    · rename_i small
      exact .inl small
    · split
      · rename_i nothing
        exact .inr nothing
      · rename_i oldest found
        apply ih
        have member := (findOldest_mem found).1
        have shorter : (before.entries.eraseP fun entry =>
            entry.address == oldest.address).length = before.entries.length - 1 :=
          List.length_eraseP_of_mem member (beq_self_eq_true oldest.address)
        show (before.entries.eraseP _).length ≤ rounds
        rw [shorter]
        omega

/-- **The bound of an eviction**, where it is not zero: one entry may be protected. -/
theorem evictCache_size (sound : before.Sound) (positive : 0 < maxEntries) :
    ((evictCache maxEntries protect before).entries.length : Int) ≤ maxEntries := by
  have sound' : (evictCache maxEntries protect before).Sound :=
    (evictLoop_evicts maxEntries protect before.entries.length before).sound sound
  rcases evictLoop_done maxEntries protect (Nat.le_refl before.entries.length) with
    small | nothing
  · rw [← sound'.count]
    exact small
  · have protected' := findOldest_none nothing
    have addresses : ((evictCache maxEntries protect before).entries.map Entry.address) =
        List.replicate (evictCache maxEntries protect before).entries.length protect := by
      rw [List.eq_replicate_iff]
      refine ⟨List.length_map _, fun address member => ?_⟩
      obtain ⟨entry, inside, rfl⟩ := List.mem_map.mp member
      exact protected' entry inside
    have distinct := sound'.distinct
    rw [addresses, List.nodup_replicate] at distinct
    omega

/-! ### One load -/

variable {world : World Number} {cache next : Cache Number} {request : LoadRequest}
  {run : Run Number} {model : CachedModel Number}

theorem lookup_eq_some (found : lookup cache request = some (entry, next)) :
    ∃ stored ∈ cache.entries, stored.hasKey request = true ∧
      entry = { stored with lastUsed := tick cache.clock } ∧
      next = { cache with
        entries := cache.entries.map (Entry.use stored.address (tick cache.clock))
        clock := tick cache.clock } := by
  unfold lookup at found
  split_ifs at found
  unfold findCachedModel at found
  split at found
  · cases found
  · rename_i stored located
    obtain ⟨rfl, rfl⟩ := Prod.mk.inj (Option.some.inj found)
    exact ⟨stored, List.mem_of_find?_eq_some located, List.find?_some located, rfl, rfl⟩

theorem loadModel_found (found : lookup cache request = some (entry, next)) :
    loadModel world cache request = (.ok ⟨entry, true, true⟩, next) := by
  unfold loadModel
  rw [found]

theorem loadModel_error {message : String} (missed : lookup cache request = none)
    (failed : freshLoad world request.spec request.path request.nSeqMax = .error message) :
    loadModel world cache request = (.error message, cache) := by
  unfold loadModel
  rw [missed]
  dsimp only
  rw [failed]

theorem loadModel_loaded (missed : lookup cache request = none)
    (loaded : freshLoad world request.spec request.path request.nSeqMax = .ok model) :
    loadModel world cache request =
      (.ok (addModel cache request model).1, (addModel cache request model).2) := by
  unfold loadModel
  rw [missed]
  dsimp only
  rw [loaded]

@[simp] theorem use_address (address clock : Nat) (entry : Entry Number) :
    (entry.use address clock).address = entry.address := by
  unfold Entry.use
  split_ifs <;> rfl

@[simp] theorem use_model (address clock : Nat) (entry : Entry Number) :
    (entry.use address clock).model = entry.model := by
  unfold Entry.use
  split_ifs <;> rfl

theorem use_sound (sound : cache.Sound) (address clock : Nat) :
    ({ cache with
      entries := cache.entries.map (Entry.use address clock)
      clock := clock } : Cache Number).Sound := by
  have addresses : (cache.entries.map (Entry.use address clock)).map Entry.address =
      cache.entries.map Entry.address := by
    rw [List.map_map]
    exact List.map_congr_left fun entry _ => use_address address clock entry
  refine ⟨?_, ?_, ?_⟩
  · show cache.count = _
    rw [List.length_map, sound.count]
  · show ((cache.entries.map (Entry.use address clock)).map Entry.address).Nodup
    rw [addresses]
    exact sound.distinct
  · intro used member
    obtain ⟨entry, inside, rfl⟩ := List.mem_map.mp member
    rw [use_address]
    exact sound.bounded entry inside

def Cache.pushed (cache : Cache Number) (model : CachedModel Number) : Cache Number :=
  { cache with
    entries := ⟨cache.nextAddress, model, tick cache.clock⟩ :: cache.entries
    count := cache.count + 1
    clock := tick cache.clock
    nextAddress := cache.nextAddress + 1 }

theorem pushed_sound (sound : cache.Sound) (model : CachedModel Number) :
    (cache.pushed model).Sound := by
  refine ⟨?_, ?_, ?_⟩
  · show cache.count + 1 = ((cache.entries.length + 1 : Nat) : Int)
    rw [sound.count]
    rfl
  · show (cache.nextAddress :: cache.entries.map Entry.address).Nodup
    rw [List.nodup_cons]
    refine ⟨fun member => ?_, sound.distinct⟩
    obtain ⟨entry, inside, same⟩ := List.mem_map.mp member
    have below := sound.bounded entry inside
    omega
  · intro entry member
    show entry.address < cache.nextAddress + 1
    rcases List.mem_cons.mp member with rfl | inside
    · exact Nat.lt_succ_self _
    · exact Nat.lt_trans (sound.bounded entry inside) (Nat.lt_succ_self _)

theorem addModel_caches (caches : 0 < request.spec.cacheSize) :
    addModel cache request model =
      (⟨⟨cache.nextAddress, model, tick cache.clock⟩, false, true⟩,
        evictCache request.spec.cacheSize cache.nextAddress (cache.pushed model)) := by
  unfold addModel
  rw [if_pos caches]
  rfl

theorem addModel_caller (caches : ¬0 < request.spec.cacheSize) :
    addModel cache request model =
      (⟨⟨cache.nextAddress, model, tick cache.clock⟩, false, false⟩,
        { cache with
          clock := tick cache.clock
          nextAddress := cache.nextAddress + 1 }) := by
  unfold addModel
  rw [if_neg caches]

/-! ### The invariant of a run -/

/-- The cache is sound, and every entry is what a fresh load gives the request it was loaded for. -/
structure RunSound (world : World Number) (run : Run Number) : Prop where
  sound : run.cache.Sound
  loaded : ∀ entry ∈ run.cache.entries, ∃ origin, (entry.address, origin) ∈ run.origins ∧
    freshLoad world origin entry.model.path entry.model.nSeqMax = .ok entry.model

theorem runSound_empty (world : World Number) : RunSound world {} where
  sound := ⟨rfl, List.nodup_nil, fun _ member => nomatch member⟩
  loaded _ member := nomatch member

theorem sameKey_of_hasKey {origin : ModelSpec}
    (loaded : freshLoad world origin entry.model.path entry.model.nSeqMax = .ok entry.model)
    (key : entry.hasKey request = true) :
    SameKey origin request.spec ∧ entry.model.path = request.path ∧
      entry.model.nSeqMax = request.nSeqMax := by
  obtain ⟨-, backbone, chain, -, -, -, shape⟩ := freshLoad_eq_ok.mp loaded
  simp only [Entry.hasKey, Bool.and_eq_true, beq_iff_eq] at key
  obtain ⟨⟨⟨⟨⟨⟨⟨sameAlias, samePath⟩, sameCtx⟩, sameBatch⟩, sameSeq⟩, sameLayers⟩, sameMode⟩,
    samePooling⟩ := key
  refine ⟨⟨?_, ?_, ?_, ?_, ?_, ?_⟩, samePath, sameSeq⟩
  · rw [← sameAlias, shape]
  · rw [← sameCtx, shape]
  · rw [← sameBatch, shape]
  · rw [← sameLayers, shape]
  · rw [← sameMode, shape]
  · rw [← samePooling, shape]

theorem lookup_fresh (holds : RunSound world run) (agrees : FindsSame run request)
    (found : lookup run.cache request = some (entry, next)) :
    freshLoad world request.spec request.path request.nSeqMax = .ok entry.model := by
  obtain ⟨stored, member, key, rfl, -⟩ := lookup_eq_some found
  obtain ⟨origin, recorded, loaded⟩ := holds.loaded stored member
  obtain ⟨sameKey, samePath, sameSeq⟩ := sameKey_of_hasKey loaded key
  have same : SameBeyondKey origin request.spec := by
    refine agrees { stored with lastUsed := tick run.cache.clock } ?_ origin recorded
    rw [found]
    rfl
  rw [← samePath, ← sameSeq]
  exact freshLoad_congr sameKey same loaded

theorem loadRight_found (holds : RunSound world run) (agrees : FindsSame run request)
    (found : lookup run.cache request = some (entry, next)) : LoadRight world run request := by
  have loaded := lookup_fresh holds agrees found
  obtain ⟨stored, member, -, rfl, rfl⟩ := lookup_eq_some found
  have result : loadModel world run.cache request = _ := loadModel_found found
  have sound := use_sound holds.sound stored.address (tick run.cache.clock)
  constructor
  · rw [result, loaded]
    rfl
  · rw [result]
    exact sound.count
  · rintro returned same ⟨-, notCached⟩
    rw [result] at same
    obtain rfl := Except.ok.inj same
    exact absurd rfl notCached
  · intro returned same _
    rw [result] at same
    obtain rfl := Except.ok.inj same
    rw [result]
    refine List.mem_map.mpr ⟨stored, member, ?_⟩
    unfold Entry.use
    rw [if_pos rfl]
  · intro returned same notOwned
    rw [result] at same
    obtain rfl := Except.ok.inj same
    exact absurd rfl notOwned

theorem loadRight_error {message : String} (holds : RunSound world run)
    (missed : lookup run.cache request = none)
    (failed : freshLoad world request.spec request.path request.nSeqMax = .error message) :
    LoadRight world run request := by
  have result := loadModel_error missed failed
  constructor
  · rw [result, failed]
    rfl
  · rw [result]
    exact holds.sound.count
  all_goals
    intro returned same
    rw [result] at same
    cases same

theorem loadRight_caches (holds : RunSound world run) (missed : lookup run.cache request = none)
    (loaded : freshLoad world request.spec request.path request.nSeqMax = .ok model)
    (caches : 0 < request.spec.cacheSize) : LoadRight world run request := by
  have result := loadModel_loaded missed loaded
  rw [addModel_caches caches] at result
  have sound := pushed_sound holds.sound model
  have evicts := evictLoop_evicts request.spec.cacheSize run.cache.nextAddress
    (run.cache.pushed model).entries.length (run.cache.pushed model)
  constructor
  · rw [result, loaded]
    rfl
  · rw [result]
    exact (evicts.sound sound).count
  · intro returned _ _
    rw [result]
    exact evictCache_size sound caches
  · intro returned same _
    rw [result] at same
    obtain rfl := Except.ok.inj same
    rw [result]
    exact evicts.keeps _ List.mem_cons_self rfl
  · intro returned same notOwned
    rw [result] at same
    obtain rfl := Except.ok.inj same
    exact absurd rfl notOwned

theorem loadRight_caller (holds : RunSound world run) (missed : lookup run.cache request = none)
    (loaded : freshLoad world request.spec request.path request.nSeqMax = .ok model)
    (caches : ¬0 < request.spec.cacheSize) : LoadRight world run request := by
  have result := loadModel_loaded missed loaded
  rw [addModel_caller caches] at result
  constructor
  · rw [result, loaded]
    rfl
  · rw [result]
    exact holds.sound.count
  · rintro returned same ⟨owned, -⟩
    rw [result] at same
    obtain rfl := Except.ok.inj same
    cases owned
  · intro returned same owned
    rw [result] at same
    obtain rfl := Except.ok.inj same
    cases owned
  · intro returned same _ entry inside
    rw [result] at same inside
    obtain rfl := Except.ok.inj same
    exact Nat.ne_of_lt (holds.sound.bounded entry inside)

/-- **One load**: it is transparent where no entry it may find differs beyond the key. -/
theorem loadRight_of_sound (holds : RunSound world run) (agrees : FindsSame run request) :
    LoadRight world run request := by
  cases found : lookup run.cache request with
  | some pair => exact loadRight_found holds agrees found
  | none =>
    cases loaded : freshLoad world request.spec request.path request.nSeqMax with
    | error message => exact loadRight_error holds found loaded
    | ok model =>
      by_cases caches : 0 < request.spec.cacheSize
      · exact loadRight_caches holds found loaded caches
      · exact loadRight_caller holds found loaded caches

theorem load_found (found : lookup run.cache request = some (entry, next)) :
    run.load world request = ⟨next, run.origins⟩ := by
  unfold Run.load
  rw [loadModel_found found]
  rfl

theorem load_error {message : String} (missed : lookup run.cache request = none)
    (failed : freshLoad world request.spec request.path request.nSeqMax = .error message) :
    run.load world request = run := by
  unfold Run.load
  rw [loadModel_error missed failed]

theorem load_caches (missed : lookup run.cache request = none)
    (loaded : freshLoad world request.spec request.path request.nSeqMax = .ok model)
    (caches : 0 < request.spec.cacheSize) :
    run.load world request =
      ⟨evictCache request.spec.cacheSize run.cache.nextAddress (run.cache.pushed model),
        (run.cache.nextAddress, request.spec) :: run.origins⟩ := by
  unfold Run.load
  rw [loadModel_loaded missed loaded, addModel_caches caches]
  rfl

theorem load_caller (missed : lookup run.cache request = none)
    (loaded : freshLoad world request.spec request.path request.nSeqMax = .ok model)
    (caches : ¬0 < request.spec.cacheSize) :
    run.load world request =
      ⟨{ run.cache with
          clock := tick run.cache.clock
          nextAddress := run.cache.nextAddress + 1 },
        (run.cache.nextAddress, request.spec) :: run.origins⟩ := by
  unfold Run.load
  rw [loadModel_loaded missed loaded, addModel_caller caches]
  rfl

theorem load_sound (holds : RunSound world run) (request : LoadRequest) :
    RunSound world (run.load world request) := by
  cases found : lookup run.cache request with
  | some pair =>
    rw [load_found found]
    obtain ⟨stored, -, -, -, shape⟩ := lookup_eq_some found
    rw [shape]
    refine ⟨use_sound holds.sound _ _, fun used member => ?_⟩
    obtain ⟨entry, inside, rfl⟩ := List.mem_map.mp member
    rw [use_address, use_model]
    exact holds.loaded entry inside
  | none =>
    cases loaded : freshLoad world request.spec request.path request.nSeqMax with
    | error message =>
      rw [load_error found loaded]
      exact holds
    | ok model =>
      by_cases caches : 0 < request.spec.cacheSize
      · rw [load_caches found loaded caches]
        have evicts := evictLoop_evicts request.spec.cacheSize run.cache.nextAddress
          (run.cache.pushed model).entries.length (run.cache.pushed model)
        refine ⟨evicts.sound (pushed_sound holds.sound model), fun entry member => ?_⟩
        rcases List.mem_cons.mp (evicts.sublist.subset member) with rfl | inside
        · refine ⟨request.spec, List.mem_cons_self, ?_⟩
          have shape := loaded
          obtain ⟨-, backbone, chain, -, -, -, rfl⟩ := freshLoad_eq_ok.mp loaded
          exact shape
        · obtain ⟨origin, recorded, fresh⟩ := holds.loaded entry inside
          exact ⟨origin, .tail _ recorded, fresh⟩
      · rw [load_caller found loaded caches]
        refine ⟨⟨holds.sound.count, holds.sound.distinct, fun entry member =>
          Nat.lt_trans (holds.sound.bounded entry member) (Nat.lt_succ_self _)⟩,
          fun entry member => ?_⟩
        obtain ⟨origin, recorded, fresh⟩ := holds.loaded entry member
        exact ⟨origin, .tail _ recorded, fresh⟩

/-- **The cache is transparent** in every run of loads in which no load finds an entry that was made
for a request that differs beyond the key. -/
theorem loadModel_transparent (world : World Number)
    (reached : ReachedBy (loadStep world) FindsSame {} run) (agrees : FindsSame run request) :
    LoadRight world run request := by
  refine loadRight_of_sound (reached.invariant (runSound_empty world) ?_) agrees
  intro run next request holds _ stepped
  obtain rfl := Option.some.inj stepped
  exact load_sound holds request

/-! ### A model with two profiles -/

def squareFile : GgufFile Int where
  metadata := some []
  tensors := some [⟨"colbert.proj.weight", 0, [2, 2], 0⟩]
  headerEnd := 0
  seeks _ := true
  data _ _ elements := some (List.replicate elements 1)

def squareWorld : World Int where
  gguf _ := .ok squareFile
  sidecar _ := none
  defaultSwaFull := false
  defaultKvUnified := true
  loadModel _ _ _ := some ⟨512, 2, 1, 1⟩
  initContext _ _ _ := true

/-- A request without a profile, as generic embeddings make it. -/
def genericRequest : LoadRequest where
  spec := ⟨"colbert", .tokens, .none, 1, 4, 512, 512, 0, 2, ⟨false, "", []⟩⟩
  path := "/models/colbert.gguf"
  nSeqMax := 1

/-- The request of an encoding with a profile, which truncates to one dimension. -/
def truncatedRequest : LoadRequest :=
  { genericRequest with
    spec := { genericRequest.spec with
      profile := ⟨true, "gguf",
        [⟨"dense", "identity", "", "", 2, false, 0⟩, ⟨"truncate", "", "", "", 1, false, 0⟩]⟩ } }

/-- Two loads of one request: the second finds the entry of the first. -/
theorem loadModel_transparent_again :
    LoadRight squareWorld (({} : Run Int).load squareWorld truncatedRequest) truncatedRequest := by
  have origins : (({} : Run Int).load squareWorld truncatedRequest).origins =
      [(0, truncatedRequest.spec)] := rfl
  refine loadModel_transparent squareWorld (.step .start ?_ rfl) ?_
  · intro entry _ origin recorded
    cases recorded
  · intro entry _ origin recorded
    rw [origins, List.mem_singleton] at recorded
    obtain ⟨-, rfl⟩ := Prod.mk.inj recorded
    exact ⟨rfl, rfl, fun _ => rfl⟩

/-- The generic load finds the entry of the encoding, and its vectors have one dimension, not two. -/
theorem loadModel_otherProfile :
    ∃ run, Reached (loadStep squareWorld) {} run ∧ ¬LoadRight squareWorld run genericRequest := by
  refine ⟨({} : Run Int).load squareWorld truncatedRequest, .step .start trivial rfl, ?_⟩
  intro right
  have same := congrArg (Except.map fun model => model.chain.nEmbdOut) right.fresh
  have cached : ((loadModel squareWorld (({} : Run Int).load squareWorld truncatedRequest).cache
      genericRequest).1.map fun result => result.entry.model.chain.nEmbdOut) = .ok 1 := rfl
  have fresh : ((freshLoad squareWorld genericRequest.spec genericRequest.path
      genericRequest.nSeqMax).map fun model => model.chain.nEmbdOut) = .ok 2 := rfl
  rw [fresh] at same
  have impossible : (.ok 1 : Except String Int) = .ok 2 := cached.symm.trans same
  exact absurd (Except.ok.inj impossible) (by decide)

end TurboHybrid.Colbert
