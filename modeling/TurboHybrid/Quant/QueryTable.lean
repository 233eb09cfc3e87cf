/-
**The lookup table of a prepared query.**

A query is prepared once for a scan. Its lookup table is left out where an integer kernel is to
score it; which one that is, is decided from the settings and the processor. Every later call
decides anew and falls back to the table where the kernels decline.

* `prepare_cases`: with the table, or with one of the two split representations and without it;
* `lookupTable_present_iff`: no call reads a table that was not built, if and only if a kernel for
  the signed representation stays available, and the batch of four was on for the unsigned one where
  a call finds it on;
* `settings_changed_between`: two changes of a setting after which a call reads it.
-/
import Mathlib.Tactic.Common

namespace TurboHybrid.Quant.QueryTable

/-! ### Settings and queries -/

inductive SimdForce
  | auto | scalar | avx2 | avxvnni | avx512vnni | neon | armSdot | armI8mm
  deriving DecidableEq, Repr

inductive U8Split
  | auto | on | off
  deriving DecidableEq, Repr

inductive QuerySplitImpl
  | auto | signed | unsigned
  deriving DecidableEq, Repr

inductive BatchScoring
  | auto | off | on
  deriving DecidableEq, Repr

inductive ScoreMode
  | l2 | ip | cosine | l1
  deriving DecidableEq, Repr

structure Settings where
  simdForce : SimdForce
  querySplitImpl : QuerySplitImpl
  u8Split : U8Split
  u8BatchX4 : Bool
  graphAvx512vnni : Bool
  graphAvxvnni : Bool
  batchScoring : BatchScoring
  batchSize : Nat
  query1bitAsymmetric : Bool
  lowbitPopcnt : Bool

/-- What is compiled in, and what the probes of the processor say. -/
structure Machine where
  compileArm64 : Bool
  compileArmDot : Bool
  compileAvx2 : Bool
  compileAvxvnni : Bool
  compileAvx512vnni : Bool
  compileAvx512Weighted : Bool
  valgrind : Bool
  cpuArmDot : Bool
  cpuAvx2 : Bool
  cpuAvxvnni : Bool
  cpuAvx512vnni : Bool

/-- A query before it is prepared; `packed` where the index has packed codes and there is a vector,
`planes` and `signBits` where the preparation for one bit builds them. -/
structure QueryShape where
  packed : Bool
  bits : Nat
  dimensions : Nat
  scoreMode : ScoreMode
  prepareSplit : Bool
  planes : Bool
  signBits : Bool

/-- `PgturbohybridGraphTqQuery`. -/
structure TqQuery where
  enabled : Bool
  bits : Nat
  dimensions : Nat
  scoreMode : ScoreMode
  planes : Bool
  signBits : Bool
  signedEnabled : Bool
  u8Enabled : Bool
  kernelSingle : Bool
  kernelBatch : Bool
  table : Bool

def querySplitMinDim : Nat := 64

section Calls

variable (machine : Machine) (settings : Settings)

/-! ### Probes -/

def armDotprodAvailable : Bool :=
  decide (settings.simdForce = .auto ∨ settings.simdForce = .armSdot ∨
    settings.simdForce = .neon) && machine.cpuArmDot

def avx512VnniAvailable : Bool :=
  !machine.valgrind && settings.graphAvx512vnni &&
    decide (settings.simdForce = .auto ∨ settings.simdForce = .avx512vnni) &&
      machine.cpuAvx512vnni

def avxVnniAvailable : Bool :=
  !machine.valgrind && settings.graphAvxvnni &&
    decide (settings.simdForce = .auto ∨ settings.simdForce = .avxvnni) && machine.cpuAvxvnni

def avx2Available : Bool :=
  decide (settings.simdForce = .auto ∨ settings.simdForce = .avx2) && machine.cpuAvx2

def compileQuerySplit : Bool :=
  machine.compileArmDot || machine.compileAvx2 || machine.compileAvx512vnni ||
    machine.compileAvxvnni || machine.compileAvx512Weighted

/-- The chain of kernels of the signed representation finds one. -/
def splitAvailable : Bool :=
  (machine.compileArmDot && armDotprodAvailable machine settings) ||
    (machine.compileAvx512vnni && avx512VnniAvailable machine settings) ||
    (machine.compileAvxvnni && avxVnniAvailable machine settings) ||
    (machine.compileAvx2 && avx2Available machine settings)

/-! ### Preparation -/

/-- `PgturbohybridGraphTqUseU8Split`. -/
def useU8Split (query : TqQuery) : Bool :=
  if settings.simdForce = .scalar ∨ query.bits ≠ 4 ∨ query.dimensions < querySplitMinDim ∨
      query.scoreMode = .l1 ∨ avx2Available machine settings = false then false
  else
    match settings.u8Split with
    | .off => false
    | .on => true
    | .auto => decide (settings.querySplitImpl ≠ .signed)

/-- `TqPrepareQuerySplit4`. -/
def prepareQuerySplit4 (query : TqQuery) : TqQuery :=
  if query.enabled = false ∨ (query.bits ≠ 4 ∧ query.bits ≠ 2) ∨ query.scoreMode = .l1 ∨
      query.dimensions = 0 then query
  else { query with signedEnabled := true }

/-- `PgturbohybridGraphTqResolveU8Kernels`. -/
def resolveU8Kernels (query : TqQuery) : TqQuery :=
  let found := query.u8Enabled && decide (querySplitMinDim ≤ query.dimensions) &&
    decide (query.bits = 4) && decide (query.scoreMode ≠ .l1) &&
      ((machine.compileAvx512vnni && avx512VnniAvailable machine settings) ||
        avx2Available machine settings)
  { query with kernelSingle := found, kernelBatch := settings.u8BatchX4 && found }

/-- `TqPrepareQueryU8Split`. -/
def prepareQueryU8Split (query : TqQuery) : TqQuery :=
  if query.enabled = false ∨ query.bits ≠ 4 ∨ query.scoreMode = .l1 ∨ query.dimensions = 0 then
    query
  else resolveU8Kernels machine settings { query with u8Enabled := true }

/-- `PgturbohybridGraphTqQuerySplitActive`. -/
def querySplitActive (query : TqQuery) : Bool :=
  compileQuerySplit machine &&
    ((machine.compileAvx2 && query.u8Enabled) ||
      (query.signedEnabled && decide (querySplitMinDim ≤ query.dimensions) &&
        decide (query.bits = 4 ∨ query.bits = 2) && decide (query.scoreMode ≠ .l1) &&
          splitAvailable machine settings))

def noQuery : TqQuery := ⟨false, 0, 0, .l2, false, false, false, false, false, false, false⟩

def startQuery (shape : QueryShape) : TqQuery :=
  { noQuery with
    enabled := true
    bits := shape.bits
    dimensions := shape.dimensions
    scoreMode := shape.scoreMode
    planes := shape.planes
    signBits := shape.signBits }

def splitQuery (shape : QueryShape) : TqQuery :=
  if (machine.compileArm64 || machine.compileAvx2) && shape.prepareSplit then
    if machine.compileAvx2 && useU8Split machine settings (startQuery shape) then
      prepareQueryU8Split machine settings (startQuery shape)
    else prepareQuerySplit4 (startQuery shape)
  else startQuery shape

/-- `PgturbohybridGraphPrepareTqQueryInternal`. -/
def prepareTqQuery (shape : QueryShape) : TqQuery :=
  if shape.packed = false then noQuery
  else
    { splitQuery machine settings shape with
      table := !querySplitActive machine settings (splitQuery machine settings shape) }

/-! ### Scoring -/

inductive Fault
  | absentTable
  deriving DecidableEq, Repr

variable (query : TqQuery)

def readTable : Except Fault Unit := if query.table then .ok () else .error .absentTable

/-- The kernels that read the table; none does with the distance by absolute values. -/
def codeDistanceTable : Except Fault Unit :=
  if query.scoreMode = .l1 ∨ query.dimensions = 0 then .ok () else readTable query

/-- `PgturbohybridGraphPackedDistanceQuerySplit4` and `…QuerySplit2`, by their width. -/
def packedDistanceQuerySplit (bits : Nat) : Bool :=
  query.signedEnabled && decide (querySplitMinDim ≤ query.dimensions) &&
    decide (query.bits = bits) && decide (query.scoreMode ≠ .l1) && splitAvailable machine settings

/-- `PgturbohybridGraphTqCodeQuerySplitDistance`. -/
def codeQuerySplitDistance : Bool :=
  compileQuerySplit machine &&
    ((machine.compileAvx2 && query.u8Enabled && query.kernelSingle) ||
      packedDistanceQuerySplit machine settings query 4 ||
        packedDistanceQuerySplit machine settings query 2)

/-- `TqCodeDistance`. -/
def tqCodeDistance : Except Fault Unit :=
  if codeQuerySplitDistance machine settings query then .ok () else codeDistanceTable query

/-- `PgturbohybridGraphScoreNode` on a node with a code or without one. -/
def scoreNode (hasCode : Bool) : Except Fault Unit :=
  if query.enabled = false ∨ hasCode = false then .ok ()
  else if settings.query1bitAsymmetric && decide (query.bits = 1) && query.planes &&
      decide (query.scoreMode ≠ .l1) then .ok ()
  else if codeQuerySplitDistance machine settings query then .ok ()
  else tqCodeDistance machine settings query

/-- `PgturbohybridGraphScoreNodeBatchU8Split`; `codes` where all four nodes have one. -/
def batchU8Split (codes : Bool) : Bool :=
  query.u8Enabled && codes &&
    if settings.u8BatchX4 then query.kernelBatch else query.kernelSingle

/-- The batches over the table, of four bits or of one and two. -/
def batchTable (codes width : Bool) : Except Fault Bool :=
  if query.enabled = false ∨ query.dimensions = 0 ∨ query.scoreMode = .l1 ∨ width = false ∨
      codes = false then .ok false
  else do
    readTable query
    return true

/-- The batches of one bit, by its planes or by its signs. -/
def batchOneBit (codes : Bool) : Bool :=
  query.enabled && codes && decide (query.bits = 1) && decide (0 < query.dimensions) &&
    decide (query.scoreMode ≠ .l1) &&
      ((settings.query1bitAsymmetric && query.planes) ||
        (settings.lowbitPopcnt && query.signBits))

def scoreFour (codes : Bool) : Except Fault Bool :=
  if compileQuerySplit machine &&
      ((machine.compileAvx2 && batchU8Split settings query codes) ||
        (codes && (packedDistanceQuerySplit machine settings query 4 ||
          packedDistanceQuerySplit machine settings query 2))) then .ok true
  else do
    if ← batchTable query codes (decide (query.bits = 4)) then return true
    if batchOneBit settings query codes then return true
    batchTable query codes (decide (query.bits = 1 ∨ query.bits = 2))

/-- The loop over the nodes, by whether they have codes. -/
def scoreLoop : List Bool → Except Fault Unit
  | [] => .ok ()
  | [one] => scoreNode machine settings query one
  | [one, two] => do
    scoreNode machine settings query one
    scoreLoop [two]
  | [one, two, three] => do
    scoreNode machine settings query one
    scoreLoop [two, three]
  | one :: two :: three :: four :: rest => do
    if ← scoreFour machine settings query (one && two && three && four) then scoreLoop rest
    else
      scoreNode machine settings query one
      scoreLoop (two :: three :: four :: rest)

/-- `PgturbohybridGraphScoreNodeBatch`; `exact` where it scores by stored vectors. -/
def scoreNodeBatch (exact : Bool) (nodes : List Bool) : Except Fault Unit :=
  if settings.batchScoring = .off ∨ settings.batchSize < 4 then
    nodes.forM (scoreNode machine settings query)
  else if exact then .ok ()
  else scoreLoop machine settings query nodes

inductive Call
  | scoreNode (hasCode : Bool)
  | scoreNodeBatch (exact : Bool) (nodes : List Bool)
  | tqCodeDistance

def Call.run : Call → Except Fault Unit
  | .scoreNode hasCode => QueryTable.scoreNode machine settings query hasCode
  | .scoreNodeBatch exact nodes => QueryTable.scoreNodeBatch machine settings query exact nodes
  | .tqCodeDistance => QueryTable.tqCodeDistance machine settings query

end Calls

/-! ### What is prepared -/

section Prepared

variable (machine : Machine) (before after : Settings) (shape : QueryShape)

def preparesUnsigned : Bool :=
  shape.packed && shape.prepareSplit && machine.compileAvx2 &&
    useU8Split machine before (startQuery shape)

/-- The signed representation is chosen, and a kernel is there for it. -/
def preparesSigned : Bool :=
  shape.packed && shape.prepareSplit && (machine.compileArm64 || machine.compileAvx2) &&
    !(machine.compileAvx2 && useU8Split machine before (startQuery shape)) &&
      decide (shape.bits = 4 ∨ shape.bits = 2) && decide (shape.scoreMode ≠ .l1) &&
        decide (querySplitMinDim ≤ shape.dimensions) && splitAvailable machine before

/-- The query with the unsigned representation, and with the signed one. -/
def unsignedQuery : TqQuery :=
  { startQuery shape with
    u8Enabled := true
    kernelSingle := true
    kernelBatch := before.u8BatchX4 }

def signedQuery : TqQuery := { startQuery shape with signedEnabled := true }

def batches : Prop := after.batchScoring ≠ .off ∧ 4 ≤ after.batchSize

/-- **The settings are kept**: the batch of four that a call finds on was on for an unsigned
representation, and a kernel stays available for a signed one. -/
structure SettingsKept : Prop where
  unsigned : preparesUnsigned machine before shape = true → batches after →
    after.u8BatchX4 = true → before.u8BatchX4 = true
  signed : preparesSigned machine before shape = true → splitAvailable machine after = true

variable {machine before after shape}

theorem useU8Split_shape {query : TqQuery} (uses : useU8Split machine before query = true) :
    query.bits = 4 ∧ querySplitMinDim ≤ query.dimensions ∧ query.scoreMode ≠ .l1 ∧
      avx2Available machine before = true := by
  rw [useU8Split] at uses
  split_ifs at uses with declined
  simp only [not_or, Bool.not_eq_false, not_not, Nat.not_lt] at declined
  exact ⟨declined.2.1, declined.2.2.1, declined.2.2.2.1, declined.2.2.2.2⟩

theorem compileQuerySplit_of_available (ready : splitAvailable machine before = true) :
    compileQuerySplit machine = true := by
  simp only [splitAvailable, Bool.or_eq_true, Bool.and_eq_true] at ready
  simp only [compileQuerySplit, Bool.or_eq_true]
  tauto

theorem prepare_unsigned (unsigned : preparesUnsigned machine before shape = true) :
    machine.compileAvx2 = true ∧ prepareTqQuery machine before shape = unsignedQuery before shape ∧
      shape.bits = 4 ∧ 0 < shape.dimensions ∧ shape.scoreMode ≠ .l1 := by
  simp only [preparesUnsigned, Bool.and_eq_true] at unsigned
  obtain ⟨⟨⟨packed, split⟩, compiled⟩, uses⟩ := unsigned
  obtain ⟨bits, large, mode, avx2⟩ := useU8Split_shape uses
  have bits' : shape.bits = 4 := bits
  have mode' : shape.scoreMode ≠ .l1 := mode
  have large' : querySplitMinDim ≤ shape.dimensions := large
  have some_ : 0 < shape.dimensions := Nat.lt_of_lt_of_le (by decide) large'
  have prepared : prepareQueryU8Split machine before (startQuery shape) =
      unsignedQuery before shape := by
    simp [unsignedQuery, prepareQueryU8Split, resolveU8Kernels, startQuery, bits', mode', large',
      avx2, Nat.pos_iff_ne_zero.mp some_]
  have active : compileQuerySplit machine = true := by simp [compileQuerySplit, compiled]
  have chosen : splitQuery machine before shape = unsignedQuery before shape := by
    rw [splitQuery, compiled, split, uses, Bool.or_true, Bool.true_and, if_pos rfl, if_pos rfl,
      prepared]
  refine ⟨compiled, ?_, bits', some_, mode'⟩
  rw [prepareTqQuery, if_neg (by simp [packed]), chosen]
  simp [querySplitActive, active, compiled, unsignedQuery, startQuery, noQuery]

theorem prepare_signed (signed : preparesSigned machine before shape = true) :
    prepareTqQuery machine before shape = signedQuery shape ∧
      (shape.bits = 4 ∨ shape.bits = 2) ∧ querySplitMinDim ≤ shape.dimensions ∧
        shape.scoreMode ≠ .l1 := by
  simp only [preparesSigned, Bool.and_eq_true, decide_eq_true_eq, Bool.not_eq_true'] at signed
  obtain ⟨⟨⟨⟨⟨⟨⟨packed, split⟩, compiled⟩, uses⟩, bits⟩, mode⟩, large⟩, ready⟩ := signed
  have some_ : 0 < shape.dimensions := Nat.lt_of_lt_of_le (by decide) large
  have width : ¬(shape.bits ≠ 4 ∧ shape.bits ≠ 2) := by tauto
  have prepared : prepareQuerySplit4 (startQuery shape) = signedQuery shape := by
    refine if_neg ?_
    simpa [startQuery, mode, Nat.pos_iff_ne_zero.mp some_] using width
  have chosen : splitQuery machine before shape = signedQuery shape := by
    rw [splitQuery, compiled, split, uses, Bool.true_and, if_pos rfl, if_neg Bool.false_ne_true,
      prepared]
  refine ⟨?_, bits, large, mode⟩
  rw [prepareTqQuery, if_neg (by simp [packed]), chosen]
  simp [querySplitActive, compileQuerySplit_of_available ready, signedQuery, startQuery, noQuery,
    mode, large, bits, ready]

theorem prepare_table (packed : shape.packed = true)
    (unsigned : preparesUnsigned machine before shape = false)
    (signed : preparesSigned machine before shape = false) :
    (prepareTqQuery machine before shape).table = true := by
  rw [prepareTqQuery, if_neg (by simp [packed])]
  rw [preparesUnsigned, packed] at unsigned
  rw [preparesSigned, packed] at signed
  dsimp only
  rw [Bool.not_eq_true', splitQuery]
  by_cases splits : ((machine.compileArm64 || machine.compileAvx2) && shape.prepareSplit) = true
  · obtain ⟨compiled, split⟩ := Bool.and_eq_true_iff.mp splits
    rw [split, Bool.true_and, Bool.true_and] at unsigned
    rw [split, compiled, unsigned] at signed
    rw [if_pos splits, unsigned, if_neg Bool.false_ne_true, prepareQuerySplit4]
    split_ifs with declined
    · simp [querySplitActive, startQuery, noQuery]
    · simp only [querySplitActive, startQuery, noQuery, Bool.and_false, Bool.false_or,
        Bool.and_eq_false_iff, decide_eq_false_iff_not, Bool.not_false, Bool.and_true,
        Bool.true_and] at signed ⊢
      rcases signed with ((width | mode) | small) | gone
      · exact .inr (.inl (.inl (.inr (decide_eq_false width))))
      · exact .inr (.inl (.inr (decide_eq_false mode)))
      · exact .inr (.inl (.inl (.inl (decide_eq_false small))))
      · exact .inr (.inr gone)
  · rw [if_neg splits]
    simp [querySplitActive, startQuery, noQuery]

/-! ### What the calls read -/

theorem scoreLoop_ok {settings : Settings} {query : TqQuery}
    (node : ∀ hasCode, scoreNode machine settings query hasCode = .ok ())
    (four : ∀ codes, ∃ scored, scoreFour machine settings query codes = .ok scored)
    (nodes : List Bool) : scoreLoop machine settings query nodes = .ok () := by
  induction nodes using scoreLoop.induct with
  | case1 => rfl
  | case2 one => exact node one
  | case3 one two ih => rw [scoreLoop, node]; exact ih
  | case4 one two three ih => rw [scoreLoop, node]; exact ih
  | case5 one two three last rest ih ih' =>
    obtain ⟨scored, done⟩ := four (one && two && three && last)
    rw [scoreLoop, done]
    cases scored with
    | true => exact ih
    | false =>
      show (scoreNode machine settings query one >>= fun _ => _) = _
      rw [node]
      exact ih'

theorem run_ok {settings : Settings} {query : TqQuery}
    (node : ∀ hasCode, scoreNode machine settings query hasCode = .ok ())
    (four : batches settings → ∀ codes, ∃ scored,
      scoreFour machine settings query codes = .ok scored)
    (code : tqCodeDistance machine settings query = .ok ()) (call : Call) :
    call.run machine settings query = .ok () := by
  cases call with
  | scoreNode hasCode => exact node hasCode
  | tqCodeDistance => exact code
  | scoreNodeBatch exact_ nodes =>
    rw [Call.run, scoreNodeBatch]
    by_cases off : settings.batchScoring = .off ∨ settings.batchSize < 4
    · rw [if_pos off]
      induction nodes with
      | nil => rfl
      | cons one rest ih =>
        show (scoreNode machine settings query one >>= fun _ => _) = _
        rw [node]
        exact ih
    · rw [if_neg off]
      split_ifs
      · rfl
      · exact scoreLoop_ok node (four ⟨fun same => off (.inl same), by omega⟩) nodes

theorem scoreFour_no_codes {settings : Settings} {query : TqQuery} :
    scoreFour machine settings query false = .ok false := by
  simp only [scoreFour, batchU8Split, batchOneBit, batchTable, Bool.and_false, Bool.false_and,
    Bool.or_false, Bool.false_eq_true, if_false, or_true, if_true]
  rfl

theorem run_table {settings : Settings} {query : TqQuery} (table : query.table = true)
    (call : Call) : call.run machine settings query = .ok () := by
  have code : tqCodeDistance machine settings query = .ok () := by
    rw [tqCodeDistance, codeDistanceTable, readTable, if_pos table]
    split_ifs <;> rfl
  have batch (codes width : Bool) : ∃ scored, batchTable query codes width = .ok scored := by
    rw [batchTable, readTable, if_pos table]
    split_ifs
    · exact ⟨_, rfl⟩
    · exact ⟨true, rfl⟩
  refine run_ok (fun hasCode => ?_) (fun _ codes => ?_) code call
  · rw [scoreNode, code]
    split_ifs <;> rfl
  · obtain ⟨scored, done⟩ := batch codes (decide (query.bits = 4))
    obtain ⟨scored', done'⟩ := batch codes (decide (query.bits = 1 ∨ query.bits = 2))
    rw [scoreFour, done, done']
    split
    · exact ⟨_, rfl⟩
    · rcases scored with _ | _ <;> rcases batchOneBit settings query codes with _ | _ <;>
        exact ⟨_, rfl⟩

theorem run_noQuery {settings : Settings} (call : Call) :
    call.run machine settings noQuery = .ok () := by
  have code : tqCodeDistance machine settings noQuery = .ok () := by
    rw [tqCodeDistance]
    split_ifs <;> rfl
  refine run_ok (fun hasCode => rfl) (fun _ codes => ⟨false, ?_⟩) code call
  cases codes with
  | false => exact scoreFour_no_codes
  | true =>
    simp [scoreFour, batchU8Split, packedDistanceQuerySplit, batchOneBit, batchTable, noQuery]
    rfl

theorem run_split {settings : Settings} {query : TqQuery}
    (single : codeQuerySplitDistance machine settings query = true)
    (four : batches settings → scoreFour machine settings query true = .ok true) (call : Call) :
    call.run machine settings query = .ok () := by
  have code : tqCodeDistance machine settings query = .ok () := if_pos single
  refine run_ok (fun hasCode => ?_) (fun batched codes => ?_) code call
  · rw [scoreNode, if_pos single]
    split_ifs <;> rfl
  · cases codes with
    | false => exact ⟨false, scoreFour_no_codes⟩
    | true => exact ⟨true, four batched⟩

theorem unsigned_iff (compiled : machine.compileAvx2 = true) (bits : shape.bits = 4)
    (some_ : 0 < shape.dimensions) (mode : shape.scoreMode ≠ .l1) :
    (∀ call : Call, call.run machine after (unsignedQuery before shape) = .ok ()) ↔
      (batches after → after.u8BatchX4 = true → before.u8BatchX4 = true) := by
  have split : compileQuerySplit machine = true := by simp [compileQuerySplit, compiled]
  have single : codeQuerySplitDistance machine after (unsignedQuery before shape) = true := by
    simp [codeQuerySplitDistance, split, compiled, unsignedQuery]
  constructor
  · intro all batched on
    by_contra off
    have called := all (.scoreNodeBatch false [true, true, true, true])
    have declined : scoreFour machine after (unsignedQuery before shape) true =
        .error .absentTable := by
      simp [scoreFour, batchU8Split, packedDistanceQuerySplit, batchTable, readTable,
        unsignedQuery, startQuery, noQuery, on, off, bits, mode,
        Nat.pos_iff_ne_zero.mp some_]
      rfl
    rw [Call.run, scoreNodeBatch, if_neg (by have := batched.2; simp [batched.1]; omega),
      if_neg Bool.false_ne_true, scoreLoop] at called
    simp only [Bool.and_true, declined] at called
    cases called
  · intro kept
    refine run_split single fun batched => if_pos ?_
    have held : batchU8Split after (unsignedQuery before shape) true = true := by
      rcases on : after.u8BatchX4 with _ | _
      · simp [batchU8Split, unsignedQuery, on]
      · simp [batchU8Split, unsignedQuery, on, kept batched on]
    simp [split, compiled, held]

theorem signed_iff (bits : shape.bits = 4 ∨ shape.bits = 2)
    (large : querySplitMinDim ≤ shape.dimensions) (mode : shape.scoreMode ≠ .l1) :
    (∀ call : Call, call.run machine after (signedQuery shape) = .ok ()) ↔
      splitAvailable machine after = true := by
  have some_ : 0 < shape.dimensions := Nat.lt_of_lt_of_le (by decide) large
  constructor
  · intro all
    by_contra gone
    have called := all .tqCodeDistance
    simp [Call.run, tqCodeDistance, codeQuerySplitDistance, packedDistanceQuerySplit,
      codeDistanceTable, readTable, signedQuery, startQuery, noQuery, gone, mode,
      Nat.pos_iff_ne_zero.mp some_] at called
  · intro ready
    have split := compileQuerySplit_of_available ready
    have kernel : packedDistanceQuerySplit machine after (signedQuery shape) 4 = true ∨
        packedDistanceQuerySplit machine after (signedQuery shape) 2 = true := by
      rcases bits with four | two
      · simp [packedDistanceQuerySplit, signedQuery, startQuery, noQuery, ready, mode, large, four]
      · simp [packedDistanceQuerySplit, signedQuery, startQuery, noQuery, ready, mode, large, two]
    refine run_split ?_ fun _ => if_pos ?_
    · rcases kernel with four | two
      · simp [codeQuerySplitDistance, split, four]
      · simp [codeQuerySplitDistance, split, two]
    · rcases kernel with four | two
      · simp [split, four]
      · simp [split, two]

/-- **The table is present whenever it is read**, by any call under any settings after the
preparation, if and only if the settings are kept. -/
theorem lookupTable_present_iff (machine : Machine) (before after : Settings)
    (shape : QueryShape) :
    (∀ call : Call, call.run machine after (prepareTqQuery machine before shape) = .ok ()) ↔
      SettingsKept machine before after shape := by
  by_cases packed : shape.packed = true
  · rcases unsigned : preparesUnsigned machine before shape with _ | _
    · rcases signed : preparesSigned machine before shape with _ | _
      · refine iff_of_true (run_table (prepare_table packed unsigned signed)) ⟨?_, ?_⟩
        · exact fun chosen => absurd (unsigned.symm.trans chosen) Bool.false_ne_true
        · exact fun chosen => absurd (signed.symm.trans chosen) Bool.false_ne_true
      · obtain ⟨prepared, bits, large, mode⟩ := prepare_signed signed
        rw [prepared, signed_iff bits large mode]
        refine ⟨fun ready => ⟨fun chosen => ?_, fun _ => ready⟩, fun kept => kept.signed signed⟩
        exact absurd (unsigned.symm.trans chosen) Bool.false_ne_true
    · obtain ⟨compiled, prepared, bits, some_, mode⟩ := prepare_unsigned unsigned
      rw [prepared, unsigned_iff compiled bits some_ mode]
      refine ⟨fun kept => ⟨fun _ => kept, fun signed => ?_⟩, fun kept => kept.unsigned unsigned⟩
      simp only [preparesUnsigned, preparesSigned, Bool.and_eq_true] at unsigned signed
      simp [unsigned.1.2, unsigned.2] at signed
  · have unprepared : prepareTqQuery machine before shape = noQuery :=
      if_pos (Bool.eq_false_iff.mpr packed)
    rw [unprepared]
    refine iff_of_true run_noQuery ⟨fun chosen => ?_, fun chosen => ?_⟩
    · simp [preparesUnsigned, packed] at chosen
    · simp [preparesSigned, packed] at chosen

end Prepared

/-! ### Settings that change -/

def avx2Machine : Machine where
  compileArm64 := false
  compileArmDot := false
  compileAvx2 := true
  compileAvxvnni := true
  compileAvx512vnni := true
  compileAvx512Weighted := true
  valgrind := false
  cpuArmDot := false
  cpuAvx2 := true
  cpuAvxvnni := false
  cpuAvx512vnni := false

def defaultSettings : Settings where
  simdForce := .auto
  querySplitImpl := .auto
  u8Split := .auto
  u8BatchX4 := true
  graphAvx512vnni := true
  graphAvxvnni := true
  batchScoring := .auto
  batchSize := 4
  query1bitAsymmetric := true
  lowbitPopcnt := true

/-- A query of 64 dimensions, with four bits a code, or with two. -/
def smallShape (bits : Nat) : QueryShape := ⟨true, bits, 64, .cosine, true, false, false⟩

/-- **Two changes of one setting**: the batch of four is turned on, and the kernels are turned
off. -/
theorem settings_changed_between :
    (Call.scoreNodeBatch false [true, true, true, true]).run avx2Machine defaultSettings
        (prepareTqQuery avx2Machine { defaultSettings with u8BatchX4 := false } (smallShape 4)) =
      .error .absentTable ∧
    (Call.scoreNode true).run avx2Machine { defaultSettings with simdForce := .scalar }
        (prepareTqQuery avx2Machine defaultSettings (smallShape 2)) =
      .error .absentTable := by
  decide

end TurboHybrid.Quant.QueryTable
