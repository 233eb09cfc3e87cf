/-
**The BM25 pages of an index.**

The BM25 tuples share the pages of the index's relation: each chain has a page kind of its own, and
an item takes its aligned size and a line pointer.

* `fitsPage`: whether a page has room for one more item;
* `fitsPage_mono`: what goes on a page in use also goes on an empty one;
* `fitsPage_empty`: the items an empty page takes.
-/
import TurboHybrid.Index.Pages
import TurboHybrid.Library.PageChain

namespace TurboHybrid.Store

open TurboHybrid.Index TurboHybrid.Library TurboHybrid.Query TurboHybrid.Scan

/-! ### Tuples -/

/-- An item on a page: its block and its place there. -/
structure ItemRef where
  blkno : BlockNumber
  offno : Nat
  deriving DecidableEq, Repr

/-- A lexicon entry, with the places of the term's tuples. -/
structure LexiconItem where
  termHash : UInt64
  term : Lexeme
  termId : Nat
  df : Nat
  cf : Nat
  postings : Option ItemRef
  postingsChunkCount : Nat
  postingsBytes : Nat
  blockMax : Option ItemRef
  impact : Option ItemRef
  impactCount : Nat

structure BlockMaxTuple where
  termId : Nat
  firstNodeId : Nat
  lastNodeId : Nat
  maxTf : Nat

structure ImpactTupleEntry (R : Type*) where
  nodeId : Nat
  tfNormQ16 : Nat
  score : R

structure ImpactTuple (R : Type*) where
  termId : Nat
  next : Option ItemRef
  entries : List (ImpactTupleEntry R)

/-- The segment chain of a bucket of delta terms. -/
structure DeltaTermBucket where
  startBlkno : Option BlockNumber
  tailBlkno : Option BlockNumber
  pages : Nat
  deriving DecidableEq, Repr

abbrev DeltaDirectory := List DeltaTermBucket

/-! ### Pages -/

inductive PageKind where
  | docStats
  | lexicon
  | postings
  | blockMax
  | impact
  | delta
  | deltaTerm
  | other
  deriving DecidableEq, Repr

inductive StoreItem (R : Type*) where
  | docStats (tuple : DocStatsTuple)
  | lexicon (tuple : LexiconItem)
  | postings (tuple : PostingsTuple)
  | blockMax (tuple : BlockMaxTuple)
  | impact (tuple : ImpactTuple R)
  | delta (tuple : DeltaTuple)
  | deltaTerm (tuple : DeltaTermTuple)
  | deltaDirectory (directory : DeltaDirectory)

abbrev StorePage (R : Type*) := Page PageKind (StoreItem R)

variable {R : Type*}

def StoreItem.delta? : StoreItem R → Option DeltaTuple
  | .delta tuple => some tuple
  | _ => none

def StoreItem.deltaTerm? : StoreItem R → Option DeltaTermTuple
  | .deltaTerm tuple => some tuple
  | _ => none

def StoreItem.deltaDirectory? : StoreItem R → Option DeltaDirectory
  | .deltaDirectory directory => some directory
  | _ => none

/-! ### Room -/

def deltaTupleSize (termCount termBytesLen : Nat) : Nat :=
  maxAlign (24 + 16 * termCount + termBytesLen)

def deltaTermTupleSize (postingCount termBytesLen : Nat) : Nat :=
  maxAlign (24 + 20 * postingCount + termBytesLen)

def termBytesLen (terms : List DeltaTerm) : Nat := (terms.map fun term => term.term.length).sum

def StoreItem.size : StoreItem R → Nat
  | .docStats tuple => maxAlign (8 + 4 * tuple.docs.length)
  | .lexicon tuple => maxAlign (60 + tuple.term.length)
  | .postings tuple => postingsTupleSize tuple.payload.length
  | .blockMax _ => maxAlign 24
  | .impact tuple => maxAlign (16 + 12 * tuple.entries.length)
  | .delta tuple => deltaTupleSize tuple.terms.length (termBytesLen tuple.terms)
  | .deltaTerm tuple => deltaTermTupleSize tuple.postings.length tuple.term.length
  | .deltaDirectory directory => maxAlign (8 + 12 * directory.length)

def maxItemSize : Nat := 8192 - 24 - 8

def usedBytes (items : List (StoreItem R)) : Nat := (items.map fun item => item.size + 4).sum

def pageGetFreeSpace (items : List (StoreItem R)) : Nat := maxItemSize - usedBytes items - 4

def fitsPage (items : List (StoreItem R)) (item : StoreItem R) : Bool :=
  decide (item.size ≤ pageGetFreeSpace items)

theorem fitsPage_mono {items : List (StoreItem R)} {item : StoreItem R}
    (fits : fitsPage items item = true) : fitsPage [] item = true := by
  have room := of_decide_eq_true fits
  refine decide_eq_true ?_
  unfold pageGetFreeSpace at room ⊢
  rw [show usedBytes ([] : List (StoreItem R)) = 0 from rfl]
  omega

theorem fitsPage_empty {item : StoreItem R} :
    fitsPage [] item = true ↔ item.size ≤ pageCapacity := by
  unfold fitsPage pageGetFreeSpace
  rw [decide_eq_true_iff]
  rfl

theorem fitsPage_none {item : StoreItem R} (large : pageCapacity < item.size)
    (items : List (StoreItem R)) : fitsPage items item = false := by
  refine Bool.eq_false_iff.mpr fun fits => ?_
  have := fitsPage_empty.mp (fitsPage_mono fits)
  omega

end TurboHybrid.Store
