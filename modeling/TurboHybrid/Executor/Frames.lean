/-
**The frames of wrapped index scans.**

The frames are right when they are those of the open statements. The hooks remove the last frame,
whichever statement it is of, once for each statement that ends and once for each run that an error
leaves.

* `framesSound_step_iff`: the steps that keep the frames right;
* `wrappers_reached`: wherever such steps lead, a wrapped scan finds its own state and a statement
  that ends takes its own frame along;
* `olderCursor_unwraps`: a cursor that is closed before a newer one takes the frame of the newer.
-/
import Mathlib.Data.List.DropRight
import Mathlib.Data.List.Flatten
import TurboHybrid.Executor.Stack

namespace TurboHybrid.Executor

open TurboHybrid.Library

/-! ### Lists -/

section Lists

variable {Item : Type*}

theorem rdrop_dropLast (items : List Item) (count : Nat) :
    items.dropLast.rdrop count = items.rdrop (count + 1) := by
  rw [List.rdrop, List.rdrop, List.dropLast_eq_take, List.take_take, List.length_take]
  congr 1
  omega

theorem rdrop_perm_filter_iff {items : List Item} (distinct : items.Nodup) (count : Nat)
    (kept : Item → Bool) :
    (items.rdrop count).Perm (items.filter kept) ↔ items.rdrop count = items.filter kept := by
  refine ⟨fun same => ?_, fun same => same ▸ List.Perm.refl _⟩
  have split : items = items.rdrop count ++ items.drop (items.length - count) :=
    (List.take_append_drop _ _).symm
  have front : (items.rdrop count).filter kept = items.rdrop count :=
    List.filter_eq_self.mpr fun item member => (List.mem_filter.mp (same.mem_iff.mp member)).2
  have back : (items.drop (items.length - count)).filter kept = [] := by
    refine List.filter_eq_nil_iff.mpr fun item member holds => ?_
    rw [split] at distinct
    exact List.disjoint_of_nodup_append distinct (same.mem_iff.mpr (List.mem_filter.mpr
      ⟨List.mem_of_mem_drop member, holds⟩)) member
  conv_rhs => rw [split, List.filter_append, front, back, List.append_nil]

end Lists

/-! ### The right frames -/

variable {session next : Session}

def frameOf (statement : OpenStatement) : Option WrapperFrame :=
  statement.wrapped.map fun wrapped => ⟨statement.queryDesc.address, wrapped⟩

def Session.openFrames (session : Session) : List WrapperFrame :=
  session.opened.filterMap frameOf

structure Consistent (backend : Backend) : Prop where
  states : backend.execWrapperStates =
    backend.execWrapperFrames.flatMap WrapperFrame.ownedWrapperStates
  distinct : (backend.execWrapperStates.map WrapperState.address).Nodup

/-- **The right frames**: one for each open statement whose scans are wrapped. -/
structure FramesSound (session : Session) : Prop where
  frames : session.backend.execWrapperFrames.Perm session.openFrames
  states : session.backend.execWrapperStates =
    session.backend.execWrapperFrames.flatMap WrapperFrame.ownedWrapperStates

theorem wrappers_eq (session : Session) :
    session.wrappers = session.openFrames.flatMap WrapperFrame.ownedWrapperStates := by
  unfold Session.wrappers Session.openFrames
  induction session.opened with
  | nil => rfl
  | cons statement rest ih =>
    rw [List.flatMap_cons, ih]
    cases found : statement.wrapped with
    | none => rw [List.filterMap_cons_none (by rw [frameOf, found]; rfl)]; rfl
    | some wrapped => rw [List.filterMap_cons_some (by rw [frameOf, found]; rfl)]; rfl

theorem FramesSound.wrappers_perm (sound : FramesSound session) :
    session.backend.execWrapperStates.Perm session.wrappers := by
  rw [sound.states, wrappers_eq]
  exact sound.frames.flatMap_right _

theorem FramesSound.consistent (sound : FramesSound session) (fresh : session.Fresh []) :
    Consistent session.backend := by
  refine ⟨sound.states, (sound.wrappers_perm.map _).nodup_iff.mpr ?_⟩
  rw [← List.append_nil session.wrappers]
  exact fresh.1

/-! ### What the hooks remove -/

theorem deleteWrapperStates (owned : List WrapperState) :
    ∀ front : List WrapperState, ((front ++ owned).map WrapperState.address).Nodup →
      owned.foldl Backend.deleteWrapperState (front ++ owned) = front := by
  induction owned with
  | nil =>
    intro front _
    exact List.append_nil front
  | cons state rest ih =>
    intro front distinct
    have absent : ∀ other ∈ front, ¬(other.address == state.address) = true := by
      intro other member same
      rw [List.map_append, List.map_cons] at distinct
      refine List.disjoint_of_nodup_append distinct (List.mem_map_of_mem member) ?_
      rw [beq_iff_eq.mp same]
      exact List.mem_cons_self
    have erased : Backend.deleteWrapperState (front ++ state :: rest) state = front ++ rest := by
      rw [Backend.deleteWrapperState, List.eraseP_append_right _ absent,
        List.eraseP_cons_of_pos (by simp)]
    rw [List.foldl_cons, erased]
    refine ih front (distinct.sublist ?_)
    exact ((List.sublist_cons_self state rest).append_left front).map _

theorem Consistent.restorePrevious {backend : Backend} (consistent : Consistent backend) :
    Consistent backend.restorePrevious ∧
      backend.restorePrevious.execWrapperFrames = backend.execWrapperFrames.dropLast := by
  unfold Backend.restorePrevious
  split
  · rename_i absent
    rw [List.getLast?_eq_none_iff] at absent
    exact ⟨⟨by rw [absent]; rfl, List.nodup_nil⟩, by rw [absent]; rfl⟩
  · rename_i frame last
    obtain ⟨front, split⟩ := List.getLast?_eq_some_iff.mp last
    have states : backend.execWrapperStates =
        front.flatMap WrapperFrame.ownedWrapperStates ++ frame.ownedWrapperStates := by
      rw [consistent.states, split, List.flatMap_append, List.flatMap_singleton]
    have distinct := consistent.distinct
    rw [states] at distinct
    have kept := deleteWrapperStates _ _ distinct
    refine ⟨⟨?_, ?_⟩, rfl⟩
    · show List.foldl _ backend.execWrapperStates _ = backend.execWrapperFrames.dropLast.flatMap _
      rw [states, kept, split, List.dropLast_concat]
    · show ((List.foldl _ backend.execWrapperStates _).map _).Nodup
      rw [states, kept]
      exact distinct.sublist ((List.sublist_append_left _ _).map _)

def runsOf (calls : List Call) : Nat := calls.countP fun call => call.phase = .running

theorem Consistent.leaveCalls (calls : List Call) : ∀ {backend : Backend}, Consistent backend →
    Consistent (calls.foldl Session.leaveCall backend) ∧
      (calls.foldl Session.leaveCall backend).execWrapperFrames =
        backend.execWrapperFrames.rdrop (runsOf calls) := by
  induction calls with
  | nil => exact fun consistent => ⟨consistent, (List.rdrop_zero _).symm⟩
  | cons call rest ih =>
    intro backend consistent
    obtain ⟨queryDesc, phase, level⟩ := call
    cases phase with
    | starting =>
      have popped : Consistent backend.amExecutorEnd ∧
          backend.amExecutorEnd.execWrapperFrames = backend.execWrapperFrames := by
        unfold Backend.amExecutorEnd Backend.popPlannedStmt
        split <;> exact ⟨⟨consistent.states, consistent.distinct⟩, rfl⟩
      obtain ⟨later, frames⟩ := ih popped.1
      exact ⟨later, frames.trans (by rw [popped.2]; rfl)⟩
    | outside => exact ih consistent
    | running =>
      obtain ⟨restored, dropped⟩ := consistent.restorePrevious
      have cleared : Consistent backend.executorRunCatch := ⟨restored.states, restored.distinct⟩
      obtain ⟨later, frames⟩ := ih cleared
      refine ⟨later, frames.trans ?_⟩
      show backend.restorePrevious.execWrapperFrames.rdrop _ = _
      rw [dropped, rdrop_dropLast, runsOf, runsOf, List.countP_cons_of_pos (by rfl)]

/-! ### The steps -/

/-- The frames that go, the last ones, are those of the statements that are not kept. -/
def Session.DropsOwn (session : Session) (count : Nat) (kept : List OpenStatement) : Prop :=
  session.backend.execWrapperFrames.rdrop count =
    session.backend.execWrapperFrames.filter fun frame =>
      kept.any fun statement => statement.queryDesc.address == frame.queryDesc

/-- **The steps that keep the frames right.** A statement ends when the last frame is its own, or when
there is none; an error leaves one run for each frame of the statements that its abort closes. -/
def KeepsFrames (session : Session) : Action → Prop
  | .finish address => session.DropsOwn 1
      (session.opened.filter fun statement => statement.queryDesc.address ≠ address)
  | .abortSub _ =>
    session.DropsOwn (runsOf (session.left session.level)) (session.survivors session.level)
  | .abort _ => session.DropsOwn (runsOf (session.left 0)) (session.survivors 0)
  | _ => True

instance (session : Session) (count : Nat) (kept : List OpenStatement) :
    Decidable (session.DropsOwn count kept) :=
  inferInstanceAs (Decidable (_ = _))

instance (session : Session) : (action : Action) → Decidable (KeepsFrames session action)
  | .finish _ => inferInstanceAs (Decidable (session.DropsOwn _ _))
  | .abortSub _ => inferInstanceAs (Decidable (session.DropsOwn _ _))
  | .abort _ => inferInstanceAs (Decidable (session.DropsOwn _ _))
  | .setDisable _ | .start _ | .started _ _ | .run _ | .finishRun | .pause | .beginSub
  | .commitSub => isTrue trivial

theorem openFrames_distinct (distinct : session.Distinct) :
    (session.openFrames.map WrapperFrame.queryDesc).Nodup := by
  have sublist : (session.openFrames.map WrapperFrame.queryDesc).Sublist
      (session.opened.map fun statement => statement.queryDesc.address) := by
    unfold Session.openFrames
    induction session.opened with
    | nil => exact List.Sublist.refl _
    | cons statement rest ih =>
      cases found : statement.wrapped with
      | none =>
        rw [List.filterMap_cons_none (by rw [frameOf, found]; rfl)]
        exact ih.cons _
      | some wrapped =>
        rw [List.filterMap_cons_some (by rw [frameOf, found]; rfl)]
        exact ih.cons_cons _
  exact distinct.sublist sublist

theorem FramesSound.nodup (sound : FramesSound session) (distinct : session.Distinct) :
    session.backend.execWrapperFrames.Nodup :=
  ((sound.frames.map _).nodup_iff.mpr (openFrames_distinct distinct)).of_map _

theorem FramesSound.filter_perm (sound : FramesSound session) (distinct : session.Distinct)
    (keeps : OpenStatement → Bool) :
    (session.backend.execWrapperFrames.filter fun frame =>
        (session.opened.filter keeps).any fun statement =>
          statement.queryDesc.address == frame.queryDesc).Perm
      ((session.opened.filter keeps).filterMap frameOf) := by
  refine (sound.frames.filter _).trans (List.Perm.of_eq ?_)
  rw [Session.openFrames, List.filter_filterMap, List.filterMap_filter]
  refine List.filterMap_congr fun statement member => ?_
  have own : ((session.opened.filter keeps).any fun other =>
      other.queryDesc.address == statement.queryDesc.address) = keeps statement := by
    rw [Bool.eq_iff_iff, List.any_eq_true]
    constructor
    · rintro ⟨other, inside, same⟩
      obtain ⟨there, held⟩ := List.mem_filter.mp inside
      rwa [← List.inj_on_of_nodup_map distinct there member (beq_iff_eq.mp same)]
    · exact fun held => ⟨statement, List.mem_filter.mpr ⟨member, held⟩, beq_self_eq_true _⟩
  cases found : statement.wrapped with
  | none => simp [frameOf, found]
  | some wrapped =>
    rw [frameOf, found, Option.map_some, Option.filter_some, own]

/-- A step that removes the last frames leaves those of the statements it keeps exactly when it
removes the frames of the others. -/
theorem FramesSound.drop_iff (sound : FramesSound session) (distinct : session.Distinct)
    {keeps : OpenStatement → Bool} {count : Nat} (consistent : Consistent next.backend)
    (opened : next.opened = session.opened.filter keeps)
    (frames : next.backend.execWrapperFrames = session.backend.execWrapperFrames.rdrop count) :
    FramesSound next ↔ session.DropsOwn count (session.opened.filter keeps) := by
  have kept := sound.filter_perm distinct keeps
  unfold Session.DropsOwn
  rw [← rdrop_perm_filter_iff (sound.nodup distinct)]
  constructor
  · intro sound'
    have same := sound'.frames
    rw [frames, Session.openFrames, opened] at same
    exact same.trans kept.symm
  · intro same
    refine ⟨?_, consistent.states⟩
    rw [frames, Session.openFrames, opened]
    exact same.trans kept

theorem setWrapped_split (distinct : session.Distinct) {statement : OpenStatement}
    (member : statement ∈ session.opened) (wrapped : Option (List WrapperState)) :
    ∃ front back, session.opened = front ++ statement :: back ∧
      Session.setWrapped session.opened statement.queryDesc.address wrapped =
        front ++ { statement with wrapped } :: back := by
  obtain ⟨front, back, split⟩ := List.append_of_mem member
  have others (part : List OpenStatement) (inside : ∀ other ∈ part,
      other.queryDesc.address ≠ statement.queryDesc.address) :
      Session.setWrapped part statement.queryDesc.address wrapped = part := by
    refine (List.map_congr_left fun other there => ?_).trans (List.map_id part)
    exact if_neg (inside other there)
  rw [Session.Distinct, split, List.map_append, List.map_cons, List.nodup_middle,
    List.nodup_cons, List.mem_append, not_or] at distinct
  refine ⟨front, back, split, ?_⟩
  rw [split, Session.setWrapped, List.map_append, List.map_cons, if_pos rfl]
  rw [← Session.setWrapped, ← Session.setWrapped, others front, others back]
  · exact fun other there same => distinct.1.2 (same ▸ List.mem_map_of_mem there)
  · exact fun other there same => distinct.1.1 (same ▸ List.mem_map_of_mem there)

theorem openFrames_started {address : Nat} {wrapped : Option (List WrapperState)}
    (distinct : session.Distinct) (waits : ∃ statement ∈ session.opened,
      statement.queryDesc.address = address ∧ statement.wrapped = none)
    (opened : next.opened = Session.setWrapped session.opened address wrapped) :
    next.openFrames.Perm
      (session.openFrames ++ (wrapped.map fun wrapped => ⟨address, wrapped⟩).toList) := by
  obtain ⟨statement, member, rfl, unwrapped⟩ := waits
  obtain ⟨front, back, split, set⟩ := setWrapped_split distinct member wrapped
  have none_old : frameOf statement = none := by rw [frameOf, unwrapped]; rfl
  rw [Session.openFrames, Session.openFrames, opened, set, split, List.filterMap_append,
    List.filterMap_append, List.filterMap_cons_none none_old]
  cases wrapped with
  | none =>
    rw [List.filterMap_cons_none rfl]
    simp
  | some wrapped =>
    have new : frameOf { statement with wrapped := some wrapped } =
        some ⟨statement.queryDesc.address, wrapped⟩ := rfl
    rw [List.filterMap_cons_some new]
    exact List.perm_middle.trans (List.perm_append_singleton _ _).symm

theorem fresh_of_perm {states : List WrapperState} (fresh : session.Fresh states)
    (same : next.wrappers.Perm (session.wrappers ++ states)) : next.Fresh [] := by
  refine ⟨?_, ?_⟩ <;> rw [List.append_nil]
  · exact (same.map _).nodup_iff.mpr fresh.1
  · exact (same.map _).nodup_iff.mpr fresh.2

theorem fresh_of_sublist (fresh : session.Fresh [])
    (shorter : next.opened.Sublist session.opened) : next.Fresh [] := by
  have fewer : (next.wrappers ++ []).Sublist (session.wrappers ++ []) := by
    rw [List.append_nil, List.append_nil]
    exact shorter.flatMap _
  exact ⟨fresh.1.sublist (fewer.map _), fresh.2.sublist (fewer.map _)⟩

theorem wrappers_eq_of_wrapped (same : next.opened.map OpenStatement.wrapped =
    session.opened.map OpenStatement.wrapped) : next.wrappers = session.wrappers := by
  have mapped := congrArg (List.flatMap fun wrapped => wrapped.getD []) same
  rwa [List.flatMap_map, List.flatMap_map] at mapped

theorem handle_frames (sound : FramesSound session) (fresh : session.Fresh []) {raised : Raised}
    {backend : Backend} (handled : session.handle raised = some backend) :
    Consistent backend ∧ backend.execWrapperFrames = session.backend.execWrapperFrames := by
  have consistent := sound.consistent fresh
  cases raised with
  | elsewhere =>
    obtain rfl := Option.some.inj handled
    exact ⟨consistent, rfl⟩
  | pushing =>
    obtain rfl := Option.some.inj handled
    exact ⟨⟨consistent.states, consistent.distinct⟩, rfl⟩
  | wrapping palloc plan count =>
    simp only [Session.handle] at handled
    split at handled
    · rename_i queryDesc level outer calls
      split_ifs at handled with refused
      obtain rfl := Option.some.inj handled
      rw [not_or, not_not] at refused
      have pushed : Consistent (session.backend.pushFrame queryDesc.address
          ((wrapControlledIndexScans palloc plan none).take count)) := by
        refine ⟨?_, ?_⟩
        · show session.backend.execWrapperStates ++ _ = List.flatMap _ (_ ++ [_])
          rw [sound.states, List.flatMap_append, List.flatMap_singleton]
        · show ((session.backend.execWrapperStates ++ _).map _).Nodup
          exact ((sound.wrappers_perm.append_right _).map _).nodup_iff.mpr refused.2.1
      obtain ⟨restored, dropped⟩ := pushed.restorePrevious
      exact ⟨restored, dropped.trans List.dropLast_concat⟩
    · cases handled

theorem FramesSound.congr (sound : FramesSound session)
    (frames : next.backend.execWrapperFrames = session.backend.execWrapperFrames)
    (states : next.backend.execWrapperStates = session.backend.execWrapperStates)
    (same : next.openFrames = session.openFrames) : FramesSound next :=
  ⟨by rw [frames, same]; exact sound.frames, by rw [frames, states]; exact sound.states⟩

theorem FramesSound.keeps (sound : FramesSound session) (keeps : session.Keeps next) :
    FramesSound next :=
  sound.congr (by rw [keeps.1]) (by rw [keeps.1]) (by unfold Session.openFrames; rw [keeps.2])

theorem FramesSound.started (sound : FramesSound session) (distinct : session.Distinct)
    {address : Nat} {palloc : Nat → Nat} {plan : PlanState} (waits : ∃ statement ∈ session.opened,
      statement.queryDesc.address = address ∧ statement.wrapped = none)
    (framed : next.backend = session.backend.graphExecutorStart address palloc plan)
    (opened : next.opened =
      Session.setWrapped session.opened address (session.wrappedFor palloc plan)) :
    FramesSound next := by
  have frames := openFrames_started distinct waits opened
  unfold Session.wrappedFor at frames
  unfold Backend.graphExecutorStart at framed
  split_ifs at frames framed
  · refine ⟨?_, ?_⟩
    · rw [framed]
      exact sound.frames.trans (frames.trans (List.Perm.of_eq (List.append_nil _))).symm
    · rw [framed]
      exact sound.states
  · refine ⟨?_, ?_⟩
    · rw [framed]
      exact (sound.frames.append_right _).trans frames.symm
    · rw [framed]
      show session.backend.execWrapperStates ++ _ = List.flatMap _ (_ ++ [_])
      rw [sound.states, List.flatMap_append, List.flatMap_singleton]

theorem FramesSound.aborted (sound : FramesSound session) (distinct : session.Distinct)
    (fresh : session.Fresh []) {level : Nat} {raised : Raised}
    (aborted : session.abortTo level raised = some next) :
    FramesSound next ↔
      session.DropsOwn (runsOf (session.left level)) (session.survivors level) := by
  obtain ⟨backend, handled, cleared, opened⟩ := Session.abortTo_eq aborted
  obtain ⟨consistent, same⟩ := handle_frames sound fresh handled
  obtain ⟨left, frames⟩ := consistent.leaveCalls (session.left level)
  refine sound.drop_iff distinct ?_ opened ?_
  · rw [cleared]
    exact ⟨left.states, left.distinct⟩
  · rw [cleared, ← same]
    exact frames

/-- **The steps that keep the frames right** are those after which they are right. -/
theorem framesSound_step_iff {action : Action} (distinct : session.Distinct)
    (fresh : session.Fresh []) (sound : FramesSound session)
    (stepped : session.step action = some next) :
    FramesSound next ↔ KeepsFrames session action := by
  cases action with
  | setDisable disable =>
    obtain rfl := Option.some.inj stepped
    exact iff_of_true ⟨sound.frames, sound.states⟩ trivial
  | start queryDesc =>
    obtain ⟨-, pushed, opened⟩ := Session.step_start stepped
    refine iff_of_true (sound.congr (by rw [pushed]; rfl) (by rw [pushed]; rfl) ?_) trivial
    rw [Session.openFrames, opened, List.filterMap_cons_none rfl]
    rfl
  | started palloc plan =>
    obtain ⟨queryDesc, -, -, -, -, waits, framed, opened, -⟩ := Session.step_started stepped
    exact iff_of_true (sound.started distinct waits framed opened) trivial
  | run address => exact iff_of_true (sound.keeps (Session.step_run stepped)) trivial
  | finishRun => exact iff_of_true (sound.keeps (Session.step_finishRun stepped)) trivial
  | pause => exact iff_of_true (sound.keeps (Session.step_pause stepped)) trivial
  | finish address =>
    obtain ⟨-, ended, opened⟩ := Session.step_finish stepped
    obtain ⟨restored, dropped⟩ := (sound.consistent fresh).restorePrevious
    have popped : next.backend.execWrapperFrames =
          session.backend.restorePrevious.execWrapperFrames ∧
        next.backend.execWrapperStates = session.backend.restorePrevious.execWrapperStates := by
      rw [ended]
      unfold Backend.executorEndHook Backend.amExecutorEnd Backend.popPlannedStmt
      split <;> exact ⟨rfl, rfl⟩
    refine sound.drop_iff distinct ⟨?_, ?_⟩ opened ?_
    · rw [popped.1, popped.2]
      exact restored.states
    · rw [popped.2]
      exact restored.distinct
    · rw [popped.1, dropped, List.rdrop, List.dropLast_eq_take]
  | beginSub =>
    obtain rfl := Option.some.inj stepped
    exact iff_of_true ⟨sound.frames, sound.states⟩ trivial
  | commitSub =>
    obtain ⟨kept, opened⟩ := Session.step_commitSub stepped
    refine iff_of_true (sound.congr (by rw [kept]) (by rw [kept]) ?_) trivial
    rw [Session.openFrames, opened, List.filterMap_map]
    rfl
  | abortSub raised => exact sound.aborted distinct fresh (Session.step_abortSub stepped)
  | abort raised => exact sound.aborted distinct fresh stepped

theorem fresh_step {action : Action} (distinct : session.Distinct) (fresh : session.Fresh [])
    (stepped : session.step action = some next) : next.Fresh [] := by
  have sublist (shorter : next.opened.Sublist session.opened) := fresh_of_sublist fresh shorter
  cases action with
  | setDisable disable =>
    obtain rfl := Option.some.inj stepped
    exact fresh
  | start queryDesc =>
    obtain ⟨-, -, opened⟩ := Session.step_start stepped
    refine fresh_of_perm fresh (List.Perm.of_eq ?_)
    rw [Session.wrappers, opened, List.append_nil]
    rfl
  | started palloc plan =>
    obtain ⟨queryDesc, -, -, -, allocated, waits, -, opened, -⟩ := Session.step_started stepped
    refine fresh_of_perm allocated ?_
    rw [wrappers_eq next]
    refine ((openFrames_started distinct waits opened).flatMap_right _).trans (List.Perm.of_eq ?_)
    rw [List.flatMap_append, ← wrappers_eq]
    cases session.wrappedFor palloc plan with
    | none => rfl
    | some wrapped => exact congrArg (session.wrappers ++ ·) (List.append_nil wrapped)
  | run address => exact sublist (by rw [(Session.step_run stepped).2])
  | finishRun => exact sublist (by rw [(Session.step_finishRun stepped).2])
  | pause => exact sublist (by rw [(Session.step_pause stepped).2])
  | finish address =>
    obtain ⟨-, -, opened⟩ := Session.step_finish stepped
    exact sublist (by rw [opened]; exact List.filter_sublist)
  | beginSub =>
    obtain rfl := Option.some.inj stepped
    exact fresh
  | commitSub =>
    obtain ⟨-, opened⟩ := Session.step_commitSub stepped
    refine fresh_of_perm fresh (List.Perm.of_eq ?_)
    rw [List.append_nil]
    refine wrappers_eq_of_wrapped ?_
    rw [opened, List.map_map]
    rfl
  | abortSub raised =>
    obtain ⟨_, -, -, opened⟩ := Session.abortTo_eq (Session.step_abortSub stepped)
    exact sublist (by rw [opened]; exact List.filter_sublist)
  | abort raised =>
    obtain ⟨_, -, -, opened⟩ := Session.abortTo_eq stepped
    exact sublist (by rw [opened]; exact List.filter_sublist)

/-! ### Runs -/

structure Framed (session : Session) : Prop where
  distinct : session.Distinct
  fresh : session.Fresh []
  sound : FramesSound session

theorem framed_reached (disable : Bool)
    (reached : ReachedBy Session.step KeepsFrames (.idle disable) session) : Framed session := by
  refine reached.invariant ?_ fun held keeps stepped => ?_
  · exact ⟨List.nodup_nil, ⟨List.nodup_nil, List.nodup_nil⟩, ⟨List.Perm.refl _, rfl⟩⟩
  · exact ⟨distinct_step held.distinct stepped, fresh_step held.distinct held.fresh stepped,
      (framesSound_step_iff held.distinct held.fresh held.sound stepped).mpr keeps⟩

theorem Framed.find (framed : Framed session) {statement : OpenStatement}
    (member : statement ∈ session.opened) {wrapped : List WrapperState}
    (held : statement.wrapped = some wrapped) {state : WrapperState} (inside : state ∈ wrapped) :
    session.backend.findWrapperState state.planstate = .ok state := by
  have there : state ∈ session.backend.execWrapperStates := by
    refine framed.sound.wrappers_perm.mem_iff.mpr (List.mem_flatMap.mpr ⟨statement, member, ?_⟩)
    rwa [held, Option.getD_some]
  have planstates : (session.backend.execWrapperStates.map WrapperState.planstate).Nodup := by
    refine (framed.sound.wrappers_perm.map _).nodup_iff.mpr ?_
    rw [← List.append_nil session.wrappers]
    exact framed.fresh.2
  unfold Backend.findWrapperState
  cases found : session.backend.execWrapperStates.find? fun other =>
      other.planstate == state.planstate with
  | none => exact absurd (beq_self_eq_true _) (List.find?_eq_none.mp found state there)
  | some other =>
    have same := List.inj_on_of_nodup_map planstates (List.mem_of_find?_eq_some found) there
      (by simpa using List.find?_some found)
    rw [same]

theorem Framed.finish (framed : Framed session) {address : Nat}
    (stepped : session.step (.finish address) = some next)
    (keeps : KeepsFrames session (.finish address)) :
    next.backend.execWrapperFrames =
        session.backend.execWrapperFrames.filter (fun frame => frame.queryDesc ≠ address) ∧
      next.backend.execWrapperStates =
        next.backend.execWrapperFrames.flatMap WrapperFrame.ownedWrapperStates := by
  have sound := (framesSound_step_iff framed.distinct framed.fresh framed.sound stepped).mpr keeps
  obtain ⟨-, ended, -⟩ := Session.step_finish stepped
  obtain ⟨-, dropped⟩ := (framed.sound.consistent framed.fresh).restorePrevious
  have popped : next.backend.execWrapperFrames =
      session.backend.restorePrevious.execWrapperFrames := by
    rw [ended]
    unfold Backend.executorEndHook Backend.amExecutorEnd Backend.popPlannedStmt
    split <;> rfl
  refine ⟨?_, sound.states⟩
  rw [popped, dropped, List.dropLast_eq_take, ← List.rdrop]
  refine keeps.trans (List.filter_congr fun frame member => ?_)
  obtain ⟨statement, there, owned⟩ :=
    List.mem_filterMap.mp (framed.sound.frames.mem_iff.mp member)
  obtain ⟨wrapped, -, rfl⟩ := Option.map_eq_some_iff.mp owned
  rw [Bool.eq_iff_iff, List.any_eq_true, decide_eq_true_iff]
  constructor
  · rintro ⟨other, inside, same⟩
    rw [← beq_iff_eq.mp same]
    exact of_decide_eq_true (List.mem_filter.mp inside).2
  · exact fun other => ⟨statement, List.mem_filter.mpr ⟨there, decide_eq_true other⟩,
      beq_self_eq_true _⟩

/-- **The wrappers are right** wherever steps of the right kind lead: each wrapped scan of an open
statement finds its own state, and a statement that ends takes its own frame along. -/
theorem wrappers_reached (disable : Bool)
    (reached : ReachedBy Session.step KeepsFrames (.idle disable) session) :
    (∀ statement ∈ session.opened, ∀ wrapped, statement.wrapped = some wrapped →
      ∀ state ∈ wrapped, session.backend.findWrapperState state.planstate = .ok state) ∧
    ∀ address next, session.step (.finish address) = some next →
      KeepsFrames session (.finish address) →
        next.backend.execWrapperFrames =
            session.backend.execWrapperFrames.filter (fun frame => frame.queryDesc ≠ address) ∧
          next.backend.execWrapperStates =
            next.backend.execWrapperFrames.flatMap WrapperFrame.ownedWrapperStates :=
  ⟨fun _ member _ held _ inside => (framed_reached disable reached).find member held inside,
    fun _ _ stepped keeps => (framed_reached disable reached).finish stepped keeps⟩

/-! ### Cursors -/

/-- A plan that scans an index of this access method under a limit. -/
def scanPlan (planstate : Nat) : PlanState :=
  .limit ⟨false, 10, 0⟩ (.indexScan ⟨planstate, 7, true⟩ .null .null)

def olderCursor : QueryDesc := ⟨1, 10⟩

def newerCursor : QueryDesc := ⟨2, 20⟩

def openCursors : List Action :=
  [.start olderCursor, .started id (scanPlan 5), .pause, .start newerCursor,
    .started id (scanPlan 6), .pause]

/-- Both cursors find their states, and the newer is closed first. -/
theorem wrappers_cursors : ∃ session,
    runMeeting Session.step KeepsFrames (.idle false) (openCursors ++ [.finish 2]) =
        some session ∧
      session.backend.execWrapperFrames.map WrapperFrame.queryDesc = [1] ∧
      ∀ statement ∈ session.opened, ∀ wrapped, statement.wrapped = some wrapped →
        ∀ state ∈ wrapped, session.backend.findWrapperState state.planstate = .ok state := by
  obtain ⟨session, ran, frames⟩ : ∃ session,
      runMeeting Session.step KeepsFrames (.idle false) (openCursors ++ [.finish 2]) =
          some session ∧
        session.backend.execWrapperFrames.map WrapperFrame.queryDesc = [1] :=
    ⟨_, rfl, rfl⟩
  exact ⟨session, ran, frames, (wrappers_reached false (reachedBy_of_runMeeting ran)).1⟩

/-- **The older cursor is closed first**: the frame of the newer goes, and its scan fails. -/
theorem olderCursor_unwraps :
    ¬∀ session, Reached Session.step (.idle false) session →
      ∀ statement ∈ session.opened, ∀ wrapped, statement.wrapped = some wrapped →
        ∀ state ∈ wrapped, session.backend.findWrapperState state.planstate = .ok state := by
  intro finds
  obtain ⟨session, ran, opened, lost⟩ : ∃ session,
      runActions Session.step (.idle false) (openCursors ++ [.finish 1]) = some session ∧
        session.opened = [⟨newerCursor, 0, some [⟨6, 6, 7, some ⟨false, 10, 0⟩⟩]⟩] ∧
        session.backend.findWrapperState 6 =
          .error "missing pgturbohybrid graph scan wrapper state" :=
    ⟨_, rfl, rfl, rfl⟩
  have found := finds session (reached_of_run ran) _ (opened ▸ List.mem_singleton_self _) _ rfl _
    (List.mem_singleton_self _)
  rw [lost] at found
  cases found

end TurboHybrid.Executor
