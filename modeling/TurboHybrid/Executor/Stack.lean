/-
**The stack of planned statements.**

The stack is right when it has the planned statements of the open statements, the newest first, and
its top is the one that is executing. Every push and pop keeps it so while statements end in the
order opposite to that of their starts; a subtransaction abort does not look at which statements it is
for.

* `stackSound_step_iff`: the steps that keep the stack right;
* `stackSound_reached`: it is right wherever such steps lead;
* `caught_abort_clears`: a subtransaction abort that the outer statement catches removes its entry.
-/
import Mathlib.Data.List.Nodup
import TurboHybrid.Executor.Hooks

namespace TurboHybrid.Executor

open TurboHybrid.Library

/-! ### Statements by their addresses -/

section Lists

variable {Item : Type*} {key value : Item → Nat}

variable (value) in
/-- Without one of its items a list shows the values it has without the first exactly when all that
come before the item have the item's value. -/
theorem map_filter_eq_tail_iff {items : List Item} (distinct : (items.map key).Nodup) {item : Item}
    (member : item ∈ items) :
    (items.filter fun other => key other ≠ key item).map value = (items.map value).tail ↔
      ∀ other ∈ items.takeWhile fun other => key other ≠ key item, value other = value item := by
  induction items with
  | nil => cases member
  | cons first rest ih =>
    rw [List.map_cons, List.nodup_cons] at distinct
    obtain ⟨absent, later⟩ := distinct
    by_cases same : key first = key item
    · have others : rest.filter (fun other => key other ≠ key item) = rest := by
        refine List.filter_eq_self.mpr fun other inside => ?_
        rw [decide_eq_true_iff, ← same]
        exact fun equal => absent (equal ▸ List.mem_map_of_mem inside)
      rw [List.filter_cons_of_neg (by simpa using same),
        List.takeWhile_cons_of_neg (by simpa using same), others]
      exact iff_of_true rfl fun _ member => nomatch member
    · have inside : item ∈ rest := by
        rcases List.mem_cons.mp member with rfl | inside
        · exact absurd rfl same
        · exact inside
      have whole : (first :: rest).takeWhile (fun other => key other ≠ key item) =
          first :: rest.takeWhile fun other => key other ≠ key item := by
        simp [same]
      have kept : (first :: rest).filter (fun other => key other ≠ key item) =
          first :: rest.filter fun other => key other ≠ key item := by
        simp [same]
      rw [whole, kept, List.forall_mem_cons, List.map_cons, List.map_cons, List.tail_cons,
        ← ih later inside]
      cases rest with
      | nil => cases inside
      | cons second rest =>
        rw [List.map_cons, List.tail_cons, List.cons.injEq]
        refine and_congr_left fun tails => ?_
        have second_value : value second = value item := by
          rcases eq_or_ne (key second) (key item) with equal | other
          · rcases List.mem_cons.mp inside with rfl | deeper
            · rfl
            · exact absurd (equal ▸ List.mem_map_of_mem deeper) (List.nodup_cons.mp later).1
          · exact (ih later inside).mp tails second (by simp [other])
        rw [second_value]

end Lists

variable {session next : Session}

def Session.Distinct (session : Session) : Prop :=
  (session.opened.map fun statement => statement.queryDesc.address).Nodup

/-- The stack has the planned statements of the open statements. -/
def Session.EntriesInPlace (session : Session) : Prop :=
  session.backend.currentPlannedstmt :: session.backend.plannedstmtStack =
    session.opened.map (fun statement => some statement.queryDesc.plannedstmt) ++ [none]

/-- **The right stack**: it has the open statements, and its top is the innermost that executes. -/
structure StackSound (session : Session) : Prop where
  top : ∀ call ∈ session.calls.head?,
    session.backend.currentPlannedstmt = some call.queryDesc.plannedstmt
  entries : session.EntriesInPlace

/-- The innermost statement that executes is the newest that is open. -/
def Session.NewestInnermost (session : Session) : Prop :=
  ∀ call ∈ session.calls.head?,
    session.opened.head?.map (fun statement => statement.queryDesc.plannedstmt) =
      some call.queryDesc.plannedstmt

/-- The steps that remove the entries of the statements that they close, and no others. -/
def KeepsEntries (session : Session) : Action → Prop
  | .finish address => ∀ statement ∈ session.opened, statement.queryDesc.address = address →
      ∀ newer ∈ session.opened.takeWhile fun other => other.queryDesc.address ≠ address,
        newer.queryDesc.plannedstmt = statement.queryDesc.plannedstmt
  | .abortSub _ => session.survivors session.level = []
  | _ => True

/-- **The steps that keep the stack right.** A statement executes when it is the newest, statements end
the newest first, and an abort leaves none open; a planned statement may be shared. -/
def KeepsStack (session : Session) (action : Action) : Prop :=
  KeepsEntries session action ∧
    ∀ next ∈ session.step action, next.NewestInnermost

instance (session : Session) : Decidable session.NewestInnermost :=
  inferInstanceAs (Decidable (∀ call ∈ session.calls.head?, _))

instance (session : Session) : (action : Action) → Decidable (KeepsEntries session action)
  | .finish _ => inferInstanceAs (Decidable (∀ statement ∈ session.opened, _))
  | .abortSub _ => inferInstanceAs (Decidable (session.survivors session.level = []))
  | .setDisable _ | .start _ | .started _ _ | .run _ | .finishRun | .pause | .beginSub | .commitSub
  | .abort _ => isTrue trivial

instance (session : Session) (action : Action) : Decidable (KeepsStack session action) :=
  inferInstanceAs (Decidable (_ ∧ ∀ next ∈ session.step action, next.NewestInnermost))

theorem setWrapped_queryDescs (statements : List OpenStatement) (address : Nat)
    (wrapped : Option (List WrapperState)) :
    (Session.setWrapped statements address wrapped).map OpenStatement.queryDesc =
      statements.map OpenStatement.queryDesc := by
  rw [Session.setWrapped, List.map_map]
  refine List.map_congr_left fun statement _ => ?_
  show OpenStatement.queryDesc (if _ then _ else _) = _
  split <;> rfl

theorem map_queryDesc_congr {Value : Type*} (value : QueryDesc → Value)
    {statements others : List OpenStatement}
    (same : statements.map OpenStatement.queryDesc = others.map OpenStatement.queryDesc) :
    statements.map (fun statement => value statement.queryDesc) =
      others.map fun statement => value statement.queryDesc := by
  have mapped := congrArg (List.map value) same
  rwa [List.map_map, List.map_map] at mapped

theorem EntriesInPlace.current_eq (entries : session.EntriesInPlace) :
    session.backend.currentPlannedstmt =
      session.opened.head?.map fun statement => statement.queryDesc.plannedstmt := by
  unfold Session.EntriesInPlace at entries
  cases opened : session.opened with
  | nil =>
    rw [opened] at entries
    exact (List.cons.inj entries).1
  | cons newest older =>
    rw [opened] at entries
    exact (List.cons.inj entries).1

theorem stackSound_iff : StackSound session ↔ session.EntriesInPlace ∧ session.NewestInnermost := by
  constructor
  · intro sound
    refine ⟨sound.entries, fun call innermost => ?_⟩
    rw [← EntriesInPlace.current_eq sound.entries, sound.top call innermost]
  · rintro ⟨entries, innermost⟩
    refine ⟨fun call atHead => ?_, entries⟩
    rw [EntriesInPlace.current_eq entries, innermost call atHead]

/-! ### The steps -/

theorem restorePrevious_stack (backend : Backend) :
    backend.restorePrevious.currentPlannedstmt = backend.currentPlannedstmt ∧
      backend.restorePrevious.plannedstmtStack = backend.plannedstmtStack := by
  unfold Backend.restorePrevious
  split <;> exact ⟨rfl, rfl⟩

theorem graphExecutorStart_stack (backend : Backend) (queryDesc : Nat) (palloc : Nat → Nat)
    (plan : PlanState) :
    (backend.graphExecutorStart queryDesc palloc plan).currentPlannedstmt =
        backend.currentPlannedstmt ∧
      (backend.graphExecutorStart queryDesc palloc plan).plannedstmtStack =
        backend.plannedstmtStack := by
  unfold Backend.graphExecutorStart
  split <;> exact ⟨rfl, rfl⟩

theorem EntriesInPlace.congr
    (current : next.backend.currentPlannedstmt = session.backend.currentPlannedstmt)
    (stack : next.backend.plannedstmtStack = session.backend.plannedstmtStack)
    (opened : next.opened.map OpenStatement.queryDesc =
      session.opened.map OpenStatement.queryDesc) :
    next.EntriesInPlace ↔ session.EntriesInPlace := by
  unfold Session.EntriesInPlace
  rw [current, stack, map_queryDesc_congr (fun queryDesc => some queryDesc.plannedstmt) opened]

/-- A pop leaves the entries in place exactly when the statement that ends has the entry that is
popped. -/
theorem EntriesInPlace.finish (distinct : session.Distinct) (entries : session.EntriesInPlace)
    {address : Nat} (there : ∃ statement ∈ session.opened, statement.queryDesc.address = address)
    (ended : next.backend = session.backend.executorEndHook)
    (opened : next.opened =
      session.opened.filter fun statement => statement.queryDesc.address ≠ address) :
    next.EntriesInPlace ↔ ∀ statement ∈ session.opened, statement.queryDesc.address = address →
      ∀ newer ∈ session.opened.takeWhile fun other => other.queryDesc.address ≠ address,
        newer.queryDesc.plannedstmt = statement.queryDesc.plannedstmt := by
  obtain ⟨statement, member, rfl⟩ := there
  have only : (∀ other ∈ session.opened,
      other.queryDesc.address = statement.queryDesc.address →
        ∀ newer ∈ session.opened.takeWhile fun other =>
          other.queryDesc.address ≠ statement.queryDesc.address,
          newer.queryDesc.plannedstmt = other.queryDesc.plannedstmt) ↔
      ∀ newer ∈ session.opened.takeWhile fun other =>
          other.queryDesc.address ≠ statement.queryDesc.address,
        newer.queryDesc.plannedstmt = statement.queryDesc.plannedstmt := by
    refine ⟨fun all => all statement member rfl, fun all other inside same => ?_⟩
    rwa [List.inj_on_of_nodup_map distinct inside member same]
  have popped : next.backend.currentPlannedstmt :: next.backend.plannedstmtStack =
      (session.opened.map fun statement => some statement.queryDesc.plannedstmt).tail ++ [none] := by
    unfold Session.EntriesInPlace at entries
    obtain ⟨newest, older, split⟩ := List.exists_cons_of_ne_nil (List.ne_nil_of_mem member)
    rw [split, List.map_cons, List.cons_append, List.cons.injEq] at entries
    obtain ⟨previous, rest, stack⟩ := List.exists_cons_of_ne_nil
      (List.append_ne_nil_of_right_ne_nil
        (older.map fun statement => some statement.queryDesc.plannedstmt) (List.cons_ne_nil none []))
    rw [split, List.map_cons, List.tail_cons, ended, Backend.executorEndHook, Backend.amExecutorEnd,
      Backend.popPlannedStmt, Backend.graphExecutorEnd, (restorePrevious_stack _).2, entries.2, stack]
  rw [only, ← map_filter_eq_tail_iff (fun statement => statement.queryDesc.plannedstmt) distinct
    member]
  unfold Session.EntriesInPlace
  rw [popped, opened, List.append_left_inj, eq_comm,
    ← List.map_injective_iff.mpr (Option.some_injective Nat) |>.eq_iff, List.map_map, List.map_tail,
    List.map_map]
  rfl

theorem EntriesInPlace.abortTo {level : Nat} {raised : Raised}
    (aborted : session.abortTo level raised = some next) :
    next.EntriesInPlace ↔ session.survivors level = [] := by
  obtain ⟨backend, -, cleared, opened⟩ := Session.abortTo_eq aborted
  unfold Session.EntriesInPlace
  rw [cleared, opened]
  dsimp only [Backend.clearPlannedStmtStack]
  cases session.survivors level with
  | nil => simp
  | cons newest older => simp

theorem EntriesInPlace.keeps (keeps : session.Keeps next) (entries : session.EntriesInPlace) :
    next.EntriesInPlace := by
  unfold Session.EntriesInPlace
  rw [keeps.1, keeps.2]
  exact entries

theorem entries_step_iff {action : Action} (distinct : session.Distinct)
    (entries : session.EntriesInPlace) (stepped : session.step action = some next) :
    next.EntriesInPlace ↔ KeepsEntries session action := by
  cases action with
  | setDisable disable =>
    obtain rfl := Option.some.inj stepped
    exact iff_of_true entries trivial
  | start queryDesc =>
    obtain ⟨-, pushed, opened⟩ := Session.step_start stepped
    refine iff_of_true ?_ trivial
    unfold Session.EntriesInPlace
    rw [pushed, opened]
    exact congrArg (some queryDesc.plannedstmt :: ·) entries
  | started palloc plan =>
    obtain ⟨queryDesc, -, -, -, -, -, framed, opened, -⟩ := Session.step_started stepped
    obtain ⟨current, stack⟩ := graphExecutorStart_stack session.backend queryDesc.address palloc plan
    refine iff_of_true ((EntriesInPlace.congr ?_ ?_ ?_).mpr entries) trivial
    · rw [framed, current]
    · rw [framed, stack]
    · rw [opened, setWrapped_queryDescs]
  | run address => exact iff_of_true (EntriesInPlace.keeps (Session.step_run stepped) entries) trivial
  | finishRun => exact iff_of_true (EntriesInPlace.keeps (Session.step_finishRun stepped) entries) trivial
  | pause => exact iff_of_true (EntriesInPlace.keeps (Session.step_pause stepped) entries) trivial
  | finish address =>
    obtain ⟨there, ended, opened⟩ := Session.step_finish stepped
    exact EntriesInPlace.finish distinct entries there ended opened
  | beginSub =>
    obtain rfl := Option.some.inj stepped
    exact iff_of_true entries trivial
  | commitSub =>
    obtain ⟨kept, opened⟩ := Session.step_commitSub stepped
    refine iff_of_true ((EntriesInPlace.congr ?_ ?_ ?_).mpr entries) trivial
    · rw [kept]
    · rw [kept]
    · rw [opened, List.map_map]
      rfl
  | abortSub raised => exact EntriesInPlace.abortTo (Session.step_abortSub stepped)
  | abort raised =>
    exact (EntriesInPlace.abortTo stepped).trans (iff_of_true Session.survivors_top trivial)

/-- **The steps that keep the stack right** are those after which it is right. -/
theorem stackSound_step_iff {action : Action} (distinct : session.Distinct)
    (sound : StackSound session) (stepped : session.step action = some next) :
    StackSound next ↔ KeepsStack session action := by
  rw [stackSound_iff, entries_step_iff distinct sound.entries stepped]
  refine and_congr_right fun _ => ⟨fun newest other same => ?_, fun all => all next stepped⟩
  rwa [← Option.some.inj (stepped.symm.trans same)]

theorem distinct_step {action : Action} (distinct : session.Distinct)
    (stepped : session.step action = some next) : next.Distinct := by
  have sublist (shorter : next.opened.Sublist session.opened) : next.Distinct :=
    distinct.sublist (shorter.map _)
  have sameQueryDescs (same : next.opened.map OpenStatement.queryDesc =
      session.opened.map OpenStatement.queryDesc) : next.Distinct := by
    unfold Session.Distinct
    rwa [map_queryDesc_congr QueryDesc.address same]
  cases action with
  | setDisable disable =>
    obtain rfl := Option.some.inj stepped
    exact distinct
  | start queryDesc =>
    obtain ⟨new, -, opened⟩ := Session.step_start stepped
    unfold Session.Distinct
    rw [opened, List.map_cons, List.nodup_cons]
    refine ⟨fun known => ?_, distinct⟩
    obtain ⟨statement, member, same⟩ := List.mem_map.mp known
    exact new statement member same
  | started palloc plan =>
    obtain ⟨_, -, -, -, -, -, -, opened, -⟩ := Session.step_started stepped
    exact sameQueryDescs (by rw [opened, setWrapped_queryDescs])
  | run address => exact sublist (by rw [(Session.step_run stepped).2])
  | finishRun => exact sublist (by rw [(Session.step_finishRun stepped).2])
  | pause => exact sublist (by rw [(Session.step_pause stepped).2])
  | finish address =>
    obtain ⟨-, -, opened⟩ := Session.step_finish stepped
    exact sublist (by rw [opened]; exact List.filter_sublist)
  | beginSub =>
    obtain rfl := Option.some.inj stepped
    exact distinct
  | commitSub =>
    obtain ⟨-, opened⟩ := Session.step_commitSub stepped
    exact sameQueryDescs (by rw [opened, List.map_map]; rfl)
  | abortSub raised =>
    obtain ⟨_, -, -, opened⟩ := Session.abortTo_eq (Session.step_abortSub stepped)
    exact sublist (by rw [opened]; exact List.filter_sublist)
  | abort raised =>
    obtain ⟨_, -, -, opened⟩ := Session.abortTo_eq stepped
    exact sublist (by rw [opened]; exact List.filter_sublist)

/-! ### Runs -/

structure Tracked (session : Session) : Prop where
  distinct : session.Distinct
  sound : StackSound session

/-- **The stack is right** in every state that steps of the right kind lead to: its top is the
innermost statement that executes, and it has the entries of the open statements and no others. -/
theorem stackSound_reached (disable : Bool)
    (reached : ReachedBy Session.step KeepsStack (.idle disable) session) : StackSound session := by
  have tracked : Tracked session := by
    refine reached.invariant ?_ fun held keeps stepped => ?_
    · exact ⟨List.nodup_nil, stackSound_iff.mpr ⟨rfl, fun _ none => nomatch none⟩⟩
    · exact ⟨distinct_step held.distinct stepped,
        (stackSound_step_iff held.distinct held.sound stepped).mpr keeps⟩
  exact tracked.sound

def outerQuery : QueryDesc := ⟨1, 10⟩

def nestedQuery : QueryDesc := ⟨2, 20⟩

/-- A statement runs another one to its end. -/
theorem stackSound_nested : ∃ session,
    runMeeting Session.step KeepsStack (.idle false) [.start outerQuery, .started id .null, .run 1,
      .start nestedQuery, .started id .null, .finish 2] = some session ∧
    session.backend.currentPlannedstmt = some 10 ∧ StackSound session := by
  obtain ⟨session, ran, current⟩ : ∃ session, runMeeting Session.step KeepsStack (.idle false)
      [.start outerQuery, .started id .null, .run 1, .start nestedQuery, .started id .null,
        .finish 2] = some session ∧ session.backend.currentPlannedstmt = some 10 :=
    ⟨_, rfl, rfl⟩
  exact ⟨session, ran, current, stackSound_reached false (reachedBy_of_runMeeting ran)⟩

/-- **The caught abort**: a statement whose subtransaction is rolled back goes on without its
entry. -/
theorem caught_abort_clears :
    ¬∀ session, Reached Session.step (.idle false) session → StackSound session := by
  intro sound
  obtain ⟨session, ran, lost, innermost⟩ : ∃ session, runActions Session.step (.idle false)
      [.start outerQuery, .started id .null, .run 1, .beginSub, .abortSub .elsewhere] =
        some session ∧
      session.backend.currentPlannedstmt = none ∧
      session.calls.head? = some ⟨outerQuery, .running, 0⟩ :=
    ⟨_, rfl, rfl, rfl⟩
  have top := (sound session (reached_of_run ran)).top _ innermost
  rw [lost] at top
  cases top

end TurboHybrid.Executor
