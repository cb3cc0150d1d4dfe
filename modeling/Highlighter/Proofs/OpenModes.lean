import Highlighter.Proofs.Sharing
import Highlighter.Proofs.Course

/-!
# Open modes and open scopes

The modes that are open in a run and the nodes that are open in its tree go together.  A step
keeps them, opens a mode, or closes modes from the inside out and may then open the mode that
starts where they end.  Each of these keeps every mode inside one that may hold it, and a node
open for every mode with a scope.
-/
namespace Highlighter

open Compiled (CompiledGrammar CompiledMode)

/-! ## How modes nest -/

namespace Compiled.CompiledGrammar

/-- A mode leads to itself, and with a mode to the one that starts where that ends. -/
inductive Leads (grammar : CompiledGrammar) (first : Nat) : Nat → Prop where
  | same : Leads grammar first first
  | start {mode next : Nat} (leads : Leads grammar first mode)
      (starts : next ∈ (grammar.mode mode).starts) : Leads grammar first next

/-- A mode can be open right inside another: one that is contained there leads to it. -/
def Nests (grammar : CompiledGrammar) (outer inner : Nat) : Prop :=
  ∃ child ∈ (grammar.mode outer).contains, grammar.Leads child inner

variable {grammar : CompiledGrammar}

theorem nests_of_contains {outer child : Nat}
    (member : child ∈ (grammar.mode outer).contains) : grammar.Nests outer child :=
  ⟨child, member, .same⟩

theorem Nests.start {outer inner next : Nat} (nests : grammar.Nests outer inner)
    (starts : next ∈ (grammar.mode inner).starts) : grammar.Nests outer next := by
  obtain ⟨child, member, leads⟩ := nests
  exact ⟨child, member, leads.start starts⟩

end Compiled.CompiledGrammar

namespace Stack

@[simp]
theorem toList_push (stack : Stack) (frame : Frame) :
    (stack.push frame).toList = stack.toList ++ [frame] := by
  simp [toList, push]

theorem toList_ne_nil (stack : Stack) : stack.toList ≠ [] := by
  simp [toList]

theorem head?_toList_append (stack : Stack) (frames : List Frame) :
    (stack.toList ++ frames).head? = stack.toList.head? := by
  obtain ⟨outermost, inside, isList⟩ := List.exists_cons_of_ne_nil stack.toList_ne_nil
  rw [isList, List.cons_append, List.head?_cons, List.head?_cons]

theorem toList_eq_pop_append {stack : Stack} (nested : stack.below ≠ []) :
    stack.toList = stack.pop.toList ++ [stack.top] := by
  obtain ⟨top, below⟩ := stack
  cases below with
  | nil => exact absurd rfl nested
  | cons parent below => simp [toList, pop]

theorem below_pop (stack : Stack) : stack.pop.below = stack.below.tail := by
  obtain ⟨top, below⟩ := stack
  cases below <;> rfl

@[simp]
theorem length_toList (stack : Stack) : stack.toList.length = stack.size := by
  simp [toList, size]

theorem getLast?_toList (stack : Stack) : stack.toList.getLast? = some stack.top := by
  simp [toList]

/-- The modes of a stack are modes of the grammar, each inside one that may hold it, and
the outermost is the mode of the whole text. -/
structure WellNested (grammar : CompiledGrammar) (stack : Stack) : Prop where
  root : stack.toList.head?.map Frame.mode = some rootMode
  known : ∀ frame ∈ stack.toList, frame.mode < grammar.modes.size
  nested : ∀ (depth : Nat) (outer inner : Frame), stack.toList[depth]? = some outer →
    stack.toList[depth + 1]? = some inner → grammar.Nests outer.mode inner.mode

/-- The scopes of the modes inside the mode of the whole text, from the outside in. -/
def scopes (grammar : CompiledGrammar) (stack : Stack) : List String :=
  stack.toList.tail.filterMap fun frame => (grammar.mode frame.mode).scope

variable {grammar : CompiledGrammar} {stack : Stack}

theorem initial_wellNested (inUse : 0 < grammar.modes.size) : initial.WellNested grammar where
  root := rfl
  known := by
    intro frame member
    rw [List.mem_singleton.mp member]
    exact inUse
  nested := by
    intro depth outer inner _ isInner
    cases isInner

theorem WellNested.push {frame : Frame} (wellNested : stack.WellNested grammar)
    (nests : grammar.Nests stack.top.mode frame.mode) (known : frame.mode < grammar.modes.size) :
    (stack.push frame).WellNested grammar where
  root := by
    rw [toList_push, head?_toList_append]
    exact wellNested.root
  known := by
    intro other member
    rw [toList_push, List.mem_append, List.mem_singleton] at member
    rcases member with inStack | rfl
    · exact wellNested.known other inStack
    · exact known
  nested := by
    intro depth outer inner isOuter isInner
    rw [toList_push] at isOuter isInner
    have inRange := (List.getElem?_eq_some_iff.mp isInner).1
    rw [List.length_append, List.length_singleton] at inRange
    rw [List.getElem?_append_left (by omega)] at isOuter
    by_cases last : depth + 1 = stack.toList.length
    · rw [last, List.getElem?_concat_length] at isInner
      have isTop := stack.getLast?_toList
      rw [List.getLast?_eq_getElem?, ← last, Nat.add_sub_cancel, isOuter] at isTop
      cases isTop
      cases isInner
      exact nests
    · rw [List.getElem?_append_left (by omega)] at isInner
      exact wellNested.nested depth outer inner isOuter isInner

/-- Closing a mode leaves the modes around it, the next of which may hold it. -/
theorem WellNested.pop (wellNested : stack.WellNested grammar) (inside : stack.below ≠ []) :
    stack.pop.WellNested grammar ∧ grammar.Nests stack.pop.top.mode stack.top.mode := by
  have split := toList_eq_pop_append inside
  have nested := wellNested.nested
  have known := wellNested.known
  have root := wellNested.root
  rw [split] at nested known root
  rw [head?_toList_append] at root
  have positive := List.length_pos_iff.mpr stack.pop.toList_ne_nil
  refine ⟨⟨root, fun frame member => known frame (List.mem_append_left _ member), ?_⟩, ?_⟩
  · intro depth outer inner isOuter isInner
    have inRange := (List.getElem?_eq_some_iff.mp isInner).1
    refine nested depth outer inner ?_ ?_
    · rwa [List.getElem?_append_left (by omega)]
    · rwa [List.getElem?_append_left inRange]
  · have isTop := stack.pop.getLast?_toList
    rw [List.getLast?_eq_getElem?] at isTop
    refine nested (stack.pop.toList.length - 1) _ _ ?_ ?_
    · rwa [List.getElem?_append_left (by omega)]
    · rw [Nat.sub_add_cancel positive, List.getElem?_concat_length]

@[simp]
theorem scopes_push (frame : Frame) :
    (stack.push frame).scopes grammar =
      stack.scopes grammar ++ (grammar.mode frame.mode).scope.toList := by
  rw [scopes, toList_push, List.tail_append_of_ne_nil stack.toList_ne_nil, List.filterMap_append]
  cases isScope : (grammar.mode frame.mode).scope <;> simp [scopes, isScope]

theorem scopes_eq_pop_append (inside : stack.below ≠ []) :
    stack.scopes grammar =
      stack.pop.scopes grammar ++ (grammar.mode stack.top.mode).scope.toList := by
  rw [scopes, toList_eq_pop_append inside, List.tail_append_of_ne_nil stack.pop.toList_ne_nil,
    List.filterMap_append]
  cases isScope : (grammar.mode stack.top.mode).scope <;> simp [scopes, isScope]

end Stack

/-! ## Modes together with scopes -/

namespace OpenModes

def push (grammar : CompiledGrammar) (modes : OpenModes) (frame : Frame) : OpenModes where
  stack := modes.stack.push frame
  scopes := modes.scopes ++ (grammar.mode frame.mode).scope.toList.map some

/-- Closes the innermost mode, and a node if it has a scope. -/
def pop (grammar : CompiledGrammar) (modes : OpenModes) : OpenModes where
  stack := modes.stack.pop
  scopes :=
    if (grammar.mode modes.stack.top.mode).scope.isSome then modes.scopes.dropLast
    else modes.scopes

/-- Closes a number of modes, from the inside out. -/
def popMany (grammar : CompiledGrammar) : (count : Nat) → OpenModes → OpenModes
  | 0, modes => modes
  | count + 1, modes => popMany grammar count (modes.pop grammar)

def start (grammar : CompiledGrammar) (modes : OpenModes) (ended : Nat) : OpenModes :=
  match (grammar.mode ended).starts with
  | none => modes
  | some next => modes.push grammar { mode := next }

structure LockStep (grammar : CompiledGrammar) (modes : OpenModes) : Prop where
  wellNested : modes.stack.WellNested grammar
  scopes : modes.scopes = (modes.stack.scopes grammar).map some

variable {grammar : CompiledGrammar} {modes : OpenModes}

theorem LockStep.push {frame : Frame} (lockStep : modes.LockStep grammar)
    (nests : grammar.Nests modes.stack.top.mode frame.mode)
    (known : frame.mode < grammar.modes.size) : (modes.push grammar frame).LockStep grammar where
  wellNested := lockStep.wellNested.push nests known
  scopes := by simp [OpenModes.push, lockStep.scopes]

theorem LockStep.pop (lockStep : modes.LockStep grammar) (inside : modes.stack.below ≠ []) :
    (modes.pop grammar).LockStep grammar where
  wellNested := (lockStep.wellNested.pop inside).1
  scopes := by
    have scopes := lockStep.scopes
    rw [Stack.scopes_eq_pop_append inside] at scopes
    cases isScope : (grammar.mode modes.stack.top.mode).scope with
    | none => simpa [OpenModes.pop, isScope] using scopes
    | some scope => simp [OpenModes.pop, isScope, scopes]

theorem LockStep.scopes_ne_nil (lockStep : modes.LockStep grammar)
    (inside : modes.stack.below ≠ [])
    (hasScope : (grammar.mode modes.stack.top.mode).scope.isSome) : modes.scopes ≠ [] := by
  obtain ⟨scope, isScope⟩ := Option.isSome_iff_exists.mp hasScope
  rw [lockStep.scopes, Stack.scopes_eq_pop_append inside, isScope]
  simp

theorem below_popMany (count : Nat) :
    (modes.popMany grammar count).stack.below = modes.stack.below.drop count := by
  induction count generalizing modes with
  | zero => rfl
  | succ count ih =>
    rw [popMany, ih, OpenModes.pop, Stack.below_pop, List.drop_tail]

theorem below_popMany_ne_nil {count : Nat} (bounded : count < modes.stack.below.length) :
    (modes.popMany grammar count).stack.below ≠ [] := by
  rw [below_popMany, ← List.length_pos_iff, List.length_drop]
  omega

theorem popMany_succ (count : Nat) :
    modes.popMany grammar (count + 1) = (modes.popMany grammar count).pop grammar := by
  induction count generalizing modes with
  | zero => rfl
  | succ count ih => rw [popMany, ih, popMany]

theorem LockStep.popMany {count : Nat} (lockStep : modes.LockStep grammar)
    (bounded : count ≤ modes.stack.below.length) :
    (modes.popMany grammar count).LockStep grammar := by
  induction count with
  | zero => exact lockStep
  | succ count ih =>
    rw [popMany_succ]
    exact (ih (by omega)).pop (below_popMany_ne_nil bounded)

theorem LockStep.start {ended : Nat} (closed : grammar.Closed) (lockStep : modes.LockStep grammar)
    (nests : grammar.Nests modes.stack.top.mode ended) :
    (modes.start grammar ended).LockStep grammar := by
  unfold OpenModes.start
  split
  · exact lockStep
  · rename_i next starts
    exact lockStep.push (nests.start starts) (closed.starts ended next starts)

theorem toList_popMany {count : Nat} (bounded : count ≤ modes.stack.below.length) :
    (modes.popMany grammar count).stack.toList =
      modes.stack.toList.take (modes.stack.size - count) := by
  induction count with
  | zero => simp [popMany, List.take_of_length_le]
  | succ count ih =>
    have split := Stack.toList_eq_pop_append (@below_popMany_ne_nil grammar modes count bounded)
    have shorter := congrArg List.dropLast split
    rw [ih (by omega), List.dropLast_concat, List.dropLast_eq_take,
      List.take_take, List.length_take, Stack.length_toList] at shorter
    rw [popMany_succ, OpenModes.pop, ← shorter]
    congr 1
    omega

/-- What a step can do to the open modes. -/
inductive Moves (grammar : CompiledGrammar) (before : OpenModes) : OpenModes → Prop where
  | stay : Moves grammar before before
  | enter (child : Nat) (capture : Option String)
      (member : child ∈ (grammar.mode before.stack.top.mode).contains) :
      Moves grammar before (before.push grammar { mode := child, capture })
  | leave (count : Nat) (bounded : count < before.stack.below.length) :
      Moves grammar before
        ((before.popMany grammar (count + 1)).start grammar
          (before.popMany grammar count).stack.top.mode)

/-- What happens to the stack in a move. -/
theorem Moves.stack {before after : OpenModes} (moves : Moves grammar before after) :
    after.stack = before.stack ∨
      (∃ frame, after.stack = before.stack.push frame) ∨
      ∃ depth started, 1 ≤ depth ∧ depth < before.stack.size ∧ started.length ≤ 1 ∧
        after.stack.toList = before.stack.toList.take depth ++ started := by
  cases moves with
  | stay => exact .inl rfl
  | enter child capture member => exact .inr (.inl ⟨_, rfl⟩)
  | leave count bounded =>
    have left := @toList_popMany grammar before (count + 1) bounded
    have inside : 1 ≤ before.stack.size - (count + 1) ∧
        before.stack.size - (count + 1) < before.stack.size := by
      simp only [Stack.size]
      omega
    refine .inr (.inr ⟨before.stack.size - (count + 1), ?_⟩)
    unfold start
    split
    · exact ⟨[], inside.1, inside.2, Nat.zero_le 1, by rw [left, List.append_nil]⟩
    · rename_i next _
      refine ⟨[{ mode := next }], inside.1, inside.2, Nat.le_refl 1, ?_⟩
      rw [push, Stack.toList_push, left]

theorem Moves.lockStep {before after : OpenModes} (closed : grammar.Closed)
    (moves : Moves grammar before after) (lockStep : before.LockStep grammar) :
    after.LockStep grammar := by
  cases moves with
  | stay => exact lockStep
  | enter child capture member =>
    exact lockStep.push (CompiledGrammar.nests_of_contains member)
      (closed.contains _ child member)
  | leave count bounded =>
    have popped := lockStep.popMany (Nat.le_of_lt bounded)
    have inside := @below_popMany_ne_nil grammar before count bounded
    rw [popMany_succ]
    exact (popped.pop inside).start closed (popped.wellNested.pop inside).2

end OpenModes

/-! ## Opening and closing modes -/

namespace Run

variable {setting : Setting} {state after : RunState} {found : RuleMatch} {number : Nat}
  {earlier : Option Continuation} {text : String}

theorem withNode_openModes (number : Nat) :
    (withNode setting state number).openModes =
      { stack := state.stack
        scopes := state.builder.openScopes ++
          (setting.grammar.mode number).scope.toList.map some } := by
  unfold withNode
  split <;> simp [RunState.openModes, *]

/-- The scopes of a beginning come and go inside the node of the mode. -/
theorem Begins.openModes {mode : CompiledMode} {opened begun : RunState}
    (begins : Begins setting found mode opened begun) : begun.openModes = opened.openModes := by
  cases begins with
  | plain scope => rfl
  | whole scope isScope => simp [RunState.addScoped, RunState.openModes]
  | parts parts isScope added success =>
    exact (addParts_adds success).openModes

theorem openMode_openModes {capture : Option String}
    (success : openMode setting state number found capture = .ok after) :
    after.openModes = state.openModes.push setting.grammar { mode := number, capture } := by
  obtain ⟨begun, begins, rfl⟩ := openMode_ok success
  have opened := begins.openModes.trans (withNode_openModes number)
  have stack : begun.stack = state.stack := congrArg OpenModes.stack opened
  have scopes : begun.builder.openScopes = _ := congrArg OpenModes.scopes opened
  simp only [RunState.openModes, OpenModes.push, stack, scopes]

theorem closeTop_openModes :
    (closeTop setting state).openModes = state.openModes.pop setting.grammar := by
  cases scope : (setting.topMode state).scope with
  | none =>
    simp only [closeTop, scope]
    split <;> simp_all [RunState.openModes, OpenModes.pop, RunState.score, Setting.topMode]
  | some scope =>
    simp only [closeTop, scope]
    split <;> simp_all [RunState.openModes, OpenModes.pop, RunState.score, Setting.topMode]

theorem closeModes_openModes (count : Nat) :
    (closeModes setting (count + 1) state).1 =
        (state.openModes.popMany setting.grammar count).stack.top.mode ∧
      (closeModes setting (count + 1) state).2.openModes =
        state.openModes.popMany setting.grammar (count + 1) := by
  induction count generalizing state with
  | zero => exact ⟨rfl, closeTop_openModes⟩
  | succ count ih =>
    rw [closeModes, OpenModes.popMany, OpenModes.popMany, ← closeTop_openModes]
    exact ih

theorem closedWith_bounds (frame parent : Frame) (below : List Frame) :
    0 < closedWith setting frame (parent :: below) ∧
      closedWith setting frame (parent :: below) ≤ (parent :: below).length := by
  induction below generalizing frame parent with
  | nil => simp [closedWith]
  | cons grandparent below ih =>
    obtain ⟨positive, bounded⟩ := ih parent grandparent
    rw [closedWith]
    · split
      · exact ⟨by omega, Nat.succ_le_succ bounded⟩
      · simp
    · simp

theorem closedBy?_bounds {frame : Frame} {below : List Frame} {count : Nat}
    (success : closedBy? setting found frame below = .ok (some count)) :
    0 < count ∧ count ≤ below.length := by
  induction below generalizing frame count with
  | nil => cases success
  | cons parent below ih =>
    rw [closedBy?] at success
    obtain ⟨ends, -, success⟩ := Success.bind_eq_ok.mp success
    split at success
    · cases success
      exact closedWith_bounds frame parent below
    · split at success
      · obtain ⟨closed, outer, success⟩ := Success.bind_eq_ok.mp success
        cases closed with
        | none => cases success
        | some closed =>
          cases success
          obtain ⟨positive, bounded⟩ := ih outer
          exact ⟨Nat.succ_pos closed, Nat.succ_le_succ bounded⟩
      · cases success

/-! ## Steps -/

theorem skipEnter_openModes (found : RuleMatch) :
    (skipEnter state found).openModes = state.openModes := by
  unfold skipEnter
  split
  · exact state.passChar_openModes _
  · rfl

theorem enter_moves (member : number ∈ (setting.topMode state).contains)
    (success : enter setting state number found = .ok after) :
    OpenModes.Moves setting.grammar state.openModes after.openModes := by
  obtain ⟨-, rfl⟩ | ⟨begun, opened, first, second, rfl⟩ := enter_ok success
  · rw [skipEnter_openModes]
    exact .stay
  · have pushed : opened.openModes = _ := openMode_openModes second
    rw [(beginPending_stays first).openModes] at pushed
    exact pushed ▸ .enter number _ member

theorem StartsNext.openModes {ended : Nat} {closed started : RunState}
    (starts : StartsNext setting found ended closed started) :
    started.openModes = closed.openModes.start setting.grammar ended := by
  cases starts with
  | nothing starts => rw [OpenModes.start, starts]
  | mode next starts opened success => rw [OpenModes.start, starts, openMode_openModes success]

theorem leave_openModes (success : leave setting state found = .ok (some after)) :
    ∃ count < state.stack.below.length,
      after.openModes = (state.openModes.popMany setting.grammar (count + 1)).start setting.grammar
        (state.openModes.popMany setting.grammar count).stack.top.mode := by
  obtain ⟨count, flushed, started, counted, first, starts, rfl⟩ := leave_ok success
  obtain ⟨positive, bounded⟩ := closedBy?_bounds counted
  obtain ⟨count, rfl⟩ : ∃ fewer, count = fewer + 1 := ⟨count - 1, by omega⟩
  have closed := @closeModes_openModes setting flushed count
  rw [(endPending_stays first).openModes] at closed
  have isStart : started.openModes = _ := starts.openModes
  rw [closed.1, closed.2] at isStart
  exact ⟨count, bounded, isStart⟩

theorem step_moves (closed : setting.grammar.Closed)
    (success : step setting state = .ok (.more after)) :
    OpenModes.Moves setting.grammar state.openModes after.openModes := by
  obtain ⟨place, found, behind, finds, applied⟩ := step_eq_more.mp success
  have kept : ((searched state place found behind).note found).openModes = state.openModes := rfl
  rw [← kept]
  cases apply_ok applied with
  | guarded | pass =>
    rw [RunState.passChar_openModes]
    exact .stay
  | keep => exact .stay
  | enter _ child isEnter after success =>
    refine enter_moves ?_ success
    exact closed.enters _ _ _ _ _ child finds.search isEnter
  | leave _ _ after success =>
    obtain ⟨count, bounded, isAfter⟩ := leave_openModes success
    exact isAfter ▸ .leave count bounded

/-- The states in which modes are closed during a step: when the end of a mode was found
and the pending text flushed, and then after each mode that is closed but the last. -/
inductive Closing (setting : Setting) (state : RunState) : RunState → Prop where
  | mk (place : Place) (cursor : Cursor) (found : RuleMatch) (behind : Cursor)
      (lastMatch : Option LastMatch) (count : Nat) (flushed : RunState)
      (isPlace : state.place = some place)
      (search : (setting.topMode state).matcher.next cursor place = .ok (some found, behind))
      (counted :
        closedBy? setting found state.stack.top state.stack.below = .ok (some count))
      (ended : endPending setting (noted state place found behind lastMatch)
        (setting.topMode state) found = .ok flushed)
      (earlier : Nat) (bounded : earlier < count) :
      Closing setting state (Nat.repeat (closeTop setting) earlier flushed)

theorem repeat_closeTop_openModes (count : Nat) :
    (Nat.repeat (closeTop setting) count state).openModes =
      state.openModes.popMany setting.grammar count := by
  induction count with
  | zero => rfl
  | succ count ih =>
    rw [Nat.repeat, closeTop_openModes, ih, OpenModes.popMany_succ]

theorem Closing.nodeOpen {closing : RunState} (isClosing : Closing setting state closing)
    (lockStep : state.openModes.LockStep setting.grammar) :
    closing.stack.below ≠ [] ∧
      ((setting.topMode closing).scope.isSome → 0 < closing.builder.depth) := by
  obtain ⟨place, cursor, found, behind, lastMatch, count, flushed, -, -, counted, ended,
    earlier, bounded⟩ := isClosing
  have modes := @repeat_closeTop_openModes setting flushed earlier
  rw [(endPending_stays ended).openModes] at modes
  change _ = state.openModes.popMany setting.grammar earlier at modes
  have inRange : earlier < state.openModes.stack.below.length :=
    Nat.lt_of_lt_of_le bounded (closedBy?_bounds counted).2
  have inside := @OpenModes.below_popMany_ne_nil setting.grammar _ earlier inRange
  have inStep := lockStep.popMany (Nat.le_of_lt inRange)
  rw [← modes] at inside inStep
  refine ⟨inside, ?_⟩
  intro hasScope
  rw [Scope.Builder.depth_eq_length]
  exact List.length_pos_iff.mpr (inStep.scopes_ne_nil inside hasScope)

/-! ## Runs -/

/-- The states that a run goes through. -/
inductive Reached (setting : Setting) (earlier : Option Continuation) (text : String) :
    RunState → Prop where
  | start : Reached setting earlier text (initialState setting earlier text.toList)
  | next {state after : RunState} (reached : Reached setting earlier text state)
      (success : step setting state = .ok (.more after)) : Reached setting earlier text after

/-- Where a run in a grammar can go on: nowhere yet, or where an earlier run in the same
grammar stopped. -/
inductive Continues (grammar : CompiledGrammar) : Option Continuation → Prop where
  | fresh : Continues grammar none
  | left (setting : Setting) (sameGrammar : setting.grammar = grammar)
      (earlier : Option Continuation) (continues : Continues grammar earlier)
      (text : String) (outcome : Outcome) (success : highlight setting earlier text = .ok outcome) :
      Continues grammar (some outcome.continuation)

theorem reopen_openScopes (builder : Scope.Builder) (frames : List Frame) :
    (reopen setting builder frames).openScopes =
      builder.openScopes ++
        (frames.filterMap fun frame => (setting.grammar.mode frame.mode).scope).map some := by
  induction frames generalizing builder with
  | nil => simp [reopen]
  | cons frame frames ih =>
    cases isScope : (setting.grammar.mode frame.mode).scope <;>
      simp [reopen, isScope, ih]

theorem initialState_lockStep (closed : setting.grammar.Closed)
    (wellNested : ∀ continuation ∈ earlier, continuation.stack.WellNested setting.grammar)
    (text : List Char) :
    (initialState setting earlier text).openModes.LockStep setting.grammar := by
  have fresh : OpenModes.LockStep setting.grammar { stack := .initial, scopes := [] } :=
    ⟨Stack.initial_wellNested closed.root, rfl⟩
  simp only [initialState]
  split
  · exact fresh
  · rename_i continuation
    split
    · refine ⟨wellNested continuation rfl, ?_⟩
      simp only [RunState.openModes, reopen_openScopes]
      rfl
    · exact fresh

theorem Reached.lockStep (closed : setting.grammar.Closed)
    (wellNested : ∀ continuation ∈ earlier, continuation.stack.WellNested setting.grammar)
    (reached : Reached setting earlier text state) : state.openModes.LockStep setting.grammar := by
  induction reached with
  | start => exact initialState_lockStep closed wellNested text.toList
  | next reached success ih =>
    exact (step_moves closed success).lockStep closed ih

/-- The modes that a run leaves open are well nested, whatever run it went on from. -/
theorem Continues.wellNested {grammar : CompiledGrammar} (closed : grammar.Closed)
    (continues : Continues grammar earlier) :
    ∀ continuation ∈ earlier, continuation.stack.WellNested grammar := by
  induction continues with
  | fresh =>
    intro continuation member
    cases member
  | left setting sameGrammar earlier continues text outcome success ih =>
    intro continuation member
    cases member
    subst sameGrammar
    obtain ⟨last, stepped, success⟩ := Success.bind_eq_ok.mp success
    obtain ⟨final, flushed, success⟩ := Success.bind_eq_ok.mp success
    cases success
    have lockStep := (steps_keep (fun _ _ => Reached.next) .start stepped).lockStep closed ih
    have kept := (flush_stays flushed).openModes
    change final.openModes = last.openModes at kept
    rw [← kept] at lockStep
    exact lockStep.wellNested

/-- Modes and scopes go together in every state of a run.  The modes are well nested, the
open nodes are those of their scopes, no mode is closed without its node, and a step
that closes modes leaves the outer ones, at least one, and opens one more at most. -/
theorem openModes_in_lockStep {definition : Grammar.Definition}
    (compiled : CompiledGrammar.compile definition = .ok setting.grammar)
    {earlier : Option Continuation} (continues : Continues setting.grammar earlier)
    {text : String} (reached : Reached setting earlier text state) :
    state.stack.WellNested setting.grammar ∧
      state.builder.openScopes = (state.stack.scopes setting.grammar).map some ∧
      (∀ closing, Closing setting state closing →
        closing.stack.below ≠ [] ∧
          ((setting.topMode closing).scope.isSome → 0 < closing.builder.depth)) ∧
      ∀ after, step setting state = .ok (.more after) →
        after.stack = state.stack ∨
        (∃ frame, after.stack = state.stack.push frame) ∨
        ∃ depth started, 1 ≤ depth ∧ depth < state.stack.size ∧ started.length ≤ 1 ∧
          after.stack.toList = state.stack.toList.take depth ++ started := by
  have closed := CompiledGrammar.closed_of_compile compiled
  have lockStep := reached.lockStep closed (continues.wellNested closed)
  refine ⟨lockStep.wellNested, lockStep.scopes, fun closing isClosing =>
    isClosing.nodeOpen lockStep, ?_⟩
  intro after stepped
  exact (step_moves closed stepped).stack

def tags : Grammar.Definition where
  name := "tags"
  root :=
    { contains := some [.inline
        { scope := some (.name "tag")
          beginPattern := some (.source "<")
          endPattern := some (.source ">") }] }

/-- Runs in the grammar of tags, where nothing is embedded. -/
def tagSetting (grammar : CompiledGrammar) : Setting where
  name := "tags"
  grammar
  ignoreIllegals := false
  safe := false
  embedder :=
    { highlight := fun _ _ _ _ => .ok none
      detect := fun _ _ => .error .endlessEmbedding }

/-- The states are not all alike: a run can go on inside a tag that an earlier text left
open. -/
theorem openModes_in_lockStep_tags :
    ∃ grammar outcome state,
      CompiledGrammar.compile tags = .ok grammar ∧
      highlight (tagSetting grammar) none "a<b" = .ok outcome ∧
      Reached (tagSetting grammar) (some outcome.continuation) ">" state ∧
      state.stack.size = 2 ∧
      state.stack.WellNested grammar ∧
      state.builder.openScopes = (state.stack.scopes grammar).map some := by
  have reopened :
      ((CompiledGrammar.compile tags).toOption.bind fun grammar =>
        (highlight (tagSetting grammar) none "a<b").toOption.map fun outcome =>
          (initialState (tagSetting grammar) (some outcome.continuation) ['>']).stack.size) =
        some 2 := by
    decide +kernel
  obtain ⟨grammar, compiled, evaluated⟩ := Option.bind_eq_some_iff.mp reopened
  obtain ⟨outcome, success, size⟩ := Option.map_eq_some_iff.mp evaluated
  have compiled := Success.toOption_eq_some.mp compiled
  have success := Success.toOption_eq_some.mp success
  have continues : Continues grammar (some outcome.continuation) :=
    .left (tagSetting grammar) rfl none .fresh "a<b" outcome success
  have lockStep := @openModes_in_lockStep (tagSetting grammar) _ tags compiled _ continues
    ">" .start
  exact ⟨grammar, outcome, _, compiled, success, .start, size, lockStep.1, lockStep.2.1⟩

end Run
end Highlighter
