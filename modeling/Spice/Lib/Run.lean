import Spice.Lib.Numbers
import Mathlib.Data.List.Basic

namespace Spice
namespace Lib

universe u v

variable {State : Type u} {Op : Type v}

/-!
# Runs of a partial step function

A component is a state and a step that may fail: `none` stands for an
assertion, a crash, or a loop that never ends.  A run executes a list of
operations.  Facts about a run usually refer to the operations executed so
far, not only to the state, so invariants and step conditions take that list
as their first argument.
-/

/-- Execute the operations in order, stopping at the first failure. -/
def run (step : State -> Op -> Option State) : State -> List Op -> Option State
  | state, [] => some state
  | state, op :: rest =>
      match step state op with
      | none => none
      | some next => run step next rest

/-- Every executed operation meets `ok`, judged before it is executed. -/
def Meets (step : State -> Op -> Option State) (ok : List Op -> State -> Op -> Prop) :
    List Op -> State -> List Op -> Prop
  | _, _, [] => True
  | past, state, op :: rest =>
      ok past state op ∧
        forall next, step state op = some next -> Meets step ok (past ++ [op]) next rest

/-- Evaluate a condition on the states of a run. -/
def checkRun (step : State -> Op -> Option State) (check : State -> Op -> Bool) : State -> List Op -> Bool
  | _, [] => true
  | state, op :: rest =>
      check state op &&
        match step state op with
        | none => true
        | some next => checkRun step check next rest

section Basic

variable (step : State -> Op -> Option State)

@[simp] theorem run_nil (state : State) : run step state [] = some state := rfl

theorem run_cons_of_some {state next : State} {op : Op} (rest : List Op)
    (stepped : step state op = some next) : run step state (op :: rest) = run step next rest := by
  simp only [run, stepped]

theorem run_cons_eq_some {state final : State} {op : Op} {rest : List Op} : run step state (op :: rest) = some final <->
      Exists fun next => step state op = some next ∧ run step next rest = some final := by
  cases stepped : step state op with
  | none => simp [run, stepped]
  | some next => simp [run, stepped]

theorem run_append (state : State) (first second : List Op) : run step state (first ++ second) =
      (run step state first).bind (fun middle => run step middle second) := by
  induction first generalizing state with
  | nil => rfl
  | cons op rest ih =>
      cases stepped : step state op with
      | none => simp only [List.cons_append, run, stepped, Option.bind_none]
      | some next =>
          rw [List.cons_append, run_cons_of_some step _ stepped, run_cons_of_some step _ stepped, ih]

end Basic

section Invariants

variable {step : State -> Op -> Option State} {ok : List Op -> State -> Op -> Prop}

theorem Meets.of_append {first second past : List Op} {state : State}
    (meets : Meets step ok past state (first ++ second)) : Meets step ok past state first := by
  induction first generalizing past state with
  | nil => trivial
  | cons op rest ih => exact ⟨meets.1, fun next stepped => ih (meets.2 next stepped)⟩

theorem Meets.rest {first second past : List Op} {state middle : State}
    (meets : Meets step ok past state (first ++ second)) (ran : run step state first = some middle) :
    Meets step ok (past ++ first) middle second := by
  induction first generalizing past state with
  | nil =>
      cases ran
      simpa using meets
  | cons op others ih =>
      rcases (run_cons_eq_some step).mp ran with ⟨next, stepped, ranOthers⟩
      simpa using ih (meets.2 next stepped) ranOthers

theorem Meets.append {first second past : List Op} {state : State} (meets : Meets step ok past state first)
    (rest : forall middle, run step state first = some middle -> Meets step ok (past ++ first) middle second) :
    Meets step ok past state (first ++ second) := by
  induction first generalizing past state with
  | nil => simpa using rest state rfl
  | cons op others ih =>
      refine ⟨meets.1, fun next stepped => ih (meets.2 next stepped) fun middle ran => ?_⟩
      have found := rest middle (by rw [run_cons_of_some step others stepped, ran])
      simpa using found

/-- The run rule.  An invariant established by every step that meets its
condition holds after the whole run, which in particular does not fail. -/
theorem run_keeps {Inv : List Op -> State -> Prop} (keep : forall past state op, Inv past state -> ok past state op ->
      Exists fun next => step state op = some next ∧ Inv (past ++ [op]) next) :
    forall (ops past : List Op) (state : State), Inv past state -> Meets step ok past state ops ->
      Exists fun final => run step state ops = some final ∧ Inv (past ++ ops) final := by
  intro ops
  induction ops with
  | nil =>
      intro past state holds _
      exact ⟨state, rfl, by simpa using holds⟩
  | cons op rest ih =>
      intro past state holds meets
      rcases keep past state op holds meets.1 with ⟨next, stepped, nextHolds⟩
      rcases ih (past ++ [op]) next nextHolds (meets.2 next stepped) with ⟨final, ran, finalHolds⟩
      refine ⟨final, ?_, by simpa using finalHolds⟩
      rw [run_cons_of_some step rest stepped, ran]

/-- The invariant rule for runs that may fail: an invariant kept by every step
that meets its condition and succeeds holds wherever the run gets to. -/
theorem run_invariant_of_meets {Inv : List Op -> State -> Prop}
    (keep : forall past state op next, Inv past state -> ok past state op ->
      step state op = some next -> Inv (past ++ [op]) next) : forall (ops past : List Op)
      (state final : State), Inv past state ->
      Meets step ok past state ops -> run step state ops = some final -> Inv (past ++ ops) final := by
  intro ops
  induction ops with
  | nil =>
      intro past state final holds _ ran
      cases ran
      simpa using holds
  | cons op rest ih =>
      intro past state final holds meets ran
      rcases (run_cons_eq_some step).mp ran with ⟨next, stepped, ranRest⟩
      have nextHolds := keep past state op next holds meets.1 stepped
      simpa using ih (past ++ [op]) next final nextHolds (meets.2 next stepped) ranRest

theorem Meets.of_forall (all : forall past state op, ok past state op) :
    forall (ops past : List Op) (state : State), Meets step ok past state ops := by
  intro ops
  induction ops with
  | nil => intro _ _; trivial
  | cons op rest ih => exact fun past state => ⟨all past state op, fun next _ => ih (past ++ [op]) next⟩

theorem Meets.of_mem {ops : List Op} (all : forall past state op, op ∈ ops -> ok past state op) :
    forall {past : List Op} {state : State}, Meets step ok past state ops := by
  induction ops with
  | nil => intro _ _; trivial
  | cons op rest ih =>
      intro past state
      refine ⟨all past state op List.mem_cons_self, fun next _ => ih ?_⟩
      exact fun past state other member => all past state other (List.mem_cons_of_mem _ member)

theorem Meets.mono {other : List Op -> State -> Op -> Prop} (weaker : forall past state op, ok past state op ->
    other past state op) {ops past : List Op} {state : State} (meets : Meets step ok past state ops) :
    Meets step other past state ops := by
  induction ops generalizing past state with
  | nil => trivial
  | cons op rest ih => exact ⟨weaker past state op meets.1, fun next stepped => ih (meets.2 next stepped)⟩

theorem Meets.and {other : List Op -> State -> Op -> Prop} {ops past : List Op} {state : State}
    (one : Meets step ok past state ops) (two : Meets step other past state ops) :
    Meets step (fun past state op => ok past state op ∧ other past state op) past state ops := by
  induction ops generalizing past state with
  | nil => trivial
  | cons op rest ih => exact ⟨⟨one.1, two.1⟩, fun next stepped => ih (one.2 next stepped) (two.2 next stepped)⟩

theorem Meets.of_check {check : State -> Op -> Bool}
    (sound : forall past state op, check state op = true -> ok past state op) :
    forall (ops past : List Op) (state : State), checkRun step check state ops = true ->
      Meets step ok past state ops := by
  intro ops
  induction ops with
  | nil => intro _ _ _; trivial
  | cons op rest ih =>
      intro past state checked
      simp only [checkRun, Bool.and_eq_true] at checked
      refine ⟨sound past state op checked.1, fun next stepped => ?_⟩
      rw [stepped] at checked
      exact ih (past ++ [op]) next checked.2

theorem run_invariant {Inv : List Op -> State -> Prop}
    (keep : forall past state op next, Inv past state -> step state op = some next -> Inv (past ++ [op]) next)
    (ops past : List Op) (state final : State) (holds : Inv past state)
    (ran : run step state ops = some final) : Inv (past ++ ops) final :=
  run_invariant_of_meets (fun past state op next inv (_ : True) stepped => keep past state op next inv stepped)
    ops past state final holds (Meets.of_forall (fun _ _ _ => trivial) ops past state) ran

/-- `Safe` in every state of the run, with no failure on the way. -/
def AllStates (step : State -> Op -> Option State) (Safe : List Op -> State -> Prop)
    (past : List Op) (state : State) (ops : List Op) : Prop :=
  forall before, before <+: ops ->
    Exists fun middle => run step state before = some middle ∧ Safe (past ++ before) middle

theorem AllStates.cons {Safe : List Op -> State -> Prop} {past : List Op} {state next : State}
    {op : Op} {rest : List Op} (all : AllStates step Safe past state (op :: rest))
    (stepped : step state op = some next) : AllStates step Safe (past ++ [op]) next rest := by
  intro before isPrefix
  rcases all (op :: before) (List.cons_prefix_cons.mpr ⟨rfl, isPrefix⟩) with ⟨middle, ran, safe⟩
  refine ⟨middle, ?_, by simpa using safe⟩
  rwa [run_cons_of_some step before stepped] at ran

/-- The safety rule: an invariant kept by every step that meets its condition
makes every state of the run safe. -/
theorem allStates_of_meets {Inv Safe : List Op -> State -> Prop}
    (sound : forall past state, Inv past state -> Safe past state)
    (keep : forall past state op, Inv past state -> ok past state op ->
      Exists fun next => step state op = some next ∧ Inv (past ++ [op]) next)
    {ops past : List Op} {state : State} (holds : Inv past state)
    (meets : Meets step ok past state ops) : AllStates step Safe past state ops := by
  rintro before ⟨after, split⟩
  subst split
  rcases run_keeps keep before past state holds meets.of_append with ⟨middle, ran, inv⟩
  exact ⟨middle, ran, sound _ _ inv⟩

/-- When the invariant gives safety, and a safe step from an invariant state
meets the condition, being safe all along is the same as meeting the
condition all along.  `legal` restricts the operations a caller may issue. -/
theorem allStates_iff_meets {Inv Safe : List Op -> State -> Prop} {legal : List Op -> Op -> Prop}
    (sound : forall past state, Inv past state -> Safe past state)
    (keep : forall past state op, Inv past state -> legal past op -> ok past state op ->
      Exists fun next => step state op = some next ∧ Inv (past ++ [op]) next)
    (needed : forall past state op next, Inv past state -> legal past op ->
      step state op = some next -> Safe (past ++ [op]) next -> ok past state op) :
    forall (ops past : List Op) (state : State), Inv past state ->
      (forall before op after, ops = before ++ op :: after -> legal (past ++ before) op) ->
      (AllStates step Safe past state ops <-> Meets step ok past state ops) := by
  intro ops
  induction ops with
  | nil =>
      intro past state holds _
      refine ⟨fun _ => trivial, fun _ before isPrefix => ⟨state, ?_, ?_⟩⟩
      · rw [List.prefix_nil.mp isPrefix, run_nil]
      · rw [List.prefix_nil.mp isPrefix, List.append_nil]
        exact sound past state holds
  | cons op rest ih =>
      intro past state holds legalAll
      have legalOp : legal past op := by simpa using legalAll [] op rest rfl
      have legalRest : forall before other after, rest = before ++ other :: after ->
          legal (past ++ [op] ++ before) other := by
        intro before other after split
        have found := legalAll (op :: before) other after (by rw [split, List.cons_append])
        simpa using found
      constructor
      · intro all
        rcases all [op] (List.cons_prefix_cons.mpr ⟨rfl, List.nil_prefix⟩) with ⟨next, ran, safe⟩
        have stepped : step state op = some next := by
          rcases (run_cons_eq_some step).mp ran with ⟨other, stepped, same⟩
          rw [stepped]
          exact same
        have okOp := needed past state op next holds legalOp stepped safe
        refine ⟨okOp, fun other steppedOther => ?_⟩
        rcases keep past state op holds legalOp okOp with ⟨kept, steppedKept, keptHolds⟩
        have same : kept = other := Option.some.inj (steppedKept.symm.trans steppedOther)
        subst same
        exact (ih (past ++ [op]) kept keptHolds legalRest).mp (all.cons steppedOther)
      · intro meets before isPrefix
        cases before with
        | nil => exact ⟨state, rfl, by simpa using sound past state holds⟩
        | cons head tail =>
            rcases List.cons_prefix_cons.mp isPrefix with ⟨same, tailPrefix⟩
            subst same
            rcases keep past state head holds legalOp meets.1 with ⟨next, stepped, nextHolds⟩
            have restSafe := (ih (past ++ [head]) next nextHolds legalRest).mpr (meets.2 next stepped)
            rcases restSafe tail tailPrefix with ⟨middle, ran, safe⟩
            exact ⟨middle, by rw [run_cons_of_some step tail stepped, ran], by simpa using safe⟩

end Invariants

end Lib
end Spice
