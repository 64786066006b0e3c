import Mathlib.Data.List.Basic
import Rubric.Logged

/-!
Laws of values with a log. Running a step appends its log and nothing else, so logged values are a
lawful monad, and running a list of steps is the fold of that monad. What the steps log has no part
in how they are run: with any other entries in place of their own, a note of each run among them,
every step still has its turn once, in order and on the same value. Steps on the unit value leave
the concatenation of their logs.
-/
namespace Rubric.Logged

variable {ε δ α β γ : Type}

/-! Laws of one step after another -/

theorem success_andThen (value : α) (step : α → Logged ε β) :
    (success value).andThen step = step value := rfl

theorem andThen_success (logged : Logged ε α) : logged.andThen success = logged := by
  simp only [andThen, success, List.append_nil]

theorem andThen_assoc (logged : Logged ε α) (first : α → Logged ε β) (second : β → Logged ε γ) :
    (logged.andThen first).andThen second =
      logged.andThen fun value => (first value).andThen second := by
  simp only [andThen, List.append_assoc]

instance : Monad (Logged ε) where
  pure := success
  bind := andThen

instance : LawfulMonad (Logged ε) :=
  LawfulMonad.mk' (Logged ε) andThen_success success_andThen andThen_assoc

/-! Lists of steps -/

theorem fold_eq_foldlM (initial : α) (steps : List (α → Logged ε α)) :
    fold initial steps = steps.foldlM (fun value step => step value) initial := by
  rw [List.foldlM_eq_foldl]
  rfl

theorem fold_cons (initial : α) (step : α → Logged ε α) (rest : List (α → Logged ε α)) :
    fold initial (step :: rest) = (step initial).andThen fun value => fold value rest := by
  simp only [fold_eq_foldlM]
  exact List.foldlM_cons

/-- What was logged by the first steps stays in front, and the others go on from their value. -/
theorem fold_append (initial : α) (first second : List (α → Logged ε α)) :
    fold initial (first ++ second) =
      (fold initial first).andThen fun value => fold value second := by
  simp only [fold_eq_foldlM]
  exact List.foldlM_append

/-- The value that steps leave, each run on the value of the one before. Logs play no part. -/
def reached (initial : α) (steps : List (α → Logged ε α)) : α :=
  steps.foldl (fun value step => (step value).value) initial

/-- A step with other entries in place of its own. They may tell its place among the steps, the
value that it is run on and what it gives. -/
def relog (entries : Nat → α → Logged ε α → List δ) (place : Nat) (step : α → Logged ε α) :
    α → Logged δ α :=
  fun value => ⟨(step value).value, entries place value (step value)⟩

/-- Whatever is logged, every step has its turn once, in order, on the value that the steps before
it leave. -/
theorem fold_relog (entries : Nat → α → Logged ε α → List δ) (initial : α)
    (steps : List (α → Logged ε α)) :
    fold initial (steps.mapIdx (relog entries)) =
      ⟨reached initial steps,
        (steps.mapIdx fun place step =>
          let before := reached initial (steps.take place)
          entries place before (step before)).flatten⟩ := by
  -- the places of the later steps are counted from one, so the entries change with the list
  induction steps generalizing initial entries with
  | nil => rfl
  | cons step rest ih =>
    have hrest := ih (fun place => entries (place + 1)) (step initial).value
    rw [List.mapIdx_cons, fold_cons, List.mapIdx_cons, List.flatten_cons]
    exact congrArg (fun later : Logged δ α =>
      Logged.mk later.value (entries 0 initial (step initial) ++ later.log)) hrest

theorem mapIdx_eq_map (items : List α) (f : α → β) :
    items.mapIdx (fun _ item => f item) = items.map f := by
  rw [List.mapIdx_eq_zipIdx_map]
  calc items.zipIdx.map (fun numbered => f numbered.1)
    _ = (items.zipIdx.map Prod.fst).map f := by rw [List.map_map]; rfl
    _ = items.map f := by rw [List.zipIdx_map_fst]

theorem fold_eq (initial : α) (steps : List (α → Logged ε α)) :
    fold initial steps =
      ⟨reached initial steps,
        (steps.mapIdx fun place step =>
          (step (reached initial (steps.take place))).log).flatten⟩ := by
  -- the steps are their own relogging, with what they give to choose the entries from
  have hown : steps.mapIdx (relog fun _ _ outcome => outcome.log) = steps :=
    (mapIdx_eq_map steps id).trans (List.map_id steps)
  have hfold := fold_relog (fun _ _ outcome => outcome.log) initial steps
  rwa [hown] at hfold

theorem log_fold_unit (steps : List (Unit → Logged ε Unit)) :
    (fold () steps).log = steps.flatMap fun step => (step ()).log := by
  rw [fold_eq, List.flatMap_def, ← mapIdx_eq_map]

/-- Steps compose as in a monad, and a fold runs all of them. Its value is the left fold of their
values and its log the concatenation of their logs, each step being run on the value that those
before it leave. What is logged makes no difference to that: with other entries, such as a note of
its place, of the value it is run on and of what it gives, each step still has its turn once, in
order and on the same value. -/
theorem fold_collects_all (initial : α) (logged : Logged ε α) (next : α → Logged ε β)
    (last : β → Logged ε γ) (steps more : List (α → Logged ε α))
    (entries : Nat → α → Logged ε α → List δ) :
    (success initial).andThen next = next initial ∧
    logged.andThen success = logged ∧
    (logged.andThen next).andThen last =
      logged.andThen (fun value => (next value).andThen last) ∧
    (fold initial steps).value = steps.foldl (fun value step => (step value).value) initial ∧
    (fold initial steps).log =
      (steps.mapIdx fun place step => (step (reached initial (steps.take place))).log).flatten ∧
    fold initial (steps.mapIdx (relog entries)) =
      ⟨(fold initial steps).value,
        (steps.mapIdx fun place step =>
          let before := reached initial (steps.take place)
          entries place before (step before)).flatten⟩ ∧
    fold initial (steps ++ more) = (fold initial steps).andThen fun value => fold value more := by
  have hfold := fold_eq initial steps
  refine ⟨success_andThen initial next, andThen_success logged, andThen_assoc logged next last,
    congrArg Logged.value hfold, congrArg Logged.log hfold, ?_, fold_append initial steps more⟩
  rw [fold_relog, hfold]

example :
    let steps : List (Nat → Logged String Nat) :=
      [fun n => ⟨n + 1, ["a", "b"]⟩, fun n => success (n * 10), fun n => ⟨n - 7, ["c"]⟩]
    fold 5 steps = ⟨53, ["a", "b", "c"]⟩ ∧
      fold 5 (steps.mapIdx (relog fun place before _ => [(place, before)])) =
        ⟨53, [(0, 5), (1, 6), (2, 60)]⟩ := by
  decide

end Rubric.Logged
