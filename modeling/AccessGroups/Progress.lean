/-!
Runs that keep what they did. A run goes over its items one by one and stops at the first that fails;
what was reached before the failure is kept beside it.
-/

set_option autoImplicit false

namespace AccessGroups

theorem eq_ok_of_mapError {α ε μ : Type} {result : Except μ α} {fault : μ → ε} {a : α}
    (ok : result.mapError fault = .ok a) : result = .ok a := by
  cases result with
  | ok b => exact congrArg Except.ok (Except.ok.inj ok)
  | error cause => cases ok

/-- What a run reached, and the fault that stopped it early, if one did. -/
structure Progress (σ ε : Type) where
  reached : σ
  fault? : Option ε

namespace Progress

variable {σ ε α : Type}

def done (s : σ) : Progress σ ε := ⟨s, none⟩

def stop (s : σ) (fault : ε) : Progress σ ε := ⟨s, some fault⟩

/-- A step with a result goes on with it; one without stops where it stands. -/
def ofExcept {β : Type} (s : σ) (result : Except ε β) (next : β → Progress σ ε) : Progress σ ε :=
  match result with
  | .ok b => next b
  | .error fault => stop s fault

@[simp] theorem ofExcept_mapError_ok {β μ : Type} (s : σ) (fault : μ → ε) (b : β)
    (next : β → Progress σ ε) :
    ofExcept s ((Except.ok b : Except μ β).mapError fault) next = next b := rfl

@[simp] theorem ofExcept_mapError_error {β μ : Type} (s : σ) (fault : μ → ε) (cause : μ)
    (next : β → Progress σ ε) :
    ofExcept s ((Except.error cause : Except μ β).mapError fault) next = stop s (fault cause) := rfl

/-- A step with a result keeps what its continuation keeps, and one without changes nothing. -/
theorem ofExcept_keeps {β : Type} {s : σ} {result : Except ε β} {next : β → Progress σ ε}
    {kept : σ → Prop} (start : kept s) (each : ∀ b, kept (next b).reached) :
    kept (ofExcept s result next).reached := by
  cases result with
  | ok b => exact each b
  | error fault => exact start

theorem exists_ok_of_ofExcept {β : Type} {s : σ} {result : Except ε β} {next : β → Progress σ ε}
    (ok : (ofExcept s result next).fault? = none) : ∃ b, result = .ok b ∧ (next b).fault? = none := by
  cases result with
  | ok b => exact ⟨b, rfl, ok⟩
  | error fault => cases ok

/-- Goes on from where a run ended, unless it was stopped. -/
def andThen (run : Progress σ ε) (next : σ → Progress σ ε) : Progress σ ε :=
  match run.fault? with
  | none => next run.reached
  | some _ => run

theorem andThen_of_ok {run : Progress σ ε} (next : σ → Progress σ ε) (ok : run.fault? = none) :
    run.andThen next = next run.reached := by
  simp only [andThen, ok]

theorem andThen_of_stopped {run : Progress σ ε} (next : σ → Progress σ ε)
    (stopped : run.fault? ≠ none) : run.andThen next = run := by
  obtain ⟨fault, failed⟩ := Option.ne_none_iff_exists'.mp stopped
  simp only [andThen, failed]

theorem andThen_fault?_eq_none_iff (run : Progress σ ε) (next : σ → Progress σ ε) :
    (run.andThen next).fault? = none ↔
      run.fault? = none ∧ (next run.reached).fault? = none := by
  obtain ⟨s, fault?⟩ := run
  cases fault? <;> simp [andThen]

/-- Takes the steps in order and stops at the first that fails. -/
def walk (step : σ → α → Progress σ ε) : σ → List α → Progress σ ε
  | s, [] => done s
  | s, a :: rest => (step s a).andThen fun t => walk step t rest

@[simp] theorem walk_nil (step : σ → α → Progress σ ε) (s : σ) : walk step s [] = done s := rfl

@[simp] theorem walk_cons (step : σ → α → Progress σ ε) (s : σ) (a : α) (rest : List α) :
    walk step s (a :: rest) = (step s a).andThen fun t => walk step t rest := rfl

theorem andThen_assoc (run : Progress σ ε) (first second : σ → Progress σ ε) :
    (run.andThen first).andThen second = run.andThen fun s => (first s).andThen second := by
  obtain ⟨s, fault?⟩ := run
  cases fault? <;> rfl

/-- A run over two lists is the run over the first and then, if it was not stopped, over the second. -/
theorem walk_append (step : σ → α → Progress σ ε) (s : σ) (before after : List α) :
    walk step s (before ++ after) = (walk step s before).andThen fun t => walk step t after := by
  induction before generalizing s with
  | nil => rfl
  | cons a rest ih =>
    simp only [List.cons_append, walk_cons, andThen_assoc]
    congr 1
    funext t
    exact ih t

theorem andThen_keeps {run : Progress σ ε} {next : σ → Progress σ ε} {kept : σ → Prop}
    (first : kept run.reached) (later : ∀ s, kept s → kept (next s).reached) :
    kept (run.andThen next).reached := by
  obtain ⟨s, fault?⟩ := run
  cases fault? with
  | none => exact later s first
  | some fault => exact first

/-- What every step keeps, a run keeps, whether it is stopped or not. -/
theorem walk_keeps {step : σ → α → Progress σ ε} {kept : σ → Prop} {items : List α} {s : σ}
    (each : ∀ t, ∀ a ∈ items, kept t → kept (step t a).reached) (start : kept s) :
    kept (walk step s items).reached := by
  induction items generalizing s with
  | nil => exact start
  | cons a rest ih =>
    rw [walk_cons]
    refine andThen_keeps (each s a List.mem_cons_self start) fun t reached => ?_
    exact ih (fun t b member => each t b (List.mem_cons_of_mem _ member)) reached

/-- A run that was stopped has taken all items before some item and was stopped at that one. -/
theorem walk_stopped {step : σ → α → Progress σ ε} {s : σ} {items : List α}
    (stopped : (walk step s items).fault? ≠ none) :
    ∃ before item after, items = before ++ item :: after ∧ (walk step s before).fault? = none ∧
      walk step s items = step (walk step s before).reached item := by
  induction items generalizing s with
  | nil => exact absurd rfl stopped
  | cons a rest ih =>
    rw [walk_cons] at stopped
    by_cases ok : (step s a).fault? = none
    · rw [andThen_of_ok _ ok] at stopped
      obtain ⟨before, item, after, split, taken, same⟩ := ih stopped
      refine ⟨a :: before, item, after, by rw [split]; rfl, ?_, ?_⟩
      · rw [walk_cons, andThen_of_ok _ ok, taken]
      · rw [walk_cons, walk_cons, andThen_of_ok _ ok, andThen_of_ok _ ok, same]
    · exact ⟨[], a, rest, rfl, rfl, by rw [walk_cons, andThen_of_stopped _ ok]; rfl⟩

theorem walk_faults {step : σ → α → Progress σ ε} {allowed : ε → Prop} {items : List α} {s : σ}
    (each : ∀ t, ∀ a ∈ items, ∀ fault, (step t a).fault? = some fault → allowed fault) {fault : ε}
    (failed : (walk step s items).fault? = some fault) : allowed fault := by
  obtain ⟨before, item, after, split, -, same⟩ :=
    walk_stopped (Option.ne_none_iff_exists'.mpr ⟨fault, failed⟩)
  rw [same] at failed
  exact each _ item (by simp [split]) fault failed

/-- What goes on with a step fails with that step or with what comes after it. -/
theorem andThen_fault {run : Progress σ ε} {next : σ → Progress σ ε} {fault : ε}
    (failed : (run.andThen next).fault? = some fault) :
    run.fault? = some fault ∨ run.fault? = none ∧ (next run.reached).fault? = some fault := by
  obtain ⟨s, fault?⟩ := run
  cases fault? with
  | none => exact Or.inr ⟨rfl, failed⟩
  | some first => exact Or.inl failed

/-- Where the fault of a step is told by the item, as long as the state keeps to something that the steps
preserve, a run fails with the fault of the first item that has one. -/
theorem walk_findSome? {step : σ → α → Progress σ ε} (kept : σ → Prop) {faultOf : α → Option ε}
    (each : ∀ s a, kept s → (step s a).fault? = faultOf a)
    (keeps : ∀ s a, kept s → (step s a).fault? = none → kept (step s a).reached) {items : List α}
    {s : σ} (start : kept s) : (walk step s items).fault? = items.findSome? faultOf := by
  induction items generalizing s with
  | nil => rfl
  | cons a rest ih =>
    have here := each s a start
    rw [walk_cons, List.findSome?_cons, ← here]
    cases failed : (step s a).fault? with
    | none => rw [andThen_of_ok _ failed, ih (keeps s a start failed)]
    | some fault => rw [andThen_of_stopped _ (by simp [failed]), failed]

end Progress

end AccessGroups
