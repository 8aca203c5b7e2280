import Cardplay.Effect.Tree

/-!
# When an execution answers

An execution answers or raises. For each way of combining behaviours one equivalence says when the
combination answers, what it answers and which run it leaves, in terms of its parts. Everything that is
proved about whole effects goes through these equivalences; no later proof opens a combination again.
-/

set_option autoImplicit false

namespace Cardplay

/-- The run after a predicate was asked that has answered. -/
def Run.heard (run : Run) (verdict : Verdict) (generator : Generator) : Run where
  generator
  lines := run.lines ++ verdict.lines
  journal := run.journal ++ verdict.entries

namespace Exec
variable {α β : Type} {run run' : Run}

theorem bind_eq_ok_iff {x : Exec α} {f : α → Exec β} {b : β} :
    (x >>= f) run = .ok b run' ↔ ∃ a mid, x run = .ok a mid ∧ f a mid = .ok b run' := by
  change EStateM.bind x f run = _ ↔ _
  unfold EStateM.bind
  constructor
  · intro h
    cases hx : x run with
    | ok a mid => exact ⟨a, mid, rfl, by simpa only [hx] using h⟩
    | error e mid => simp [hx] at h
  · rintro ⟨a, mid, hx, h⟩
    simpa only [hx] using h

theorem pure_eq_ok_iff {a b : α} : (pure a : Exec α) run = .ok b run' ↔ b = a ∧ run' = run := by
  change EStateM.Result.ok a run = _ ↔ _
  simp only [EStateM.Result.ok.injEq, eq_comm]

theorem ite_eq_ok_iff {p : Prop} [Decidable p] {x y : Exec α} {a : α} :
    (if p then x else y) run = .ok a run' ↔
      (p ∧ x run = .ok a run') ∨ (¬ p ∧ y run = .ok a run') := by
  by_cases h : p <;> simp [h]

theorem throw_ne_ok {e : Error} {a : α} : (throw e : Exec α) run ≠ .ok a run' := by
  intro h
  cases h

theorem orRaise_eq_ok_iff {x : Except StateError α} {a : α} :
    orRaise x run = .ok a run' ↔ x = .ok a ∧ run' = run := by
  cases x with
  | ok b => simp [orRaise, pure_eq_ok_iff, eq_comm]
  | error e => simp [orRaise, throw_ne_ok]

theorem settle_eq_ok_iff {answer : EStateM.Result Error Generator α} {a : α} :
    settle answer run = .ok a run' ↔ ∃ g, answer = .ok a g ∧ run' = { run with generator := g } := by
  unfold settle
  cases answer with
  | ok b g => grind
  | error e g => simp

theorem draw_eq_ok_iff {d : Draw α} {a : α} :
    draw d run = .ok a run' ↔
      ∃ g, d run.generator = .ok a g ∧ run' = { run with generator := g } := settle_eq_ok_iff

theorem consult_eq_ok_iff {holds : Generator → Verdict} {met : Bool} :
    consult holds run = .ok met run' ↔ ∃ g, (holds run.generator).answer = .ok met g ∧
      run' = run.heard (holds run.generator) g := settle_eq_ok_iff

theorem note_eq_ok_iff {entry : Entry} {u : Unit} :
    note entry run = .ok u run' ↔ run' = { run with journal := run.journal.push entry } := by
  change EStateM.Result.ok () _ = _ ↔ _
  simp only [EStateM.Result.ok.injEq, true_and, eq_comm]

end Exec

namespace Context
variable {c : Context} {run run' : Run} {u : Unit}

/-- The run after one line was logged. -/
def logged (c : Context) (run : Run) (line : String) : Run where
  generator := run.generator
  lines := run.lines.push line
  journal := if c.journals then run.journal.push ⟨.info, line, [("player_id", .str c.playerId)]⟩
    else run.journal

theorem log_eq_ok_iff {line : String} : c.log line run = .ok u run' ↔ run' = c.logged run line := by
  have hlog : c.log line run = .ok () (c.logged run line) := by
    unfold log logged
    by_cases hj : c.journals <;> simp only [hj] <;> rfl
  rw [hlog]
  simp only [EStateM.Result.ok.injEq, true_and, eq_comm]

theorem logAll_eq_ok_iff {lines : List String} :
    c.logAll lines run = .ok u run' ↔ run' = lines.foldl c.logged run := by
  induction lines generalizing run with
  | nil => simp only [logAll, Exec.pure_eq_ok_iff, true_and, List.foldl_nil]
  | cons line rest ih =>
    simp only [logAll, Exec.bind_eq_ok_iff, log_eq_ok_iff, ih, List.foldl_cons]
    simp

end Context

namespace Behaviour
variable {b : Behaviour} {bs : List Behaviour} {c : Context} {r : Result} {run run' : Run}

theorem pipeline_nil_eq_ok_iff :
    pipeline [] c run = .ok r run' ↔ r = .ok c.state [] ∧ run' = run := by
  simp only [pipeline, Exec.pure_eq_ok_iff]

theorem pipeline_cons_eq_ok_iff :
    pipeline (b :: bs) c run = .ok r run' ↔ ∃ first mid, b c run = .ok first mid ∧
      ((first.success = true ∧ ∃ last, pipeline bs (c.withState first.state) mid = .ok last run' ∧
          r = last.after first.messages) ∨
        (first.success = false ∧ r = stopAt first ∧ run' = mid)) := by
  simp only [pipeline, Exec.bind_eq_ok_iff, Exec.ite_eq_ok_iff, Exec.pure_eq_ok_iff,
    Bool.not_eq_true]
  grind

theorem gather_nil_eq_ok_iff {rs : List Result} :
    gather [] c run = .ok rs run' ↔ rs = [] ∧ run' = run := by
  simp only [gather, Exec.pure_eq_ok_iff]

theorem gather_cons_eq_ok_iff {rs : List Result} :
    gather (b :: bs) c run = .ok rs run' ↔ ∃ first mid others,
      b c run = .ok first mid ∧ gather bs c mid = .ok others run' ∧ rs = first :: others := by
  simp only [gather, Exec.bind_eq_ok_iff, Exec.pure_eq_ok_iff]
  grind

theorem gather_singleton (h : b c run = .ok r run') : gather [b] c run = .ok [r] run' :=
  gather_cons_eq_ok_iff.mpr ⟨r, run', [], h, gather_nil_eq_ok_iff.mpr ⟨rfl, rfl⟩, rfl⟩

theorem gather_append {xs ys : List Behaviour} {earlier later : List Result} {mid : Run}
    (hx : gather xs c run = .ok earlier mid) (hy : gather ys c mid = .ok later run') :
    gather (xs ++ ys) c run = .ok (earlier ++ later) run' := by
  induction xs generalizing run earlier with
  | nil =>
    obtain ⟨rfl, rfl⟩ := gather_nil_eq_ok_iff.mp hx
    exact hy
  | cons b xs ih =>
    obtain ⟨first, between, others, hb, hothers, rfl⟩ := gather_cons_eq_ok_iff.mp hx
    exact gather_cons_eq_ok_iff.mpr ⟨first, between, _, hb, ih hothers, rfl⟩

theorem gather_answers {P : Result → Prop}
    (h : ∀ b ∈ bs, ∀ run, ∃ r run', b c run = .ok r run' ∧ P r) (run : Run) :
    ∃ rs run', gather bs c run = .ok rs run' ∧ ∀ r ∈ rs, P r := by
  induction bs generalizing run with
  | nil => exact ⟨[], run, gather_nil_eq_ok_iff.mpr ⟨rfl, rfl⟩, List.forall_mem_nil P⟩
  | cons b rest ih =>
    obtain ⟨hb, hrest⟩ := List.forall_mem_cons.mp h
    obtain ⟨r, mid, hr, hP⟩ := hb run
    obtain ⟨rs, run', hrs, hPs⟩ := ih hrest mid
    exact ⟨r :: rs, run', gather_cons_eq_ok_iff.mpr ⟨r, mid, rs, hr, hrs, rfl⟩,
      List.forall_mem_cons.mpr ⟨hP, hPs⟩⟩

/-- What the journal keeps of a failed group. -/
def groupFailed (failed total : Nat) : Entry :=
  ⟨.debug, "Parallel group failed", [("failed", .int failed), ("total", .int total)]⟩

theorem parallel_eq_ok_iff :
    parallel bs c run = .ok r run' ↔ ∃ rs mid, gather bs c run = .ok rs mid ∧
      ((rs.filter (fun q => !q.success) = [] ∧ run' = mid ∧
          ∃ s, c.state.merge (rs.map Result.state) = .ok s ∧
            r = .ok s (rs.flatMap Result.messages)) ∨
        (∃ first others, rs.filter (fun q => !q.success) = first :: others ∧
          r = .fail c.state (rs.flatMap Result.messages) (some first.reasonOrChild) ∧
          run' = { mid with
            journal := mid.journal.push (groupFailed (others.length + 1) rs.length) })) := by
  simp only [parallel, Exec.bind_eq_ok_iff]
  refine exists_congr fun rs => exists_congr fun mid => and_congr_right fun _ => ?_
  cases hf : rs.filter fun q => !q.success with
  | nil =>
    simp only [Exec.bind_eq_ok_iff, Exec.orRaise_eq_ok_iff, Exec.pure_eq_ok_iff]
    grind
  | cons first others =>
    simp only [Exec.bind_eq_ok_iff, Exec.note_eq_ok_iff, Exec.pure_eq_ok_iff]
    grind [groupFailed]

theorem chained_eq_ok_iff {second : Result → Behaviour} :
    chained b second c run = .ok r run' ↔ ∃ first mid, b c run = .ok first mid ∧
      ((first.success = true ∧ ∃ last, second first (c.withState first.state) mid = .ok last run' ∧
          r = last.after first.messages) ∨
        (first.success = false ∧ r = first ∧ run' = mid)) := by
  simp only [chained, Exec.bind_eq_ok_iff, Exec.ite_eq_ok_iff, Exec.pure_eq_ok_iff,
    Bool.not_eq_true]
  grind

theorem conditional_eq_ok_iff {holds : Condition} {otherwise : String} :
    conditional b holds otherwise c run = .ok r run' ↔ ∃ met g,
      (holds c run.generator).answer = .ok met g ∧
        ((met = true ∧ b c (run.heard (holds c run.generator) g) = .ok r run') ∨
          (met = false ∧ r = .ok c.state [otherwise] ∧
            run' = run.heard (holds c run.generator) g)) := by
  simp only [conditional, Exec.bind_eq_ok_iff, Exec.ite_eq_ok_iff, Exec.pure_eq_ok_iff,
    Exec.consult_eq_ok_iff, Bool.not_eq_true]
  grind

theorem repeated_eq_ok_iff {times : Int} :
    repeated b times c run = .ok r run' ↔
      times ≤ maxTimes ∧ pipeline (List.replicate times.toNat b) c run = .ok r run' := by
  simp only [repeated, Exec.ite_eq_ok_iff, iterate_eq_pipeline, Exec.throw_ne_ok, and_false,
    false_or, Int.not_lt]

end Behaviour

theorem Effect.executeChoice_eq_ok_iff {choice : EStateM.Result Error Generator Effect} {c : Context}
    {r : Result} {run run' : Run} :
    executeChoice choice c run = .ok r run' ↔
      ∃ e g, choice = .ok e g ∧ e.execute c { run with generator := g } = .ok r run' := by
  cases choice with
  | ok e g =>
    constructor
    · intro h
      exact ⟨e, g, rfl, h⟩
    · rintro ⟨e', g', he, h⟩
      cases he
      exact h
  | error e g => simp [executeChoice]

end Cardplay
