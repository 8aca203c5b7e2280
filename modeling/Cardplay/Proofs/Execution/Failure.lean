import Cardplay.Proofs.Execution.Visit
import Cardplay.Proofs.Execution.Account
import Cardplay.Proofs.Execution.Conservation

/-!
# Where a failure comes from

A result is a success exactly when every leaf that was visited succeeded, and a failure has the reason of the
first leaf that failed; a group around that leaf names a reason where the leaf has none
(`Effect.execute_explained`). One invariant carries this through all nestings: `Explained`, which relates the
visits of an execution to its result.
-/

set_option autoImplicit false

namespace Cardplay

namespace Result

/-- The reason that is found outside, where a group around names one in place of a missing one. -/
def passed (r : Result) (grouped : Bool) : Option Value :=
  if grouped then some r.reasonOrChild else r.reason?

/-- No reason, or an empty one. -/
def Reasonless (r : Result) : Prop := ∀ reason, r.reason? = some reason → reason.truthy = false

theorem reason?_fail (s : GameState) (messages : List String) (reason : Value) :
    (fail s messages (some reason)).reason? = some reason := rfl

theorem reasonOrChild_of_truthy {r : Result} {reason : Value} (h : r.reason? = some reason)
    (ht : reason.truthy = true) : r.reasonOrChild = reason := by
  simp [reasonOrChild, h, ht]

theorem reasonOrChild_of_reasonless {r : Result} (h : r.Reasonless) :
    r.reasonOrChild = .str FailureReason.childFailed.name := by
  unfold reasonOrChild
  cases hr : r.reason? with
  | none => rfl
  | some reason => simp [h reason hr]

theorem truthy_reasonOrChild (r : Result) : r.reasonOrChild.truthy = true := by
  by_cases h : ∃ reason, r.reason? = some reason ∧ reason.truthy = true
  · obtain ⟨reason, hr, ht⟩ := h
    rw [reasonOrChild_of_truthy hr ht]
    exact ht
  · have hless : r.Reasonless := by
      intro reason hr
      exact Bool.eq_false_iff.mpr fun ht => h ⟨reason, hr, ht⟩
    rw [reasonOrChild_of_reasonless hless]
    rfl

theorem passed_of_truthy {r : Result} {reason : Value} (h : r.reason? = some reason)
    (ht : reason.truthy = true) (grouped : Bool) : r.passed grouped = some reason := by
  cases grouped with
  | true => exact congrArg some (reasonOrChild_of_truthy h ht)
  | false => exact h

theorem passed_eq_childFailed_iff {r : Result} (h : r.Reasonless) {grouped : Bool} :
    r.passed grouped = some (.str FailureReason.childFailed.name) ↔ grouped = true := by
  cases grouped with
  | true => exact iff_of_true (congrArg some (reasonOrChild_of_reasonless h)) rfl
  | false =>
    refine iff_of_false ?_ (by decide)
    intro hr
    cases h _ hr

/-- What is passed on once is passed on unchanged by every further group. -/
theorem reasonOrChild_of_passed {r own : Result} {grouped : Bool}
    (h : r.reason? = own.passed grouped) : r.reasonOrChild = own.reasonOrChild := by
  cases grouped with
  | true => exact reasonOrChild_of_truthy h own.truthy_reasonOrChild
  | false =>
    have heq : r.reason? = own.reason? := h
    unfold reasonOrChild
    rw [heq]

end Result

namespace Visit

def failedLeaf (v : Visit) : Bool := v.effect.isLeaf && !v.succeeded

def firstFailed? (vs : List Visit) : Option Visit := vs.find? failedLeaf

theorem firstFailed?_eq_none_iff {vs : List Visit} :
    firstFailed? vs = none ↔ ∀ v ∈ vs, v.effect.isLeaf = true → v.succeeded = true := by
  simp [firstFailed?, failedLeaf]

theorem success_of_firstFailed? {vs : List Visit} {v : Visit} {own : Result}
    (hv : firstFailed? vs = some v) (hown : v.result? = some own) : own.success = false := by
  have hf : v.failedLeaf = true := List.find?_some hv
  rw [failedLeaf, Call.succeeded_eq hown, Bool.and_eq_true] at hf
  simpa using hf.2

theorem grouped_eq_true_iff {v : Visit} :
    v.grouped = true ↔ ∃ k ∈ v.within, k.effect.isGroup = true := List.any_eq_true

theorem firstFailed?_append (vs ws : List Visit) :
    firstFailed? (vs ++ ws) = (firstFailed? vs).or (firstFailed? ws) := List.find?_append

theorem firstFailed?_inside (k : Call) (vs : List Visit) :
    firstFailed? (vs.map (inside k)) = (firstFailed? vs).map (inside k) := List.find?_map

theorem firstFailed?_enter {e : Effect} (h : e.isLeaf = false) (inner : Tour) (c : Context)
    (run : Run) : firstFailed? (Tour.enter e inner c run) =
      (firstFailed? (inner c run)).map (inside ⟨e, c, run⟩) := by
  rw [Tour.enter, ← firstFailed?_inside]
  exact List.find?_cons_of_neg (by simp [failedLeaf, h])

end Visit

open Visit

/-- The visits tell whether the result is a success and, by the first leaf that failed, the reason it has;
`group` says that the visits are made for a group. -/
structure Explained (group : Bool) (vs : List Visit) (r : Result) : Prop where
  success_iff : r.success = true ↔ firstFailed? vs = none
  reason : ∀ v, firstFailed? vs = some v → ∃ own, v.result? = some own ∧
    r.reason? = own.passed (group || v.grouped)

namespace Explained
variable {group : Bool} {vs ws : List Visit} {r first last : Result}

theorem of_clean (hvs : firstFailed? vs = none) (hr : r.success = true) : Explained group vs r := by
  refine ⟨⟨fun _ => hvs, fun _ => hr⟩, ?_⟩
  intro v hv
  rw [hvs] at hv
  cases hv

theorem success (h : Explained group vs r) (hv : firstFailed? vs = none) : r.success = true :=
  h.success_iff.mpr hv

theorem clean (h : Explained group vs r) (hr : r.success = true) : firstFailed? vs = none :=
  h.success_iff.mp hr

theorem leaf {e : Effect} {c : Context} {run run' : Run} (he : e.isLeaf = true)
    (h : e.execute c run = .ok r run') :
    Explained false (Tour.enter e (fun _ _ => []) c run) r := by
  have hresult : Call.result? ⟨e, c, run⟩ = some r := Call.result?_eq_some_iff.mpr ⟨run', h⟩
  have hsucceeded : Call.succeeded ⟨e, c, run⟩ = r.success := Call.succeeded_eq hresult
  cases hr : r.success with
  | true =>
    have hnone : firstFailed? (Tour.enter e (fun _ _ => []) c run) = none :=
      firstFailed?_eq_none_iff.mpr (by simp [Tour.enter, hsucceeded, hr])
    exact of_clean hnone hr
  | false =>
    have hsome : firstFailed? (Tour.enter e (fun _ _ => []) c run) = some ⟨⟨e, c, run⟩, []⟩ :=
      List.find?_cons_of_pos (by simp [failedLeaf, he, hsucceeded, hr])
    refine ⟨by simp [hr, hsome], ?_⟩
    intro v hv
    rw [hsome] at hv
    cases hv
    exact ⟨r, hresult, rfl⟩

theorem enter {e : Effect} {inner : Tour} {c : Context} {run : Run}
    (h : Explained e.isGroup (inner c run) r) (he : e.isLeaf = false) :
    Explained false (Tour.enter e inner c run) r := by
  refine ⟨?_, ?_⟩
  · rw [firstFailed?_enter he, Option.map_eq_none_iff]
    exact h.success_iff
  · intro v hv
    rw [firstFailed?_enter he] at hv
    obtain ⟨w, hw, rfl⟩ := Option.map_eq_some_iff.mp hv
    obtain ⟨own, hown, hreason⟩ := h.reason w hw
    refine ⟨own, hown, ?_⟩
    rw [hreason, grouped_inside, Bool.false_or]

theorem append (hvs : firstFailed? vs = none) (h : Explained group ws last)
    (messages : List String) : Explained group (vs ++ ws) (last.after messages) := by
  have heq : firstFailed? (vs ++ ws) = firstFailed? ws := by
    rw [firstFailed?_append, hvs, Option.none_or]
  refine ⟨?_, ?_⟩
  · rw [heq]
    exact h.success_iff
  · rw [heq]
    exact h.reason

/-- Whatever is visited after a failure leaves the first failed leaf what it is. -/
theorem before (h : Explained group vs first) (hf : first.success = false) (ws : List Visit) :
    Explained group (vs ++ ws) first := by
  have heq : firstFailed? (vs ++ ws) = firstFailed? vs := by
    rw [firstFailed?_append]
    cases hv : firstFailed? vs with
    | none => simp [h.success hv] at hf
    | some v => rfl
  exact ⟨heq ▸ h.success_iff, heq ▸ h.reason⟩

theorem stop (h : Explained group vs first) (hf : first.success = false) (s : GameState)
    (messages : List String) :
    Explained true vs (.fail s messages (some first.reasonOrChild)) := by
  refine ⟨?_, ?_⟩
  · rw [← h.success_iff, hf]
    exact ⟨fun hs => hs, fun hs => hs⟩
  · intro v hv
    obtain ⟨own, hown, hreason⟩ := h.reason v hv
    refine ⟨own, hown, ?_⟩
    rw [Result.reason?_fail, Result.reasonOrChild_of_passed hreason]
    rfl

end Explained

def explaining : Account := fun group _ _ vs r _ => Explained group vs r

namespace Tour
variable {ps : List Part} {c : Context} {run run' : Run}

/-- A group that goes on after failures is explained by the first result among them. -/
theorem abreast_explained (h : ∀ p ∈ ps, p.Keeps explaining) {rs : List Result}
    (hr : Behaviour.gather (ps.map Part.behaviour) c run = .ok rs run') :
    (rs.filter (fun q => !q.success) = [] → firstFailed? (abreast ps c run) = none) ∧
      ∀ first others, rs.filter (fun q => !q.success) = first :: others →
        Explained false (abreast ps c run) first := by
  induction ps generalizing run rs with
  | nil =>
    obtain ⟨rfl, _⟩ := Behaviour.gather_nil_eq_ok_iff.mp hr
    exact ⟨fun _ => rfl, fun _ _ hf => by cases hf⟩
  | cons p rest ih =>
    obtain ⟨q, mid, qs, hp, hqs, rfl⟩ := Behaviour.gather_cons_eq_ok_iff.mp hr
    have hq : Explained false (p.tour c run) q := h p List.mem_cons_self hp
    obtain ⟨hnone, hsome⟩ := ih (fun x hx => h x (List.mem_cons_of_mem p hx)) hqs
    have htour : abreast (p :: rest) c run = p.tour c run ++ abreast rest c mid := by
      simp [abreast, goOn, hp]
    rw [htour]
    -- A success adds no failed leaf to those after it; a failure comes before all of them.
    cases hs : q.success with
    | true =>
      have hclean := hq.clean hs
      simp only [List.filter_cons, hs, Bool.not_true, Bool.false_eq_true, if_false]
      refine ⟨?_, ?_⟩
      · intro hall
        rw [firstFailed?_append, hclean, hnone hall, Option.none_or]
      · intro first others hfirst
        simpa [Result.after] using (hsome first others hfirst).append hclean []
    | false =>
      simp only [List.filter_cons, hs, Bool.not_false, if_true]
      refine ⟨fun hall => by simp at hall, ?_⟩
      intro first others hfirst
      obtain ⟨rfl, _⟩ := List.cons.inj hfirst
      exact hq.before hs _

end Tour

theorem explaining_law : TourLaw explaining where
  leaf he h := Explained.leaf he h
  nothing _ _ _ := Explained.of_clean rfl rfl
  next hfirst hs hlast := hlast.append (hfirst.clean hs) _
  stop hfirst hf := hfirst.stop hf _ _
  enter he _ _ h := Explained.enter h he
  declined _ := Explained.of_clean rfl rfl
  parallel := by
    intro children c run r run' hparts h
    rw [Effect.execute_parallel, ← Effect.map_behaviour_part] at h
    rw [Effect.visits_parallel]
    obtain ⟨rs, mid, hrs, hcases⟩ := Behaviour.parallel_eq_ok_iff.mp h
    obtain ⟨hnone, hsome⟩ := Tour.abreast_explained hparts hrs
    refine Explained.enter ?_ rfl
    rcases hcases with ⟨hall, _, s, _, rfl⟩ | ⟨first, others, hfirst, rfl, _⟩
    · exact Explained.of_clean (hnone hall) rfl
    · have hmem : first ∈ rs.filter fun q => !q.success := hfirst ▸ List.mem_cons_self
      have hf : first.success = false := by simpa using (List.mem_filter.mp hmem).2
      exact (hsome first others hfirst).stop hf c.state _
  drawn h := h
  valued h := h

theorem Effect.explained {e : Effect} {c : Context} {run run' : Run} {r : Result}
    (h : e.execute c run = .ok r run') : Explained false (e.visits c run) r :=
  explaining_law.holds h

namespace Duel

def stumble : CustomLeaf where
  label := "stumble"
  type := ⟨"duel", "Stumble"⟩
  description := "Stumble"
  behaviour := fun c => return .fail c.state ["stumbled"] none

/-- The stumble is not the first part of the group, and the part after it is visited as well. -/
def trip : Effect := .conditional (.parallel
  [.leaf (.draw 0 toSelf), .contextual (.custom stumble) "foot" (.str "left"),
    .leaf (.draw 0 toSelf)]) fun c g => { answer := .ok (decide (0 < c.state.turn)) g }

end Duel

namespace Effect
variable {e : Effect} {c : Context} {run run' : Run} {r : Result}

/-- No combination swallows a failure or makes one up. A failure has the reason of the first leaf that
failed. Where that leaf has no reason, a failed child is the reason exactly if a group is around it. -/
theorem execute_explained (h : e.execute c run = .ok r run') :
    (r.success = true ↔ ∀ v ∈ e.visits c run, v.effect.isLeaf = true → v.succeeded = true) ∧
      (r.success = false → ∃ v own, firstFailed? (e.visits c run) = some v ∧ v.result? = some own ∧
        (∀ reason, own.reason? = some reason → reason.truthy = true → r.reason? = some reason) ∧
        (own.Reasonless →
          (r.reason? = some (.str FailureReason.childFailed.name) ↔
            ∃ k ∈ v.within, k.effect.isGroup = true) ∧
          ((∀ k ∈ v.within, k.effect.isGroup = false) → r.reason? = own.reason?)) ∧
        ∀ l, v.effect = .leaf l → own.reason? = some (.str FailureReason.targetNotFound.name) ∨
          own.reason? = some (.str FailureReason.insufficientResource.name)) := by
  have hexplained := explained h
  refine ⟨hexplained.success_iff.trans firstFailed?_eq_none_iff, ?_⟩
  intro hf
  cases hv : firstFailed? (e.visits c run) with
  | none => simp [hexplained.success hv] at hf
  | some v =>
    obtain ⟨own, hown, hreason⟩ := hexplained.reason v hv
    rw [Bool.false_or] at hreason
    refine ⟨v, own, rfl, hown, ?_, ?_, ?_⟩
    · intro reason hr ht
      rw [hreason, Result.passed_of_truthy hr ht]
    · intro hless
      rw [hreason, Result.passed_eq_childFailed_iff hless, grouped_eq_true_iff]
      refine ⟨Iff.rfl, ?_⟩
      intro hall
      have hg : v.grouped = false := List.any_eq_false.mpr (by simpa using hall)
      rw [hg]
      rfl
    · intro l hl
      obtain ⟨mid, hout⟩ := Call.result?_eq_some_iff.mp hown
      rw [Call.outcome, hl] at hout
      exact (Leaf.execute_failed hout (success_of_firstFailed? hv hown)).2

theorem execute_explained_trip : ∃ r run',
    Duel.trip.execute (Duel.context "ann") default = .ok r run' ∧ r.success = false ∧
      ∃ v own, firstFailed? (Duel.trip.visits (Duel.context "ann") default) = some v ∧
        v.effect = .custom Duel.stumble ∧ v.result? = some own ∧ own.Reasonless ∧
        r.reason? = some (.str FailureReason.childFailed.name) := by
  obtain ⟨r, run', h, hf⟩ : ∃ r run',
      Duel.trip.execute (Duel.context "ann") default = .ok r run' ∧ r.success = false :=
    ⟨_, _, rfl, rfl⟩
  obtain ⟨v, own, hv, hown, _, hless, _⟩ := (execute_explained h).2 hf
  obtain ⟨w, hw, hstumble, hresult, hgroup⟩ : ∃ w,
      firstFailed? (Duel.trip.visits (Duel.context "ann") default) = some w ∧
        w.effect = .custom Duel.stumble ∧
        w.result? = some (.fail Duel.table ["stumbled"] none) ∧ ∃ k ∈ w.within, k.effect.isGroup :=
    ⟨_, rfl, rfl, rfl, by decide⟩
  rw [hw] at hv
  cases hv
  rw [hresult] at hown
  cases hown
  have hempty : (Result.fail Duel.table ["stumbled"] none).Reasonless := by
    intro reason hr
    cases hr
  exact ⟨r, run', h, hf, v, _, hw, hstumble, hresult, hempty, (hless hempty).1.mpr hgroup⟩

end Effect

end Cardplay
