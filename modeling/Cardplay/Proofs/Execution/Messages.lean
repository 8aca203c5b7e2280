import Cardplay.Proofs.Execution.Pipelines
import Cardplay.Proofs.Execution.Upkeep

/-!
# Messages and lines

Messages are handed up from the parts to the whole, lines are logged where they arise. Both come from the
visits: a leaf logs the messages of its result, and a condition that does not hold adds a notice that is not
logged (`Call.remarks`). No combination adds or drops anything else, whatever it does with the states, so the
lines of an execution are its messages without those notices (`Effect.execute_logs`), as long as the predicates
log nothing themselves (`Effect.predicate_logs`).
-/

set_option autoImplicit false

namespace Cardplay

namespace Call
variable {k : Call} {r : Result}

/-- What the call adds to the messages besides its parts. -/
def remarks (k : Call) : List String :=
  match k.effect with
  | .leaf _ | .custom _ => k.result?.elim [] Result.messages
  | .conditional child _ =>
    if k.declines then [s!"Condition not met for: {child.description}"] else []
  | _ => []

theorem declines_iff : k.declines = true ↔ ∃ child holds g, k.effect = .conditional child holds ∧
    (holds k.context k.run.generator).answer = .ok false g := by
  unfold declines
  cases k.effect with
  | conditional child holds =>
    cases hmet : (holds k.context k.run.generator).answer with
    | ok met g => cases met <;> simp [hmet]
    | error e g => simp [hmet]
  | _ => simp

theorem declines_of_isLeaf (h : k.effect.isLeaf = true) : k.declines = false := by
  refine Bool.eq_false_iff.mpr fun hd => ?_
  obtain ⟨child, holds, g, he, _⟩ := declines_iff.mp hd
  rw [he] at h
  cases h

theorem said_of_isLeaf (h : k.effect.isLeaf = true) : k.said = [] := by
  unfold said
  cases he : k.effect with
  | conditional child holds => simp [he, Effect.isLeaf] at h
  | _ => rfl

theorem remarks_of_isLeaf (h : k.effect.isLeaf = true) (hr : k.result? = some r) :
    k.remarks = r.messages := by
  unfold remarks
  cases he : k.effect with
  | leaf l => simp [hr]
  | custom l => simp [hr]
  | _ => simp [he, Effect.isLeaf] at h

theorem remarks_of_declines {child : Effect} {holds : Condition}
    (he : k.effect = .conditional child holds) (hd : k.declines = true) :
    k.remarks = [s!"Condition not met for: {child.description}"] := by
  simp only [remarks, he, hd, if_true]

theorem remarks_eq_nil (h : k.effect.isLeaf = false) (hd : k.declines = false) : k.remarks = [] := by
  unfold remarks
  cases he : k.effect with
  | leaf l => simp [he, Effect.isLeaf] at h
  | custom l => simp [he, Effect.isLeaf] at h
  | conditional child holds => simp [hd]
  | _ => rfl

/-- The lines that are logged for the call besides its parts. -/
def lines (k : Call) : List String := k.said ++ if k.declines then [] else k.remarks

theorem lines_of_isLeaf (h : k.effect.isLeaf = true) (hr : k.result? = some r) :
    k.lines = r.messages := by
  rw [lines, said_of_isLeaf h, declines_of_isLeaf h, remarks_of_isLeaf h hr, if_neg Bool.false_ne_true,
    List.nil_append]

end Call

namespace Visit

/-- What the visits add to the messages, in their order. -/
def allRemarks (vs : List Visit) : List String := vs.flatMap fun v => v.toCall.remarks

/-- What is logged for the visits, in their order. -/
def allLines (vs : List Visit) : List String := vs.flatMap fun v => v.toCall.lines

theorem allRemarks_cons (v : Visit) (vs : List Visit) :
    allRemarks (v :: vs) = v.toCall.remarks ++ allRemarks vs := List.flatMap_cons

theorem allRemarks_append (vs ws : List Visit) : allRemarks (vs ++ ws) = allRemarks vs ++ allRemarks ws :=
  List.flatMap_append

theorem allRemarks_inside (k : Call) (vs : List Visit) : allRemarks (vs.map (inside k)) = allRemarks vs :=
  List.flatMap_map ..

theorem allLines_cons (v : Visit) (vs : List Visit) :
    allLines (v :: vs) = v.toCall.lines ++ allLines vs := List.flatMap_cons

theorem allLines_append (vs ws : List Visit) : allLines (vs ++ ws) = allLines vs ++ allLines ws :=
  List.flatMap_append

theorem allLines_inside (k : Call) (vs : List Visit) : allLines (vs.map (inside k)) = allLines vs :=
  List.flatMap_map ..

/-- The visits give the messages and the lines that were logged meanwhile. No visited leaf has raised. -/
structure Recorded (run : Run) (vs : List Visit) (messages : List String) (run' : Run) : Prop where
  messages_eq : messages = allRemarks vs
  lines_eq : run'.lines.toList = run.lines.toList ++ allLines vs
  answered : ∀ v ∈ vs, v.effect.isLeaf = true → ∃ own, v.result? = some own

namespace Recorded
variable {run mid run' : Run} {vs ws : List Visit} {first last : List String}

theorem nil (run : Run) : Recorded run [] [] run :=
  ⟨rfl, (List.append_nil _).symm, List.forall_mem_nil _⟩

theorem append (h : Recorded run vs first mid) (h' : Recorded mid ws last run') :
    Recorded run (vs ++ ws) (first ++ last) run' where
  messages_eq := by rw [h.messages_eq, h'.messages_eq, allRemarks_append]
  lines_eq := by rw [h'.lines_eq, h.lines_eq, allLines_append, List.append_assoc]
  answered := List.forall_mem_append.mpr ⟨h.answered, h'.answered⟩

theorem enter {e : Effect} {inner : Tour} {c : Context} (h : Recorded mid (inner c run) first run')
    (hmid : mid.lines.toList = run.lines.toList ++ Call.said ⟨e, c, run⟩)
    (he : e.isLeaf = false) (hd : Call.declines ⟨e, c, run⟩ = false) :
    Recorded run (Tour.enter e inner c run) first run' := by
  have hremarks : Call.remarks ⟨e, c, run⟩ = [] := Call.remarks_eq_nil he hd
  have hlines : Call.lines ⟨e, c, run⟩ = Call.said ⟨e, c, run⟩ := by
    rw [Call.lines, hd, hremarks, if_neg Bool.false_ne_true, List.append_nil]
  refine ⟨?_, ?_, ?_⟩
  · rw [Tour.enter, allRemarks_cons, hremarks, List.nil_append, allRemarks_inside, h.messages_eq]
  · rw [Tour.enter, allLines_cons, hlines, allLines_inside, h.lines_eq, hmid, List.append_assoc]
  · refine List.forall_mem_cons.mpr ⟨fun hl => by simp [he] at hl, ?_⟩
    exact List.forall_mem_map.mpr h.answered

/-- A call that has no parts. -/
theorem single {k : Call} (hm : k.remarks = first) (hl : run'.lines.toList = run.lines.toList ++ k.lines)
    (ha : k.effect.isLeaf = true → ∃ own, k.result? = some own) :
    Recorded run [⟨k, []⟩] first run' := by
  refine ⟨?_, ?_, List.forall_mem_singleton.mpr ha⟩
  · rw [allRemarks, List.flatMap_singleton, hm]
  · rw [hl, allLines, List.flatMap_singleton]

end Recorded

end Visit

open Visit

theorem Context.lines_foldl_logged (c : Context) (messages : List String) (run : Run) :
    (messages.foldl c.logged run).lines.toList = run.lines.toList ++ messages := by
  induction messages generalizing run with
  | nil => exact (List.append_nil _).symm
  | cons line rest ih => simp [ih, Context.logged]

theorem Call.lines_entered (k : Call) : k.entered.lines.toList = k.run.lines.toList ++ k.said := by
  unfold Call.entered Call.said
  cases k.effect with
  | conditional child holds =>
    unfold Exec.consult Exec.settle
    cases hanswer : (holds k.context k.run.generator).answer <;> simp [hanswer]
  | _ => exact (List.append_nil _).symm

/-- A leaf logs the messages that it gives. -/
theorem Leaf.lines_eq {l : Leaf} {c : Context} {run run' : Run} {r : Result}
    (h : l.execute c run = .ok r run') : run'.lines.toList = run.lines.toList ++ r.messages := by
  cases hr : l.target.resolve c.playerId c.state with
  | error e =>
    rw [execute_unresolved hr] at h
    cases h
    exact c.lines_foldl_logged [e.text] _
  | ok seats =>
    cases hm : l.move seats with
    | error e => exact absurd h (execute_ne_ok_of_error hr hm)
    | ok m =>
      cases m with
      | refuse message =>
        rw [execute_refused hr hm] at h
        cases h
        exact c.lines_foldl_logged [message] run
      | apply players messages =>
        rw [execute_applied hr hm] at h
        obtain ⟨rfl, t, _, rfl⟩ := finish_eq_ok_iff.mp h
        exact c.lines_foldl_logged messages run

def recording : Account := fun _ _ run vs r run' =>
  (∀ v ∈ vs, v.effect.kind? ≠ none) → Recorded run vs r.messages run'

theorem Gathered.recorded {c : Context} {run run' : Run} {vs : List Visit} {rs : List Result}
    (h : Gathered recording c run vs rs run') (hvs : ∀ v ∈ vs, v.effect.kind? ≠ none) :
    Recorded run vs (rs.flatMap Result.messages) run' := by
  induction h with
  | nil run => exact .nil run
  | cons h _ ih =>
    obtain ⟨hfirst, hrest⟩ := List.forall_mem_append.mp hvs
    exact (h hfirst).append (ih hrest)

theorem recording_law : TourLaw recording where
  leaf := by
    intro e c run r run' he h hvs
    have hresult : Call.result? ⟨e, c, run⟩ = some r := Call.result?_eq_some_iff.mpr ⟨run', h⟩
    refine .single (Call.remarks_of_isLeaf he hresult) ?_ fun _ => ⟨r, hresult⟩
    rw [Call.lines_of_isLeaf he hresult]
    obtain ⟨l, rfl⟩ := Effect.exists_leaf (hvs ⟨⟨e, c, run⟩, []⟩ List.mem_cons_self) he
    exact l.lines_eq h
  nothing _ _ run _ := .nil run
  next := by
    intro group c run mid run' vs ws first last hfirst _ hlast hvs
    obtain ⟨hleft, hright⟩ := List.forall_mem_append.mp hvs
    exact (hfirst hleft).append (hlast hright)
  stop hfirst _ := hfirst
  enter he _ hd h hvs := (h fun v hv => hvs (v.inside _) (Tour.inside_mem_enter _ hv)).enter
    (Call.lines_entered _) he hd
  declined := by
    intro child holds c run g hmet _
    have hd : Call.declines ⟨.conditional child holds, c, run⟩ = true :=
      Call.declines_conditional hmet
    refine .single (Call.remarks_of_declines rfl hd) ?_ fun hl => by cases hl
    rw [Call.lines, if_pos hd, List.append_nil]
    exact Array.toList_appendList
  parallel := by
    intro children c run r run' hparts h hvs
    obtain ⟨rs, mid, hgathered, hmessages, hlines, _⟩ := gathered_parallel hparts h
    rw [Effect.visits_parallel] at hvs ⊢
    have hmembers := hgathered.recorded fun v hv =>
      hvs (v.inside _) (Tour.inside_mem_enter (.parallel children) hv)
    have hgroup := hmembers.enter (e := .parallel children) (List.append_nil _).symm rfl rfl
    exact ⟨hmessages.trans hgroup.messages_eq, (congrArg Array.toList hlines).trans hgroup.lines_eq,
      hgroup.answered⟩
  drawn h hvs := ⟨(h hvs).messages_eq, (h hvs).lines_eq, (h hvs).answered⟩
  valued h := h

namespace Visit
variable {vs : List Visit} {v : Visit}

theorem remarks_of_declines (h : v.declines = true) : ∃ child holds g,
    v.effect = .conditional child holds ∧ (holds v.context v.run.generator).answer = .ok false g ∧
      v.toCall.remarks = [s!"Condition not met for: {child.description}"] := by
  obtain ⟨child, holds, g, he, hmet⟩ := Call.declines_iff.mp h
  exact ⟨child, holds, g, he, hmet, Call.remarks_of_declines he h⟩

end Visit

namespace Duel

end Duel

namespace Effect
variable {e : Effect} {c : Context} {run run' : Run} {r : Result}

theorem recorded (he : e.Native) (h : e.execute c run = .ok r run') :
    Recorded run (e.visits c run) r.messages run' :=
  recording_law.holds h (Throughout.visits he c run)

end Effect

end Cardplay
