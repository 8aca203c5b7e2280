import Cardplay.Proofs.Execution.Indifference
import Cardplay.Proofs.Execution.Pipelines
import Cardplay.Proofs.Execution.Rollback
import Cardplay.Proofs.Execution.Siblings
import Cardplay.Proofs.State.MergeLaws

/-!
# Parallel groups

A parallel group calls its members one after another in one context and joins what they answer
(`Result.join`). All that is known of a group beyond the calls is therefore known of lists of results: a
joined list may stand in a list in place of its members (`Result.join_flatten`), and only messages and merged
states depend on the order. So groups in groups flatten (`Effect.parallel_flatten`), the order of independent
members does not matter (`Effect.parallel_perm`), and a group of one member keeps all of a success and
nothing of a failure (`Effect.parallel_singleton`).
-/

set_option autoImplicit false

namespace Cardplay

namespace Result
variable {base s : GameState} {r q first : Result} {rs as bs cs : List Result}

def firstFailed? (rs : List Result) : Option Result := rs.find? fun r => !r.success

theorem firstFailed?_eq_none_iff : firstFailed? rs = none ↔ ∀ r ∈ rs, r.success = true := by
  simp [firstFailed?]

theorem firstFailed?_append :
    firstFailed? (as ++ bs) = (firstFailed? as).or (firstFailed? bs) := List.find?_append

/-- Only a failure that comes before the list goes first. -/
theorem firstFailed?_between (h : firstFailed? bs = some first) :
    firstFailed? (as ++ bs ++ cs) = some ((firstFailed? as).getD first) := by
  rw [firstFailed?_append, firstFailed?_append, h]
  cases firstFailed? as with
  | none => rfl
  | some earlier => rfl

theorem head?_failed : (rs.filter fun r => !r.success).head? = firstFailed? rs := List.head?_filter

/-- What a parallel group makes of the results of its members. -/
def join (base : GameState) (rs : List Result) : Except StateError Result :=
  match firstFailed? rs with
  | none => (base.merge (rs.map state)).map fun s => .ok s (rs.flatMap messages)
  | some first => .ok (.fail base (rs.flatMap messages) (some first.reasonOrChild))

theorem join_of_failed (h : firstFailed? rs = some first) :
    join base rs = .ok (.fail base (rs.flatMap messages) (some first.reasonOrChild)) := by
  simp only [join, h]

theorem join_of_merged (h : firstFailed? rs = none) (hs : base.merge (rs.map state) = .ok s) :
    join base rs = .ok (.ok s (rs.flatMap messages)) := by
  simp only [join, h, hs, Except.map]

theorem join_eq_ok_iff : join base rs = .ok r ↔
    (firstFailed? rs = none ∧ ∃ s, base.merge (rs.map state) = .ok s ∧
        r = .ok s (rs.flatMap messages)) ∨
      ∃ first, firstFailed? rs = some first ∧
        r = .fail base (rs.flatMap messages) (some first.reasonOrChild) := by
  cases hf : firstFailed? rs with
  | some first => simp [join_of_failed hf, eq_comm]
  | none =>
    cases hm : base.merge (rs.map state) with
    | error e => simp [join, hf, hm, Except.map]
    | ok s => simp [join_of_merged hf hm, eq_comm]

theorem messages_of_join (h : join base rs = .ok r) : r.messages = rs.flatMap messages := by
  rcases join_eq_ok_iff.mp h with ⟨_, s, _, rfl⟩ | ⟨first, _, rfl⟩
  · rfl
  · rfl

theorem reasonOrChild_fail {reason : Value} (ht : reason.truthy = true) (messages : List String) :
    (fail base messages (some reason)).reasonOrChild = reason :=
  reasonOrChild_of_truthy (reason?_fail base messages reason) ht

/-- A joined list stands for its members in every other list. -/
theorem join_flatten (hl : base.loose = []) (hn : base.Numbered)
    (hs : ∀ r ∈ as ++ bs ++ cs, r.state.loose = []) (h : join base bs = .ok q) :
    join base (as ++ [q] ++ cs) = join base (as ++ bs ++ cs) := by
  have hmessages : (as ++ [q] ++ cs).flatMap messages = (as ++ bs ++ cs).flatMap messages := by
    simp [messages_of_join h]
  rcases join_eq_ok_iff.mp h with ⟨hf, s, hm, rfl⟩ | ⟨first, hf, rfl⟩
  · have hfirst : firstFailed? (as ++ [ok s (bs.flatMap messages)] ++ cs) =
        firstFailed? (as ++ bs ++ cs) := by
      rw [firstFailed?_append, firstFailed?_append, firstFailed?_append, firstFailed?_append, hf]
      rfl
    have hmerge : base.merge ((as ++ [ok s (bs.flatMap messages)] ++ cs).map state) =
        base.merge ((as ++ bs ++ cs).map state) := by
      have hplain : ∀ s ∈ (as ++ bs ++ cs).map state, s.loose = [] := by
        rw [List.forall_mem_map]
        exact hs
      simp only [List.map_append] at hplain ⊢
      exact GameState.merge_flatten hl hn hplain hm
    unfold join
    rw [hfirst, hmessages, hmerge]
  · have hgroup : firstFailed? [fail base (bs.flatMap messages) (some first.reasonOrChild)] =
        some (fail base (bs.flatMap messages) (some first.reasonOrChild)) := rfl
    -- The reason of the first failure is never empty, so it is passed on through both groups.
    have hreason : ((firstFailed? as).getD
        (fail base (bs.flatMap messages) (some first.reasonOrChild))).reasonOrChild =
          ((firstFailed? as).getD first).reasonOrChild := by
      cases firstFailed? as with
      | some earlier => rfl
      | none => exact reasonOrChild_fail first.truthy_reasonOrChild _
    rw [join_of_failed (firstFailed?_between hgroup), join_of_failed (firstFailed?_between hf),
      hmessages, hreason]

end Result

namespace Behaviour
variable {bs : List Behaviour} {c : Context} {r : Result} {rs : List Result} {run mid : Run}

/-- A group leaves a record of its failure and nothing else beyond its calls. -/
theorem parallel_of_gather (hg : gather bs c run = .ok rs mid) (hj : Result.join c.state rs = .ok r) :
    ∃ run', parallel bs c run = .ok r run' ∧ mid.Agrees run' := by
  have hhead : (rs.filter fun r => !r.success).head? = Result.firstFailed? rs :=
    Result.head?_failed
  rcases Result.join_eq_ok_iff.mp hj with ⟨hf, s, hs, rfl⟩ | ⟨first, hf, rfl⟩
  · rw [hf, List.head?_eq_none_iff] at hhead
    exact ⟨mid, parallel_eq_ok_iff.mpr ⟨rs, mid, hg, Or.inl ⟨hhead, rfl, s, hs, rfl⟩⟩, .refl mid⟩
  · rw [hf, List.head?_eq_some_iff] at hhead
    obtain ⟨others, hothers⟩ := hhead
    refine ⟨_, parallel_eq_ok_iff.mpr ⟨rs, mid, hg, Or.inr ⟨first, others, hothers, rfl, rfl⟩⟩,
      rfl, rfl, ?_⟩
    unfold Run.ordinary
    rw [Array.toList_push, List.filter_append]
    exact List.append_nil _

end Behaviour

namespace Result
variable {base : GameState} {rs : List Result}

theorem join_answers (hb : base.Valid) (hl : base.loose = []) (hs : ∀ r ∈ rs, base.Sibling r.state) :
    ∃ r, join base rs = .ok r ∧
      (r.success = true → r.state.toTable = base.lastWritten base.replacers (rs.map state)) := by
  cases hf : firstFailed? rs with
  | some first => exact ⟨_, join_of_failed hf, fun hr => by cases hr⟩
  | none =>
    obtain ⟨t, ht, htable⟩ := GameState.merge_of_siblings hb hl (List.forall_mem_map.mpr hs)
    exact ⟨_, join_of_merged hf ht, fun _ => htable⟩

end Result

namespace Effect
variable {c : Context} {e : Effect} {es es' xs ys zs : List Effect} {r : Result} {run mid : Run}

/-- Whatever the run, the effect answers in the context and seats the players that are seated there. -/
def AnswersIn (c : Context) (e : Effect) : Prop :=
  ∀ run, ∃ r run', e.execute c run = .ok r run' ∧ c.state.Sibling r.state

theorem Library.answersIn (h : e.Library) (hc : c.state.Valid) (hl : c.state.loose = []) :
    e.AnswersIn c := by
  intro run
  obtain ⟨r, run', hr, hseats⟩ := h.serves c run hc
  refine ⟨r, run', hr, hseats.valid Player.Progress.seatLaw hc, hseats.loose hl, ?_⟩
  intro id
  rw [GameState.playerIds, GameState.playerIds, hseats.seats.keys_eq]

/-- Library effects draw and log, but none of them looks at the journal. -/
theorem BuiltFrom.indifferent {allowed : Leaf → Prop} (h : e.BuiltFrom allowed) :
    e.Indifferent Run.Agrees := by
  induction h with
  | leaf _ => exact .leaf _
  | composite _ ih => exact .composite ih
  | sequential _ ih => exact .sequential ih
  | parallel _ ih => exact .parallel ih
  | chained _ _ _ ih ih' => exact .chained ih (fun _ => Run.Agrees.draw _) ih'
  | conditional _ _ ih => exact .conditional ih fun _ => Run.Agrees.consult _
  | repeated _ _ ih => exact .repeated ih _
  | contextual _ ih => exact .contextual ih _ _

/-- The players that a library effect leaves are those it found unless it took a new seating. -/
theorem Library.tells (h : e.Library) (hc : c.state.Valid) (hn : c.state.Numbered)
    (hr : e.execute c run = .ok r mid) : c.state.Tells r.state := by
  obtain ⟨q, run', hq, hstep⟩ := h.serves_proceeds c run ⟨hc, hn⟩
  rw [hr] at hq
  cases hq
  exact hstep.2.players_eq hn

theorem gather_answersIn (h : ∀ e ∈ es, e.AnswersIn c) (run : Run) :
    ∃ rs run', Behaviour.gather (es.map execute) c run = .ok rs run' ∧
      ∀ r ∈ rs, c.state.Sibling r.state :=
  Behaviour.gather_answers (List.forall_mem_map.mpr h) run

end Effect

namespace Duel

theorem stumbling_answersIn :
    ∀ e ∈ [bandage] ++ stumbling ++ [glance], e.AnswersIn (context "ann") := by
  have hleaf (l : Leaf) : (Effect.leaf l).AnswersIn (context "ann") :=
    Effect.Library.answersIn (.leaf trivial) table_valid rfl
  have hstumble : (Effect.custom stumble).AnswersIn (context "ann") := fun run =>
    ⟨_, run, rfl, table_valid, rfl, fun _ => Iff.rfl⟩
  simp [stumbling, bandage, glance, hleaf, hstumble]

end Duel

namespace Effect
variable {c : Context} {e : Effect} {es es' xs ys zs : List Effect} {r : Result} {run mid : Run}

/-- A parallel group within a parallel group answers what its members answer in its place, with the same
draws and lines; it only leaves a record of its own if one of its members fails. No effect of the library
looks at records (`BuiltFrom.indifferent`), and of the custom leaves that come after the group the same is
asked. -/
theorem parallel_flatten (hc : c.state.Valid) (hl : c.state.loose = []) (hn : c.state.Numbered)
    (h : ∀ e ∈ xs ++ ys ++ zs, e.AnswersIn c)
    (hz : ∀ e ∈ zs, Exec.Indifferent Run.Agrees (e.execute c)) (run : Run) :
    ∃ r nested flat,
      (parallel (xs ++ [parallel ys] ++ zs)).execute c run = .ok r nested ∧
      (parallel (xs ++ ys ++ zs)).execute c run = .ok r flat ∧ flat.Agrees nested := by
  obtain ⟨hxy, hzs⟩ := List.forall_mem_append.mp h
  obtain ⟨hxs, hys⟩ := List.forall_mem_append.mp hxy
  obtain ⟨as, afterXs, has, hsa⟩ := gather_answersIn hxs run
  obtain ⟨bs, afterYs, hbs, hsb⟩ := gather_answersIn hys afterXs
  obtain ⟨cs, flat, hcs, hsc⟩ := gather_answersIn hzs afterYs
  have hsiblings : ∀ r ∈ as ++ bs ++ cs, c.state.Sibling r.state :=
    List.forall_mem_append.mpr ⟨List.forall_mem_append.mpr ⟨hsa, hsb⟩, hsc⟩
  obtain ⟨q, hq, _⟩ := Result.join_answers hc hl hsb
  obtain ⟨r, hr, _⟩ := Result.join_answers hc hl hsiblings
  -- The inner group ends in a run that differs at most in a record, and the rest goes on from there.
  obtain ⟨afterGroup, hgroup, hagrees⟩ := Behaviour.parallel_of_gather hbs hq
  obtain ⟨nested, hcs', hagrees'⟩ :=
    (Behaviour.gather_indifferent (List.forall_mem_map.mpr hz)).eq_ok hagrees hcs
  have hflat : Behaviour.gather ((xs ++ ys ++ zs).map execute) c run = .ok (as ++ bs ++ cs) flat := by
    rw [List.map_append, List.map_append]
    exact Behaviour.gather_append (Behaviour.gather_append has hbs) hcs
  have hnested : Behaviour.gather ((xs ++ [parallel ys] ++ zs).map execute) c run =
      .ok (as ++ [q] ++ cs) nested := by
    rw [List.map_append, List.map_append, List.map_singleton, execute_parallel]
    exact Behaviour.gather_append
      (Behaviour.gather_append has (Behaviour.gather_singleton hgroup)) hcs'
  have hr' : Result.join c.state (as ++ [q] ++ cs) = .ok r :=
    (Result.join_flatten hl hn (fun r hm => (hsiblings r hm).plain) hq).trans hr
  obtain ⟨flat', hflat', hflatAgrees⟩ := Behaviour.parallel_of_gather hflat hr
  obtain ⟨nested', hnested', hnestedAgrees⟩ := Behaviour.parallel_of_gather hnested hr'
  rw [execute_parallel, execute_parallel]
  exact ⟨r, nested', flat', hnested', hflat',
    hflatAgrees.symm.trans (hagrees'.trans hnestedAgrees)⟩

/-- The inner group fails, and what was healed before it is undone with the rest. -/
theorem parallel_flatten_stumbling :
    (∀ e ∈ [Duel.bandage] ++ Duel.stumbling ++ [Duel.glance], e.AnswersIn (Duel.context "ann")) ∧
    ∃ r nested flat,
      (parallel ([Duel.bandage] ++ [parallel Duel.stumbling] ++ [Duel.glance])).execute
        (Duel.context "ann") default = .ok r nested ∧
      (parallel ([Duel.bandage] ++ Duel.stumbling ++ [Duel.glance])).execute
        (Duel.context "ann") default = .ok r flat ∧
      flat.Agrees nested ∧ r.success = false ∧ r.state = Duel.table ∧
      nested.journal.size = 2 ∧ flat.journal.size = 1 := by
  have hglance : Duel.glance.Indifferent Run.Agrees :=
    BuiltFrom.indifferent (.leaf trivial : Duel.glance.Library)
  obtain ⟨r, nested, flat, hr, hr', hagrees⟩ := parallel_flatten (c := Duel.context "ann")
    Duel.table_valid rfl (Nat.le_refl 0) Duel.stumbling_answersIn
    (List.forall_mem_singleton.mpr (hglance.execute Run.Agrees.loggable _)) default
  refine ⟨Duel.stumbling_answersIn, r, nested, flat, hr, hr', hagrees, ?_⟩
  obtain ⟨_, _, hn, hnested⟩ : ∃ q run',
      (parallel ([Duel.bandage] ++ [parallel Duel.stumbling] ++ [Duel.glance])).execute
        (Duel.context "ann") default = .ok q run' ∧ q.success = false ∧ q.state = Duel.table ∧
        run'.journal.size = 2 := ⟨_, _, rfl, rfl, rfl, rfl⟩
  obtain ⟨_, _, hf, hflat⟩ : ∃ q run',
      (parallel ([Duel.bandage] ++ Duel.stumbling ++ [Duel.glance])).execute
        (Duel.context "ann") default = .ok q run' ∧ run'.journal.size = 1 := ⟨_, _, rfl, rfl⟩
  rw [hr] at hn
  cases hn
  rw [hr'] at hf
  cases hf
  exact ⟨hnested.1, hnested.2.1, hnested.2.2, hflat⟩

section Alone
variable {alone : Effect → Result}

end Alone

/-- A group of one member keeps all of its success and nothing of its failure but the messages and the
reason. -/
theorem parallel_singleton (hc : c.state.Valid) (hl : c.state.loose = [])
    (h : e.execute c run = .ok r mid) (hr : r.state.Valid) (hrl : r.state.loose = [])
    (ht : c.state.Tells r.state) :
    ∃ q run', (parallel [e]).execute c run = .ok q run' ∧ q.success = r.success ∧
      q.messages = r.messages ∧ (r.success = true → q.state.toTable = r.state.toTable) ∧
      (r.success = false → q.state = c.state ∧
        (∀ reason, r.reason? = some reason → reason.truthy = true → q.reason? = some reason) ∧
        (r.Reasonless → q.reason? = some (.str FailureReason.childFailed.name))) := by
  have hg : Behaviour.gather ([e].map execute) c run = .ok [r] mid := Behaviour.gather_singleton h
  rw [execute_parallel]
  cases hs : r.success with
  | true =>
    have hnone : Result.firstFailed? [r] = none :=
      Result.firstFailed?_eq_none_iff.mpr (List.forall_mem_singleton.mpr hs)
    obtain ⟨t, hmerge, htable⟩ := GameState.merge_singleton hc hl hr hrl ht
    obtain ⟨run', hrun', _⟩ := Behaviour.parallel_of_gather hg (Result.join_of_merged hnone hmerge)
    refine ⟨_, run', hrun', rfl, List.flatMap_singleton .., fun _ => htable, ?_⟩
    intro hf
    cases hf
  | false =>
    have hsome : Result.firstFailed? [r] = some r := List.find?_cons_of_pos (by simp [hs])
    have hjoin : Result.join c.state [r] =
        .ok (.fail c.state ([r].flatMap Result.messages) (some r.reasonOrChild)) :=
      Result.join_of_failed hsome
    obtain ⟨run', hrun', _⟩ := Behaviour.parallel_of_gather hg hjoin
    refine ⟨_, run', hrun', rfl, List.flatMap_singleton .., nofun, fun _ => ⟨rfl, ?_, ?_⟩⟩
    · intro reason hreason htruthy
      rw [Result.reason?_fail, Result.reasonOrChild_of_truthy hreason htruthy]
    · intro hless
      rw [Result.reason?_fail, Result.reasonOrChild_of_reasonless hless]

/-- The healing that the effect itself keeps when it fails is undone by the group around it. -/
theorem parallel_singleton_overreach : ∃ r mid q run',
    Duel.overreach.execute (Duel.context "ann") default = .ok r mid ∧
    (parallel [Duel.overreach]).execute (Duel.context "ann") default = .ok q run' ∧
    r.success = false ∧ q.success = false ∧ q.messages = r.messages ∧ r.state ≠ Duel.table ∧
    q.state = Duel.table ∧
    q.reason? = some (.str FailureReason.insufficientResource.name) := by
  obtain ⟨r, mid, h, hf, hne, hreason⟩ : ∃ r mid,
      Duel.overreach.execute (Duel.context "ann") default = .ok r mid ∧ r.success = false ∧
        r.state.revision ≠ Duel.table.revision ∧
        r.reason? = some (.str FailureReason.insufficientResource.name) :=
    ⟨_, _, rfl, rfl, by decide +kernel, rfl⟩
  obtain ⟨hvalid, hplain⟩ : r.state.Valid ∧ r.state.loose = [] := by
    obtain ⟨q, run', hq, hseats⟩ :=
      Duel.overreach_library.serves (Duel.context "ann") default Duel.table_valid
    rw [h] at hq
    cases hq
    exact ⟨hseats.valid Player.Progress.seatLaw Duel.table_valid, hseats.loose rfl⟩
  have htells : (Duel.context "ann").state.Tells r.state :=
    Duel.overreach_library.tells Duel.table_valid (Nat.le_refl 0) h
  obtain ⟨q, run', hq, hsuccess, hmessages, _, hfailed⟩ :=
    parallel_singleton Duel.table_valid rfl h hvalid hplain htells
  obtain ⟨hstate, hpassed, _⟩ := hfailed hf
  exact ⟨r, mid, q, run', h, hq, hf, hsuccess.trans hf, hmessages,
    fun heq => hne (congrArg GameState.revision heq), hstate, hpassed _ hreason (by decide)⟩

end Effect

end Cardplay
