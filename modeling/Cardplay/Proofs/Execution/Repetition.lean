import Cardplay.Proofs.Execution.StopRule

/-!
# Repetitions

A repetition runs as a row of copies of its child. Pipelines that follow one another are one pipeline
(`Behaviour.pipeline_map_pipeline`), so repetitions of one effect that stand next to each other, or one inside
the other, are spread out into one row (`Effect.execute_repetitions`), wherever a copy fails or raises. A number
of times that is too large is refused before the child is called at all.
-/

set_option autoImplicit false

namespace Cardplay

namespace Behaviour

theorem pipeline_map_pipeline (bss : List (List Behaviour)) :
    pipeline (bss.map pipeline) = pipeline bss.flatten := by
  induction bss with
  | nil => rfl
  | cons bs rest ih =>
    rw [List.map_cons, pipeline_cons_pipeline, pipeline_append, ih, ← pipeline_append,
      List.flatten_cons]

end Behaviour

namespace Effect
variable {e p : Effect} {xs zs : List Effect} {m n : Int}

theorem execute_repeated_eq (h : n ≤ Behaviour.maxTimes) :
    (repeated e n).execute = Behaviour.pipeline (List.replicate n.toNat e.execute) := by
  have he : RunsInTurn (List.replicate n.toNat e) (repeated e n) := .repeated h rfl
  rw [he.execute_eq, List.map_replicate]

theorem execute_repeated_tooOften (h : Behaviour.maxTimes < n) (c : Context) (run : Run) :
    (repeated e n).execute c run = .error .tooManyTimes run ∧
      (repeated e n).visits c run = [⟨⟨repeated e n, c, run⟩, []⟩] := by
  constructor
  · rw [execute_repeated, Behaviour.repeated, if_pos h]
    rfl
  · simp [visits, Tour.enter, h]

/-- Repetitions of one effect that follow one another are one row of copies. -/
theorem execute_adjacent (hm : m ≤ Behaviour.maxTimes) (hn : n ≤ Behaviour.maxTimes)
    (hp : PipelineOver (xs ++ [repeated e m, repeated e n] ++ zs) p) :
    p.execute = (composite (xs ++ List.replicate (m.toNat + n.toNat) e ++ zs)).execute := by
  have hpair : Behaviour.pipeline ([repeated e m, repeated e n].map execute) =
      Behaviour.pipeline ((List.replicate (m.toNat + n.toNat) e).map execute) := by
    have hrow := Behaviour.pipeline_map_pipeline
      [List.replicate m.toNat e.execute, List.replicate n.toNat e.execute]
    simpa [execute_repeated_eq, hm, hn, List.replicate_append_replicate] using hrow
  rw [hp.execute_eq, execute_composite, List.map_append, List.map_append,
    ← Behaviour.pipeline_flatten, hpair, Behaviour.pipeline_flatten, List.map_append, List.map_append]

/-- A repetition of a repetition is one row of copies. -/
theorem execute_nested (hm : m ≤ Behaviour.maxTimes) (hn : n ≤ Behaviour.maxTimes) :
    (repeated (repeated e m) n).execute =
      (composite (List.replicate (m.toNat * n.toNat) e)).execute := by
  have hrows := Behaviour.pipeline_map_pipeline
    (List.replicate n.toNat (List.replicate m.toNat e.execute))
  rw [List.map_replicate, List.flatten_replicate_replicate, Nat.mul_comm] at hrows
  rw [execute_repeated_eq hn, execute_repeated_eq hm, hrows, execute_composite, List.map_replicate]

end Effect

namespace Duel

/-- Ann can afford it once. -/
def toll : Effect := .leaf (.resource "mana" 1 .spend toSelf)

end Duel

namespace Effect

/-- A repetition is a row of copies of its child, none when the number is negative: with the same state,
messages and metadata, the same error, log, draws and journal in every context. Next to each other in a pipeline
the copies of repetitions add up, and those of a repetition of a repetition multiply. Beyond the largest number
a repetition raises at once and calls nothing. -/
theorem execute_repetitions :
    (∀ e n, n ≤ Behaviour.maxTimes →
      (repeated e n).execute = (composite (List.replicate n.toNat e)).execute) ∧
    (∀ e m n xs zs p, m ≤ Behaviour.maxTimes → n ≤ Behaviour.maxTimes →
      PipelineOver (xs ++ [repeated e m, repeated e n] ++ zs) p →
        p.execute = (composite (xs ++ List.replicate (m.toNat + n.toNat) e ++ zs)).execute) ∧
    (∀ e m n, m ≤ Behaviour.maxTimes → n ≤ Behaviour.maxTimes → (repeated (repeated e m) n).execute =
      (composite (List.replicate (m.toNat * n.toNat) e)).execute) ∧
    ∀ e n c run, Behaviour.maxTimes < n → (repeated e n).execute c run = .error .tooManyTimes run ∧
      (repeated e n).visits c run = [⟨⟨repeated e n, c, run⟩, []⟩] := by
  refine ⟨?_, fun e m n xs zs p hm hn hp => execute_adjacent hm hn hp,
    fun e m n hm hn => execute_nested hm hn, fun e n c run h => execute_repeated_tooOften h c run⟩
  intro e n h
  rw [execute_repeated_eq h, execute_composite, List.map_replicate]

/-- The second of the four copies fails within the first of the two inner repetitions. -/
theorem execute_repetitions_toll :
    (repeated Duel.toll 3).execute = (composite [Duel.toll, Duel.toll, Duel.toll]).execute ∧
    (sequential [Duel.bandage, repeated Duel.toll 1, repeated Duel.toll (-4), Duel.glance]).execute =
      (composite [Duel.bandage, Duel.toll, Duel.glance]).execute ∧
    (∃ r run', (composite [Duel.toll, Duel.toll, Duel.toll, Duel.toll]).execute (Duel.context "ann")
        default = .ok r run' ∧
      (repeated (repeated Duel.toll 2) 2).execute (Duel.context "ann") default = .ok r run' ∧
      r.success = false ∧
      r.messages = ["ann spends 1 mana", "ann doesn't have enough mana (0/1)"]) ∧
    Behaviour.maxTimes = 9223372036854775807 ∧
    (repeated (.custom Duel.curse) 9223372036854775808).execute (Duel.context "ann") default =
      .error .tooManyTimes default := by
  obtain ⟨hrow, hadjacent, hnested, htooOften⟩ := execute_repetitions
  refine ⟨hrow _ 3 (by decide), ?_, ?_, by decide, (htooOften _ _ _ _ (by decide)).1⟩
  · exact hadjacent Duel.toll 1 (-4) [Duel.bandage] [Duel.glance] _ (by decide) (by decide) .sequential
  · have hfour : (repeated (repeated Duel.toll 2) 2).execute =
        (composite [Duel.toll, Duel.toll, Duel.toll, Duel.toll]).execute :=
      hnested _ 2 2 (by decide) (by decide)
    rw [hfour]
    exact ⟨_, _, rfl, rfl, rfl, by decide +kernel⟩

end Effect

end Cardplay
