import Cardplay.Proofs.Execution.Upkeep
import Cardplay.Proofs.State.Merging

/-!
# How states are derived

A state is derived from another one by changes that somebody gives, by merges and by executions, whose custom
leaves derive their states in turn (`Derives`). Merges, library leaves and combinations never take the turn
back and never touch a highest health. A given change that does either is accepted like any other, so both last
through a run exactly as far as the given changes respect them (`derives_steady`).
-/

set_option autoImplicit false

namespace Cardplay

/-- As a constructor makes players, and changes with values of the fields' types. -/
structure Player.Regular (p : Player) : Prop where
  valid : p.Valid
  plain : p.loose = []

theorem Player.Regular.evolve {p q : Player} {changes : Player.Changes} (hp : p.Regular)
    (hc : changes.Typed) (h : p.evolve changes = .ok q) : q.Regular := by
  obtain ⟨_, hvalid, rfl⟩ := (Player.evolve_eq_ok_iff hp.valid).mp h
  exact ⟨hvalid, Player.loose_replace hp.plain hc.plain⟩

namespace GameState
variable {M : String → Int} {base s t u : GameState} {siblings : List GameState}

theorem evolvePlayer_eq_ok_iff {id : String} {changes : Player.Changes} :
    s.evolvePlayer id changes = .ok t ↔ ∃ p q, s.player? id = some p ∧ p.evolve changes = .ok q ∧
      s.withPlayers [q] = .ok t := by
  unfold evolvePlayer
  cases hp : s.player? id with
  | none => simp
  | some p =>
    cases hq : p.evolve changes with
    | error e => simp [hq, bind, Except.bind]
    | ok q => simp [hq, bind, Except.bind, withPlayer]

structure Regular (s : GameState) : Prop where
  valid : s.Valid
  plain : s.loose = []
  players : ∀ id p, s.player? id = some p → p.Regular

/-- The highest health of everybody seated is the one told for the identifier. -/
def Honours (M : String → Int) (s : GameState) : Prop :=
  ∀ id p, s.player? id = some p → p.maxHealth = M id

/-- What a change has to respect: no earlier turn, and the highest healths that are told. -/
structure Respects (M : String → Int) (s t : GameState) : Prop where
  turn_le : s.turn ≤ t.turn
  honours : t.Honours M

theorem Regular.of_valid (hs : s.Valid) (hp : s.Plain) : s.Regular :=
  ⟨hs, hp.1, fun id p h => ⟨(hs.player h).2, hp.2 id p h⟩⟩

theorem Regular.plain_seats (hs : s.Regular) : s.Plain :=
  ⟨hs.plain, fun id p h => (hs.players id p h).plain⟩

namespace Regular

theorem evolve {changes : Changes} (hs : s.Regular) (hc : changes.Typed)
    (hp : ∀ players, changes.players = some players → ∀ id p, players.get? id = some p → p.Regular)
    (h : s.evolve changes = .ok t) : t.Regular := by
  have hseats : ∀ players, changes.players = some players →
      ∀ seat ∈ players.entries, seat.2.Valid := by
    intro players heq seat hm
    exact (hp players heq seat.1 seat.2 (OrderedMap.mem_entries_iff.mp hm)).valid
  obtain ⟨_, hvalid, rfl⟩ := (evolve_eq_ok_iff hs.valid hseats).mp h
  refine ⟨hvalid, loose_replace hs.plain hc.plain, ?_⟩
  intro id p hget
  cases heq : changes.players with
  | none => exact hs.players id p (by simpa [player?, replace, heq] using hget)
  | some players => exact hp players heq id p (by simpa [player?, replace, heq] using hget)

theorem withPlayers {ps : List Player} (hs : s.Regular) (hp : ∀ p ∈ ps, p.Regular)
    (h : s.withPlayers ps = .ok t) : t.Regular := by
  have hvalid : ∀ p ∈ ps, p.Valid := fun p hm => (hp p hm).valid
  obtain ⟨hseated, rfl⟩ := (withPlayers_eq_ok_iff hs.valid hvalid).mp h
  refine ⟨valid_placeAll hs.valid hvalid hseated, loose_replace hs.plain rfl, ?_⟩
  intro id p hget
  rcases of_get?_placeAll hget with ⟨hm, _⟩ | hold
  · exact hp p hm
  · exact hs.players id p hold

theorem evolvePlayer {id : String} {changes : Player.Changes} (hs : s.Regular) (hc : changes.Typed)
    (h : s.evolvePlayer id changes = .ok t) : t.Regular := by
  obtain ⟨p, q, hp, hq, ht⟩ := evolvePlayer_eq_ok_iff.mp h
  have hregular := (hs.players id p hp).evolve hc hq
  exact hs.withPlayers (List.forall_mem_singleton.mpr hregular) ht

/-- The players of one sibling are accepted with the current player of another, or the merge fails. -/
theorem merge (hb : base.Regular) (hs : ∀ s ∈ siblings, s.Regular) (h : base.merge siblings = .ok t) :
    t.Regular ∧ t.toTable = base.lastWritten base.replacers siblings := by
  have hplain : ∀ s ∈ siblings, s.loose = [] := fun s hm => (hs s hm).plain
  have htable := (toTable_of_merge hb.plain hplain h).trans (foldl_overwrite hb.plain siblings)
  have hwriter (wrote : GameState → Bool) : (base.lastWriter wrote siblings).Regular :=
    lastWriter_of_forall wrote hb hs
  refine ⟨?_, htable⟩
  simp only [GameState.merge] at h
  split at h
  · cases h
    exact hb
  · refine hb.evolve (merged_typed hplain) (fun players heq id p hget => ?_) h
    have hreplaced := (toTable_replace_merged hb.plain hplain).trans (foldl_overwrite hb.plain siblings)
    have hplayers : players = (base.lastWriter base.reseats siblings).players := by
      have hfield := congrArg Table.players hreplaced
      simpa [replace, heq, lastWritten, replacers] using hfield
    rw [hplayers] at hget
    exact (hwriter base.reseats).players id p hget

end Regular

theorem SeatWise.respects (h : s.SeatWise Player.Progress t) (hs : s.Regular) (hM : s.Honours M) :
    t.Regular ∧ s.Respects M t := by
  refine ⟨.of_valid (h.valid Player.Progress.seatLaw hs.valid) (h.plain hs.plain_seats), ?_, ?_⟩
  · exact Int.le_of_eq h.turn_eq.symm
  · intro id q hq
    obtain ⟨p, hp, hpq⟩ := h.seats.exists_before hq
    exact hpq.maxHealth_eq.trans (hM id p hp)

theorem respects_lasting (M : String → Int) :
    Lasting (fun s => s.Regular ∧ s.Honours M) fun s t => t.Regular ∧ s.Respects M t where
  refl h := ⟨h.1, Int.le_refl _, h.2⟩
  trans h h' := ⟨h'.1, Int.le_trans h.2.turn_le h'.2.turn_le, h'.2.honours⟩
  keeps _ h := ⟨h.1, h.2.honours⟩
  merge := by
    intro base siblings t hb hs ht
    obtain ⟨hregular, htable⟩ := hb.1.merge (fun s hm => (hs s hm).1) ht
    refine ⟨hregular, ?_, ?_⟩
    · have hturn := congrArg Table.turn htable
      rw [hturn]
      exact lastWriter_of_forall (P := fun s => base.turn ≤ s.turn) _ (Int.le_refl _)
        fun s hm => (hs s hm).2.turn_le
    · have hplayers := congrArg Table.players htable
      have hwriter : (base.lastWriter base.reseats siblings).Honours M :=
        lastWriter_of_forall base.reseats hb.2 fun s hm => (hs s hm).2.honours
      intro id p hp
      rw [player?, hplayers] at hp
      exact hwriter id p hp

end GameState

open GameState

/-- A state that comes of another one, where all that is given on the way is as `C` says: changes of a state or
of a seated player, and players to be seated. What custom leaves leave is derived in the same way. -/
inductive Derives (C : GameState → GameState → Prop) : GameState → GameState → Prop
  | refl (s : GameState) : Derives C s s
  | evolve {s t u : GameState} {changes : GameState.Changes} (h : Derives C s t)
      (typed : changes.Typed) (given : ∀ players, changes.players = some players →
        ∀ id p, players.get? id = some p → p.Regular)
      (hu : t.evolve changes = .ok u) (hC : C t u) : Derives C s u
  | evolvePlayer {s t u : GameState} {id : String} {changes : Player.Changes} (h : Derives C s t)
      (typed : changes.Typed) (hu : t.evolvePlayer id changes = .ok u) (hC : C t u) : Derives C s u
  | withPlayers {s t u : GameState} {ps : List Player} (h : Derives C s t)
      (given : ∀ p ∈ ps, p.Regular) (hu : t.withPlayers ps = .ok u) (hC : C t u) : Derives C s u
  | merge {s t u : GameState} {siblings : List GameState} (h : Derives C s t)
      (derived : ∀ x ∈ siblings, Derives C t x) (hu : t.merge siblings = .ok u) : Derives C s u
  | execute {s : GameState} {e : Effect} {c : Context} {run run' : Run} {r : Result}
      (h : Derives C s c.state) (hr : e.execute c run = .ok r run')
      (customs : ∀ v ∈ e.visits c run, ∀ l, v.effect = .custom l → ∀ own, v.result? = some own →
        Derives C v.context.state own.state) : Derives C s r.state

namespace Derives
variable {M : String → Int} {C : GameState → GameState → Prop} {s t u : GameState}

theorem turn (h : Derives C s t) (n : Int) (hu : t.evolve { turn := some n } = .ok u) (hC : C t u) :
    Derives C s u :=
  .evolve h ⟨rfl, rfl⟩ (fun _ heq => by cases heq) hu hC

theorem respects (h : Derives (Respects M) s t) (hs : s.Regular) (hM : s.Honours M) :
    t.Regular ∧ s.Respects M t := by
  have law := respects_lasting M
  induction h with
  | refl s => exact law.refl ⟨hs, hM⟩
  | evolve _ typed given hu hC ih =>
    have ht := ih hs hM
    exact law.trans ht ⟨ht.1.evolve typed given hu, hC⟩
  | evolvePlayer _ typed hu hC ih =>
    have ht := ih hs hM
    exact law.trans ht ⟨ht.1.evolvePlayer typed hu, hC⟩
  | withPlayers _ given hu hC ih =>
    have ht := ih hs hM
    exact law.trans ht ⟨ht.1.withPlayers given hu, hC⟩
  | merge _ _ hu ih ih' =>
    have ht := ih hs hM
    exact law.trans ht (law.merge ⟨ht.1, ht.2.honours⟩
      (fun x hx => ih' x hx ht.1 ht.2.honours) hu)
  | @execute s e c run run' r _ hr _ ih ih' =>
    have ht := ih hs hM
    refine law.trans ht (Effect.kept_by_leaves law hr ⟨ht.1, ht.2.honours⟩ ?_)
    rintro v hv hl ⟨hregular, hhonours⟩ own hown
    cases he : v.effect with
    | leaf l =>
      have hkeeps := Call.keeps_of_serves he
        (l.serves_seatWise Player.Progress.seatLaw fun p q _ ht => ht.progress)
      exact (hkeeps hl hregular.valid own hown).respects hregular hhonours
    | custom l => exact ih' v hv l he own hown hregular hhonours
    | _ => simp [he, Effect.isLeaf] at hl

end Derives

namespace GameState
variable {M : String → Int} {s u : GameState} {id : String} {p : Player}

/-- No turn that is given is compared with the one before. -/
theorem evolve_turn_eq_ok_iff (hs : s.Valid) {n : Int} :
    s.evolve { turn := some n } = .ok u ↔ 0 ≤ n ∧ u = s.replace { turn := some n } := by
  have hp : ∀ players, (none : Option (OrderedMap Player)) = some players →
      ∀ seat ∈ players.entries, seat.2.Valid := fun _ h => by cases h
  rw [evolve_eq_ok_iff hs hp]
  constructor
  · rintro ⟨_, hvalid, hu⟩
    exact ⟨hvalid.turn_nonneg, hu⟩
  · rintro ⟨hn, hu⟩
    exact ⟨rfl, ⟨hn, hs.seated, hs.current, hs.players⟩, hu⟩

theorem respects_turn_iff (hM : s.Honours M) (n : Int) :
    s.Respects M (s.replace { turn := some n }) ↔ s.turn ≤ n :=
  ⟨fun h => h.turn_le, fun h => ⟨h, hM⟩⟩

/-- A highest health that is given is compared with the health only. -/
theorem evolvePlayer_maxHealth_eq_ok_iff (hs : s.Valid) (hp : s.player? id = some p) {m : Int} :
    s.evolvePlayer id { maxHealth := some m } = .ok u ↔ p.health ≤ m ∧
      u = s.replace { players := some (placeAll s.players [p.replace { maxHealth := some m }]) } := by
  obtain ⟨rfl, hvalid⟩ := hs.player hp
  have hseated : p.id ∈ s.playerIds := OrderedMap.mem_keys_iff.mpr ⟨p, hp⟩
  have hplace {q : Player} (hq : q.Valid) :=
    @withPlayers_eq_ok_iff s u hs [q] (List.forall_mem_singleton.mpr hq)
  rw [evolvePlayer_eq_ok_iff]
  constructor
  · rintro ⟨p', q, hp', hq, hu⟩
    cases hp.symm.trans hp'
    obtain ⟨_, hq', rfl⟩ := (Player.evolve_eq_ok_iff hvalid).mp hq
    exact ⟨hq'.health_le, ((hplace hq').mp hu).2⟩
  · rintro ⟨hm, hu⟩
    have hq : (p.replace { maxHealth := some m }).Valid := ⟨hvalid.health_nonneg, hm, hvalid.nodup⟩
    exact ⟨p, _, hp, (Player.evolve_eq_ok_iff hvalid).mpr ⟨rfl, hq, rfl⟩,
      (hplace hq).mpr ⟨List.forall_mem_singleton.mpr hseated, hu⟩⟩

theorem respects_maxHealth_iff (hs : s.Valid) (hM : s.Honours M) (hp : s.player? id = some p) (m : Int) :
    s.Respects M (s.replace
      { players := some (placeAll s.players [p.replace { maxHealth := some m }]) }) ↔
        m = p.maxHealth := by
  obtain ⟨rfl, _⟩ := hs.player hp
  constructor
  · intro h
    have hm : m = M p.id := h.honours p.id _ (OrderedMap.get?_insert_self ..)
    rw [hm, hM p.id p hp]
  · rintro rfl
    refine ⟨Int.le_refl _, ?_⟩
    intro id q hq
    rcases of_get?_placeAll hq with ⟨hmem, hid⟩ | hold
    · rw [List.mem_singleton.mp hmem] at hid ⊢
      exact hid ▸ hM p.id p hp
    · exact hM id q hold

end GameState

namespace Duel

/-- The highest healths at the table. -/
def highest (id : String) : Int := if id = "ann" then 5 else 4

theorem table_regular : table.Regular ∧ table.Honours highest := by
  have hseats : ∀ id p, table.player? id = some p → p.loose = [] ∧ p.maxHealth = highest id := by
    intro id p hp
    have hm := OrderedMap.mem_entries_iff.mpr hp
    simp only [table, List.mem_cons, Prod.mk.injEq, List.not_mem_nil, or_false] at hm
    rcases hm with ⟨rfl, rfl⟩ | ⟨rfl, rfl⟩
    · exact ⟨rfl, rfl⟩
    · exact ⟨rfl, rfl⟩
  have hplain : table.Plain := ⟨rfl, fun id p hp => (hseats id p hp).1⟩
  exact ⟨.of_valid table_valid hplain, fun id p hp => (hseats id p hp).2⟩

/-- Goes on to the next turn by a change that is checked. -/
def strike : CustomLeaf where
  label := "strike"
  type := ⟨"duel", "Strike"⟩
  description := "Strike"
  behaviour := fun c => do
    return .ok (← Exec.orRaise (c.state.evolve { turn := some (c.state.turn + 1) })) ["strike"]

def late : GameState := table.replace { turn := some 4 }

end Duel

/-- In a run that starts at a valid state the turn never decreases and nobody's highest health changes, as long
as what is given respects this. No operation sees to it that it does: at every state of the run every turn that
is not negative is accepted, the earlier ones included, and of a player every highest health that is not below
the health, the other ones included. -/
theorem derives_steady {M : String → Int} {s t : GameState} (hs : s.Valid) (hplain : s.Plain)
    (hM : s.Honours M) (h : Derives (Respects M) s t) :
    t.Valid ∧ t.Plain ∧ t.Honours M ∧ s.turn ≤ t.turn ∧
      (∀ id p q, s.player? id = some p → t.player? id = some q → q.maxHealth = p.maxHealth) ∧
      (∀ n, ((∃ u, t.evolve { turn := some n } = .ok u) ↔ 0 ≤ n) ∧
        ∀ u, t.evolve { turn := some n } = .ok u → (t.Respects M u ↔ t.turn ≤ n)) ∧
      ∀ id p m, t.player? id = some p →
        ((∃ u, t.evolvePlayer id { maxHealth := some m } = .ok u) ↔ p.health ≤ m) ∧
        ∀ u, t.evolvePlayer id { maxHealth := some m } = .ok u → (t.Respects M u ↔ m = p.maxHealth) := by
  obtain ⟨hregular, hrespects⟩ := h.respects (.of_valid hs hplain) hM
  have ht := hregular.valid
  refine ⟨ht, hregular.plain_seats, hrespects.honours, hrespects.turn_le, ?_, ?_, ?_⟩
  · intro id p q hp hq
    rw [hM id p hp, hrespects.honours id q hq]
  · intro n
    refine ⟨by simp [evolve_turn_eq_ok_iff ht], fun u hu => ?_⟩
    obtain ⟨_, rfl⟩ := (evolve_turn_eq_ok_iff ht).mp hu
    exact respects_turn_iff hrespects.honours n
  · intro id p m hp
    refine ⟨by simp [evolvePlayer_maxHealth_eq_ok_iff ht hp], fun u hu => ?_⟩
    obtain ⟨_, rfl⟩ := (evolvePlayer_maxHealth_eq_ok_iff ht hp).mp hu
    exact respects_maxHealth_iff ht hrespects.honours hp m

/-- The given turn is later and the custom leaf goes on from there; going back to the start is accepted then. -/
theorem derives_steady_strike : ∃ r run', (Effect.custom Duel.strike).execute
      { playerId := "ann", state := Duel.late } default = .ok r run' ∧
    Derives (Respects Duel.highest) Duel.table r.state ∧ Duel.table.Valid ∧ Duel.table.Plain ∧
      Duel.table.Honours Duel.highest ∧ r.state.Valid ∧ Duel.table.turn ≤ r.state.turn ∧
      ∃ u, r.state.evolve { turn := some 0 } = .ok u := by
  obtain ⟨hregular, hhonours⟩ := Duel.table_regular
  have hlate : Derives (Respects Duel.highest) Duel.table Duel.late :=
    .turn (.refl _) 4 rfl ⟨by decide, hhonours⟩
  obtain ⟨r, run', hr, hstrike⟩ : ∃ r run', (Effect.custom Duel.strike).execute
      { playerId := "ann", state := Duel.late } default = .ok r run' ∧
        Derives (Respects Duel.highest) Duel.late r.state :=
    ⟨_, _, rfl, .turn (.refl _) 5 rfl ⟨by decide, hhonours⟩⟩
  have hrun : Derives (Respects Duel.highest) Duel.table r.state := by
    refine .execute (c := { playerId := "ann", state := Duel.late }) hlate hr ?_
    intro v hv l _ own hown
    rw [List.mem_singleton.mp hv] at hown ⊢
    obtain ⟨mid, hout⟩ := Call.result?_eq_some_iff.mp hown
    cases hr.symm.trans hout
    exact hstrike
  obtain ⟨hvalid, _, _, hle, _, hturn, _⟩ :=
    derives_steady Duel.table_valid hregular.plain_seats hhonours hrun
  exact ⟨r, run', hr, hrun, Duel.table_valid, hregular.plain_seats, hhonours, hvalid, hle,
    (hturn 0).1.mpr (by decide)⟩

/-- Without regard to what is given, a turn goes back and a highest health changes. -/
theorem derives_backwards : ∃ t u p q, Duel.table.Valid ∧ Duel.table.Plain ∧
    Derives (fun _ _ => True) Duel.table t ∧ t.turn < Duel.table.turn ∧
    Derives (fun _ _ => True) t u ∧ t.player? "ann" = some p ∧ u.player? "ann" = some q ∧
      q.maxHealth ≠ p.maxHealth := by
  obtain ⟨hregular, _⟩ := Duel.table_regular
  have hback : Derives (fun _ _ => True) Duel.table (Duel.table.replace { turn := some 0 }) :=
    .turn (.refl _) 0 rfl trivial
  obtain ⟨u, hu, hq⟩ : ∃ u, (Duel.table.replace { turn := some 0 }).evolvePlayer "ann"
      { maxHealth := some 3 } = .ok u ∧ ∃ q, u.player? "ann" = some q ∧ q.maxHealth = 3 :=
    ⟨_, rfl, _, rfl, rfl⟩
  obtain ⟨q, hq, hthree⟩ := hq
  refine ⟨_, u, Duel.ann, q, Duel.table_valid, hregular.plain_seats, hback, by decide,
    .evolvePlayer (.refl _) ⟨rfl, rfl⟩ hu trivial, rfl, hq, ?_⟩
  rw [hthree]
  decide

end Cardplay
