import Cardplay.Effect.Introspection
import Cardplay.Proofs.Execution.Upkeep

/-!
# Walks

Where nothing is chosen while a tree runs, its walk lists exactly what stands in it (`Effect.Static.walk`), and
the counts tell for every kind how many nodes the walk lists (`Effect.countOf_countKinds`). So a kind that is not
counted stands nowhere in the tree (`Effect.Static.counts`).
-/

set_option autoImplicit false

namespace Cardplay

namespace Effect
variable {e x : Effect} {kind : EffectKind} {cs : List Effect} {nodes below : List (Nat × Effect)}

theorem Encloses.induction {P : Effect → Prop} (h : ∀ e, (∀ x, e.Encloses x → P x) → P e)
    (e : Effect) : P e := by
  induction e using Effect.induction with
  | leaf l => exact h _ fun x hx => by cases hx
  | custom l => exact h _ fun x hx => by cases hx
  | composite children ih =>
    refine h _ fun x hx => ?_
    cases hx with
    | composite hm => exact ih x hm
  | sequential children ih =>
    refine h _ fun x hx => ?_
    cases hx with
    | sequential hm => exact ih x hm
  | parallel children ih =>
    refine h _ fun x hx => ?_
    cases hx with
    | parallel hm => exact ih x hm
  | chained first next ih ih' =>
    refine h _ fun x hx => ?_
    cases hx with
    | first => exact ih
    | chosen _ hnext => exact ih' _ _ _ _ hnext
  | conditional child holds ih =>
    refine h _ fun x hx => ?_
    cases hx with
    | conditional => exact ih
  | repeated child times ih =>
    refine h _ fun x hx => ?_
    cases hx with
    | repeated => exact ih
  | contextual child key value ih =>
    refine h _ fun x hx => ?_
    cases hx with
    | contextual => exact ih

/-- All nodes are the library's own, and none is chosen while the tree runs. -/
def Static (e : Effect) : Prop :=
  e.Throughout fun x => ∃ kind, x.kind? = some kind ∧ kind ≠ .chained

theorem Static.exists_children (h : e.Static) :
    ∃ cs, e.children = .ok cs ∧ ∀ x, e.Encloses x ↔ x ∈ cs := by
  obtain ⟨kind, hkind, hne⟩ := h e .refl
  cases e with
  | leaf l => exact ⟨[], rfl, fun x => ⟨fun hx => (by cases hx), fun hx => (by cases hx)⟩⟩
  | custom l => cases hkind
  | composite children =>
    exact ⟨children, rfl, fun x => ⟨fun hx => (by cases hx; assumption), fun hx => .composite hx⟩⟩
  | sequential children =>
    exact ⟨children, rfl, fun x => ⟨fun hx => (by cases hx; assumption), fun hx => .sequential hx⟩⟩
  | parallel children =>
    exact ⟨children, rfl, fun x => ⟨fun hx => (by cases hx; assumption), fun hx => .parallel hx⟩⟩
  | chained first next =>
    cases hkind
    exact absurd rfl hne
  | conditional child holds =>
    refine ⟨[child], rfl, fun x => ?_⟩
    rw [List.mem_singleton]
    exact ⟨fun hx => (by cases hx; rfl), fun hx => hx ▸ .conditional child holds⟩
  | repeated child times =>
    refine ⟨[child], rfl, fun x => ?_⟩
    rw [List.mem_singleton]
    exact ⟨fun hx => (by cases hx; rfl), fun hx => hx ▸ .repeated child times⟩
  | contextual child key value =>
    refine ⟨[child], rfl, fun x => ?_⟩
    rw [List.mem_singleton]
    exact ⟨fun hx => (by cases hx; rfl), fun hx => hx ▸ .contextual child key value⟩

/-- A node stands before its children, which are one level deeper. -/
theorem walkFrom_eq (d : Nat) (e : Effect) : e.walkFrom d = e.children >>= fun cs =>
    walkAllFrom (d + 1) cs >>= fun below => .ok ((d, e) :: below) := by
  have hsingle (child : Effect) : walkAllFrom (d + 1) [child] = child.walkFrom (d + 1) := by
    rw [walkAllFrom, walkAllFrom]
    cases child.walkFrom (d + 1) with
    | ok nodes => exact congrArg Except.ok (List.append_nil nodes)
    | error _ => rfl
  cases e with
  | leaf l => rfl
  | custom l =>
    rw [walkFrom, children]
    cases EffectKind.ofName? l.label with
    | none => rfl
    | some kind => cases kind <;> rfl
  | composite children => rfl
  | sequential children => rfl
  | parallel children => rfl
  | chained first next => exact congrArg (· >>= _) (hsingle first).symm
  | conditional child holds => exact congrArg (· >>= _) (hsingle child).symm
  | repeated child times => exact congrArg (· >>= _) (hsingle child).symm
  | contextual child key value => exact congrArg (· >>= _) (hsingle child).symm

/-- The nodes are the effect and all that stands inside it. -/
def Lists (nodes : List (Nat × Effect)) (e : Effect) : Prop :=
  ∀ x, (∃ d, (d, x) ∈ nodes) ↔ Relation.ReflTransGen Encloses e x

theorem Lists.cons (d : Nat) (hcs : ∀ x, e.Encloses x ↔ x ∈ cs)
    (h : ∀ x, (∃ d, (d, x) ∈ below) ↔ ∃ child ∈ cs, Relation.ReflTransGen Encloses child x) :
    Lists ((d, e) :: below) e := by
  intro x
  rw [Relation.ReflTransGen.cases_head_iff]
  constructor
  · rintro ⟨d', hm⟩
    rcases List.mem_cons.mp hm with heq | hm
    · exact Or.inl (Prod.mk.inj heq).2.symm
    · obtain ⟨child, hchild, hx⟩ := (h x).mp ⟨d', hm⟩
      exact Or.inr ⟨child, (hcs child).mpr hchild, hx⟩
  · rintro (rfl | ⟨child, hchild, hx⟩)
    · exact ⟨d, List.mem_cons_self⟩
    · obtain ⟨d', hm⟩ := (h x).mpr ⟨child, (hcs child).mp hchild, hx⟩
      exact ⟨d', List.mem_cons_of_mem _ hm⟩

theorem exists_walkAllFrom {d : Nat}
    (h : ∀ child ∈ cs, ∃ nodes, child.walkFrom d = .ok nodes ∧ Lists nodes child) :
    ∃ below, walkAllFrom d cs = .ok below ∧
      ∀ x, (∃ d, (d, x) ∈ below) ↔ ∃ child ∈ cs, Relation.ReflTransGen Encloses child x := by
  induction cs with
  | nil => exact ⟨[], rfl, by simp⟩
  | cons child rest ih =>
    obtain ⟨hchild, hrest⟩ := List.forall_mem_cons.mp h
    obtain ⟨nodes, hnodes, hlists⟩ := hchild
    obtain ⟨below, hbelow, hall⟩ := ih hrest
    have hwalk : walkAllFrom d (child :: rest) = .ok (nodes ++ below) := by
      simp [walkAllFrom, hnodes, hbelow, bind, Except.bind, pure, Except.pure]
    refine ⟨nodes ++ below, hwalk, fun x => ?_⟩
    simp only [List.mem_append, exists_or, hlists x, hall x, List.exists_mem_cons_iff]

/-- The walk of a tree in which nothing is chosen succeeds, and it lists exactly what stands in the tree. -/
theorem Static.walk (h : e.Static) (d : Nat) : ∃ nodes, e.walkFrom d = .ok nodes ∧ Lists nodes e := by
  induction e using Encloses.induction generalizing d with
  | h e ih =>
    obtain ⟨cs, hchildren, hcs⟩ := h.exists_children
    obtain ⟨below, hbelow, hall⟩ := exists_walkAllFrom fun child hm =>
      have henclosed := (hcs child).mpr hm
      ih child henclosed (h.inside henclosed) (d + 1)
    refine ⟨(d, e) :: below, ?_, .cons d hcs hall⟩
    rw [walkFrom_eq, hchildren]
    simp only [bind, Except.bind, hbelow]

/-- How many nodes of a kind the counts report. -/
def countOf (counts : OrderedMap Nat) (kind : EffectKind) : Nat := (counts.get? kind.name).getD 0

theorem get?_countLabels (counts : OrderedMap Nat) (labels : List String) (label : String) :
    ((countLabels counts labels).get? label).getD 0 =
      (counts.get? label).getD 0 + labels.count label := by
  induction labels generalizing counts with
  | nil => rfl
  | cons first rest ih =>
    rw [countLabels, ih]
    by_cases heq : label = first
    · subst heq
      rw [OrderedMap.get?_insert_self, Option.getD_some, List.count_cons_self]
      omega
    · rw [OrderedMap.get?_insert_of_ne _ heq, List.count_cons_of_ne (Ne.symm heq)]

theorem label_of_kind? (h : e.kind? = some kind) : e.label = kind.name := by
  cases e <;> simp_all [kind?, label]

theorem countOf_countKinds (h : e.walkFrom 0 = .ok nodes) : ∃ counts, e.countKinds = .ok counts ∧
    ∀ kind, countOf counts kind = (nodes.map fun node => node.2.label).count kind.name := by
  refine ⟨countLabels .empty (nodes.map fun node => node.2.label), ?_, fun kind => ?_⟩
  · simp only [countKinds, Effect.walk, h]
    rfl
  · rw [countOf, get?_countLabels, OrderedMap.get?_empty]
    exact Nat.zero_add _

/-- A kind is not counted exactly if no node in the tree is of that kind. -/
theorem Static.counts (h : e.Static) : ∃ counts, e.countKinds = .ok counts ∧
    ∀ kind, countOf counts kind = 0 ↔ e.Throughout fun x => x.kind? ≠ some kind := by
  obtain ⟨nodes, hnodes, hlists⟩ := h.walk 0
  obtain ⟨counts, hcounts, hnumber⟩ := countOf_countKinds hnodes
  refine ⟨counts, hcounts, fun kind => ?_⟩
  rw [hnumber, List.count_eq_zero]
  constructor
  · intro hnone x hx hkind
    obtain ⟨d, hm⟩ := (hlists x).mpr hx
    exact hnone (List.mem_map.mpr ⟨(d, x), hm, label_of_kind? hkind⟩)
  · intro hnone hm
    obtain ⟨⟨d, x⟩, hx, hlabel⟩ := List.mem_map.mp hm
    have hreached := (hlists x).mp ⟨d, hx⟩
    obtain ⟨kind', hkind, _⟩ := h x hreached
    rw [label_of_kind? hkind] at hlabel
    cases EffectKind.name_injective hlabel
    exact hnone x hreached hkind

end Effect

end Cardplay
