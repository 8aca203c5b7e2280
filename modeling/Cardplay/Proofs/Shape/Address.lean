import Cardplay.Proofs.Shape.Preorder
import Cardplay.Proofs.Shape.Walk

/-!
# Addresses in a tree

A node of the static tree has an address, the places by which one goes down to it from the root; an effect that
stands in the tree twice has two. In the order of the addresses a node comes before what stands below it, and that
before the nodes to its right. A walk that answers lists every address once and in that order
(`Effect.enumerates_of_walk`). It answers where every node carries a kind and has the parts of that kind
(`Effect.exists_walkFrom`).
-/

set_option autoImplicit false

namespace Cardplay

namespace Effect
variable {e x : Effect} {cs : List Effect} {q : Effect → Prop} {i : Nat} {path : List Nat}

/-- What stands directly below the effect, of a chained one only its first part. -/
def offspring : Effect → List Effect
  | leaf _ | custom _ => []
  | composite children | sequential children | parallel children => children
  | chained first _ => [first]
  | conditional child _ | repeated child _ | contextual child _ _ => [child]

theorem encloses_of_mem_offspring (h : x ∈ e.offspring) : e.Encloses x := by
  cases e with
  | leaf l => cases h
  | custom l => cases h
  | composite children => exact .composite h
  | sequential children => exact .sequential h
  | parallel children => exact .parallel h
  | chained first next =>
    obtain rfl := List.mem_singleton.mp h
    exact .first _ next
  | conditional child holds =>
    obtain rfl := List.mem_singleton.mp h
    exact .conditional _ holds
  | repeated child times =>
    obtain rfl := List.mem_singleton.mp h
    exact .repeated _ times
  | contextual child key value =>
    obtain rfl := List.mem_singleton.mp h
    exact .contextual _ key value

@[elab_as_elim]
theorem offspring_induction {P : Effect → Prop} (node : ∀ e, (∀ x ∈ e.offspring, P x) → P e)
    (e : Effect) : P e :=
  Encloses.induction (fun e ih => node e fun x hx => ih x (encloses_of_mem_offspring hx)) e

/-- The node at an address. -/
def nodeAt? : List Nat → Effect → Option Effect
  | [], e => some e
  | i :: path, e => e.offspring[i]?.bind (nodeAt? path)

theorem nodeAt?_cons_eq_some_iff : e.nodeAt? (i :: path) = some x ↔
    ∃ child, e.offspring[i]? = some child ∧ child.nodeAt? path = some x :=
  Option.bind_eq_some_iff

/-- Every node of the static tree has `q`. -/
def Everywhere (q : Effect → Prop) (e : Effect) : Prop := ∀ path x, e.nodeAt? path = some x → q x

theorem everywhere_iff : e.Everywhere q ↔ q e ∧ ∀ child ∈ e.offspring, child.Everywhere q := by
  constructor
  · intro h
    refine ⟨h [] e rfl, fun child hchild path x hx => ?_⟩
    obtain ⟨i, hi⟩ := List.getElem?_of_mem hchild
    exact h (i :: path) x (nodeAt?_cons_eq_some_iff.mpr ⟨child, hi, hx⟩)
  · rintro ⟨he, hbelow⟩ path x hx
    cases path with
    | nil =>
      cases hx
      exact he
    | cons i path =>
      obtain ⟨child, hchild, hx⟩ := nodeAt?_cons_eq_some_iff.mp hx
      exact hbelow child (List.mem_of_getElem? hchild) path x hx

/-- The kind that the effect carries; a custom leaf carries the kind that its label names, if it names one. -/
def carried? : Effect → Option EffectKind
  | custom l => EffectKind.ofName? l.label
  | e => e.kind?

/-- What carries the kind of a combinator is that combinator. -/
def Genuine (e : Effect) : Prop := ∀ kind, e.carried? = some kind → kind.part? ≠ none → e.kind? = some kind

theorem name_of_ofName? {name : String} {kind : EffectKind} (h : EffectKind.ofName? name = some kind) :
    kind.name = name := by
  have hnamed := List.find?_some h
  exact of_decide_eq_true hnamed

theorem label_of_carried? {kind : EffectKind} (h : e.carried? = some kind) : e.label = kind.name := by
  cases e with
  | custom l => exact (name_of_ofName? h).symm
  | _ => exact label_of_kind? h

theorem label_eq_iff {kind : EffectKind} (h : e.carried? ≠ none) :
    e.label = kind.name ↔ e.carried? = some kind := by
  obtain ⟨own, hown⟩ := Option.ne_none_iff_exists'.mp h
  rw [label_of_carried? hown, hown, Option.some.injEq]
  exact ⟨EffectKind.name_injective, congrArg EffectKind.name⟩

/-- The children can be told of what carries a kind and has its parts. -/
theorem children_eq_ok_iff : e.children = .ok cs ↔ e.carried? ≠ none ∧ e.Genuine ∧ cs = e.offspring := by
  cases e with
  | custom l =>
    cases hkind : EffectKind.ofName? l.label with
    | none => simp [children, carried?, hkind]
    | some kind =>
      cases hpart : kind.part? with
      | none => simp [children, Genuine, carried?, offspring, hkind, hpart, eq_comm]
      | some part => simp [children, Genuine, carried?, kind?, hkind, hpart]
  | _ => simp [children, Genuine, carried?, kind?, offspring, eq_comm]

theorem walkAllFrom_cons_eq_ok_iff {d : Nat} {rest : List Effect} {nodes : List (Nat × Effect)} :
    walkAllFrom d (e :: rest) = .ok nodes ↔ ∃ first later,
      e.walkFrom d = .ok first ∧ walkAllFrom d rest = .ok later ∧ nodes = first ++ later := by
  rw [walkAllFrom]
  cases hfirst : e.walkFrom d with
  | error err => simp [bind, Except.bind]
  | ok first =>
    cases hlater : walkAllFrom d rest with
    | error err => simp [bind, Except.bind]
    | ok later => simp [bind, Except.bind, pure, Except.pure, eq_comm]

theorem walkFrom_eq_ok_iff {d : Nat} {nodes : List (Nat × Effect)} : e.walkFrom d = .ok nodes ↔
    (e.carried? ≠ none ∧ e.Genuine) ∧ ∃ later, walkAllFrom (d + 1) e.offspring = .ok later ∧
      nodes = (d, e) :: later := by
  rw [walkFrom_eq]
  cases hchildren : e.children with
  | error err =>
    have hnot : ¬ (e.carried? ≠ none ∧ e.Genuine) := by
      rintro ⟨hkind, hgenuine⟩
      rw [children_eq_ok_iff.mpr ⟨hkind, hgenuine, rfl⟩] at hchildren
      cases hchildren
    simp only [hnot, false_and, iff_false]
    rintro ⟨⟩
  | ok cs =>
    obtain ⟨hkind, hgenuine, rfl⟩ := children_eq_ok_iff.mp hchildren
    cases hlater : walkAllFrom (d + 1) e.offspring with
    | error err => simp [bind, Except.bind, hlater]
    | ok later => simp [bind, Except.bind, hlater, hkind, hgenuine, eq_comm]

/-- A walk answers where every node carries a kind and has the parts of that kind. -/
theorem exists_walkFrom (hkind : e.Everywhere fun x => x.carried? ≠ none) (hgenuine : e.Everywhere Genuine)
    (d : Nat) : ∃ nodes, e.walkFrom d = .ok nodes := by
  induction e using offspring_induction generalizing d with
  | node e ih =>
    obtain ⟨he, hkinds⟩ := everywhere_iff.mp hkind
    obtain ⟨he', hgenuines⟩ := everywhere_iff.mp hgenuine
    have hall : ∀ cs ⊆ e.offspring, ∃ later, walkAllFrom (d + 1) cs = .ok later := by
      intro cs hcs
      induction cs with
      | nil => exact ⟨[], rfl⟩
      | cons child rest ihrest =>
        obtain ⟨hchild, hrest⟩ := List.cons_subset.mp hcs
        obtain ⟨first, hfirst⟩ := ih child hchild (hkinds child hchild) (hgenuines child hchild) (d + 1)
        obtain ⟨later, hlater⟩ := ihrest hrest
        exact ⟨_, walkAllFrom_cons_eq_ok_iff.mpr ⟨first, later, hfirst, hlater, rfl⟩⟩
    obtain ⟨later, hlater⟩ := hall e.offspring (List.Subset.refl _)
    exact ⟨_, walkFrom_eq_ok_iff.mpr ⟨⟨he, he'⟩, later, hlater, rfl⟩⟩

/-- What is shown of walks that answer, and of the walks of trees side by side below a node of depth `d`. -/
theorem walk_induction {P : Nat → Effect → List (Nat × Effect) → Prop}
    {Q : Nat → List Effect → List (Nat × Effect) → Prop} (nil : ∀ d, Q d [] [])
    (cons : ∀ {d e rest first later}, P (d + 1) e first → Q d rest later → Q d (e :: rest) (first ++ later))
    (node : ∀ {d e later}, e.carried? ≠ none → Q d e.offspring later → P d e ((d, e) :: later)) {d : Nat}
    {nodes : List (Nat × Effect)} (h : e.walkFrom d = .ok nodes) : P d e nodes := by
  induction e using offspring_induction generalizing d nodes with
  | node e ih =>
    obtain ⟨⟨hkind, _⟩, later, hlater, rfl⟩ := walkFrom_eq_ok_iff.mp h
    have hall : ∀ cs ⊆ e.offspring, ∀ later, walkAllFrom (d + 1) cs = .ok later → Q d cs later := by
      intro cs hcs
      induction cs with
      | nil =>
        rintro later ⟨⟩
        exact nil d
      | cons child rest ihrest =>
        intro later hlater
        obtain ⟨hchild, hrest⟩ := List.cons_subset.mp hcs
        obtain ⟨first, others, hfirst, hothers, rfl⟩ := walkAllFrom_cons_eq_ok_iff.mp hlater
        exact cons (ih child hchild hfirst) (ihrest hrest others hothers)
    exact node hkind (hall e.offspring (List.Subset.refl _) later hlater)

/-- The nodes of a tree with their addresses, each of them once and in the order of the addresses. -/
structure Enumerates (occurrences : List (List Nat × Effect)) (e : Effect) : Prop where
  sorted : occurrences.Pairwise fun a b => a.1 < b.1
  mem_iff : ∀ path x, (path, x) ∈ occurrences ↔ e.nodeAt? path = some x

/-- The same for trees that stand side by side, the first of them at the place `k`. -/
structure EnumeratesAll (k : Nat) (occurrences : List (List Nat × Effect)) (cs : List Effect) : Prop where
  sorted : occurrences.Pairwise fun a b => a.1 < b.1
  mem_iff : ∀ path x, (path, x) ∈ occurrences ↔
    ∃ i child rest, path = (k + i) :: rest ∧ cs[i]? = some child ∧ child.nodeAt? rest = some x

theorem EnumeratesAll.nil (k : Nat) : EnumeratesAll k [] [] where
  sorted := .nil
  mem_iff := by simp

theorem EnumeratesAll.cons {k : Nat} {os os' : List (List Nat × Effect)} (h : Enumerates os e)
    (h' : EnumeratesAll (k + 1) os' cs) :
    EnumeratesAll k (os.map (fun o => (k :: o.1, o.2)) ++ os') (e :: cs) where
  sorted := by
    refine List.pairwise_append.mpr ⟨?_, h'.sorted, ?_⟩
    · refine List.pairwise_map.mpr (h.sorted.imp fun hlt => ?_)
      exact List.cons_lt_cons_iff.mpr (.inr ⟨rfl, hlt⟩)
    · intro a ha b hb
      obtain ⟨o, _, rfl⟩ := List.mem_map.mp ha
      obtain ⟨i, child, rest, hpath, _⟩ := (h'.mem_iff b.1 b.2).mp hb
      rw [hpath]
      exact List.cons_lt_cons_iff.mpr (.inl (by omega))
  mem_iff := by
    intro path x
    rw [List.mem_append, h'.mem_iff]
    constructor
    · rintro (hm | ⟨i, child, rest, rfl, hchild, hx⟩)
      · obtain ⟨⟨rest, y⟩, ho, heq⟩ := List.mem_map.mp hm
        cases heq
        exact ⟨0, e, rest, rfl, rfl, (h.mem_iff rest y).mp ho⟩
      · exact ⟨i + 1, child, rest, by rw [Nat.add_right_comm, Nat.add_assoc], hchild, hx⟩
    · rintro ⟨i, child, rest, rfl, hchild, hx⟩
      cases i with
      | zero =>
        cases hchild
        exact .inl (List.mem_map.mpr ⟨(rest, x), (h.mem_iff rest x).mpr hx, rfl⟩)
      | succ i => exact .inr ⟨i, child, rest, by rw [Nat.add_right_comm, Nat.add_assoc], hchild, hx⟩

theorem Enumerates.cons {os : List (List Nat × Effect)} (h : EnumeratesAll 0 os e.offspring) :
    Enumerates (([], e) :: os) e where
  sorted := by
    refine List.pairwise_cons.mpr ⟨fun o ho => ?_, h.sorted⟩
    obtain ⟨i, child, rest, hpath, _⟩ := (h.mem_iff o.1 o.2).mp ho
    rw [hpath]
    exact List.nil_lt_cons _ _
  mem_iff := by
    intro path x
    rw [List.mem_cons, h.mem_iff]
    cases path with
    | nil => simp [nodeAt?, eq_comm]
    | cons i rest => simp [nodeAt?_cons_eq_some_iff]

/-- The depth of a node is the number of steps in its address. -/
def placed (d : Nat) (o : List Nat × Effect) : Nat × Effect := (d + o.1.length, o.2)

theorem map_placed_cons (d k : Nat) (os : List (List Nat × Effect)) :
    (os.map fun o => (k :: o.1, o.2)).map (placed d) = os.map (placed (d + 1)) := by
  rw [List.map_map]
  refine List.map_congr_left fun o _ => ?_
  simp only [Function.comp, placed, List.length_cons]
  congr 1
  omega

/-- A walk lists every node at every address of its own, in the order of the addresses. -/
theorem enumerates_of_walk {d : Nat} {nodes : List (Nat × Effect)} (h : e.walkFrom d = .ok nodes) :
    ∃ os, Enumerates os e ∧ nodes = os.map (placed d) := by
  refine walk_induction (P := fun d e nodes => ∃ os, Enumerates os e ∧ nodes = os.map (placed d))
    (Q := fun d cs later => ∀ k, ∃ os, EnumeratesAll k os cs ∧ later = os.map (placed d)) ?nil ?cons ?node h
  case nil => exact fun d k => ⟨[], .nil k, rfl⟩
  case cons =>
    rintro d e rest first later ⟨os, hos, rfl⟩ hrest k
    obtain ⟨os', hos', rfl⟩ := hrest (k + 1)
    refine ⟨_, .cons hos hos', ?_⟩
    rw [List.map_append, map_placed_cons]
  case node =>
    intro d e later _ hlater
    obtain ⟨os, hos, rfl⟩ := hlater 0
    exact ⟨_, .cons hos, rfl⟩

/-- A tree has but one enumeration. -/
theorem Enumerates.unique {os os' : List (List Nat × Effect)} (h : Enumerates os e) (h' : Enumerates os' e) :
    os = os' := by
  have hnodup {l : List (List Nat × Effect)} (hl : Enumerates l e) : l.Nodup :=
    hl.sorted.imp fun {a b} hlt heq => by
      rw [heq] at hlt
      exact absurd hlt (List.lt_irrefl _)
  have hperm : os.Perm os' := (List.perm_ext_iff_of_nodup (hnodup h) (hnodup h')).mpr fun o => by
    rw [h.mem_iff o.1 o.2, h'.mem_iff o.1 o.2]
  refine hperm.eq_of_pairwise (fun a b _ _ hab hba => ?_) h.sorted h'.sorted
  exact absurd (List.lt_trans hab hba) (List.lt_irrefl _)

end Effect

end Cardplay
